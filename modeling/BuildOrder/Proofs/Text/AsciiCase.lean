import BuildOrder.Proofs.Text.Line
import BuildOrder.Proofs.Text.Utf8
import BuildOrder.Text.Case

/-! Text with its ASCII letters in lower case, read before or after it is decoded, cut into lines
and words or changed to upper case. -/
namespace BuildOrder.Text

section Characters

/-- What holds of the ASCII characters, and of a character without another lower case, holds of
each. -/
theorem forall_char {p : Char → Prop} (hascii : ∀ n < 0x80, p (Char.ofNat n))
    (hself : ∀ c : Char, c.toLower = c → p c) (c : Char) : p c := by
  by_cases hc : c.toNat < 0x80
  · rw [← Char.ofNat_toNat c]
    exact hascii _ hc
  · refine hself c (dif_neg ?_)
    rintro ⟨-, hz⟩
    have hz : c.toNat ≤ 0x5A := hz
    omega

@[simp] theorem toLower_toLower (c : Char) : c.toLower.toLower = c.toLower := by
  refine forall_char (p := fun c => c.toLower.toLower = c.toLower) (by decide +kernel) ?_ c
  intro c hc
  rw [hc, hc]

@[simp] theorem isBlank_toLower (c : Char) : isBlank c.toLower = isBlank c := by
  refine forall_char (p := fun c => isBlank c.toLower = isBlank c) (by decide +kernel) ?_ c
  intro c hc
  rw [hc]

@[simp] theorem upperChar_toLower (c : Char) : upperChar c.toLower = upperChar c := by
  refine forall_char (p := fun c => upperChar c.toLower = upperChar c) (by decide +kernel) ?_ c
  intro c hc
  rw [hc]

theorem isAlpha_of_toLower_ne (c : Char) :
    c.toLower ≠ c → c.isAlpha = true ∧ c.toLower.isAlpha = true := by
  refine forall_char (p := fun c => c.toLower ≠ c → c.isAlpha = true ∧ c.toLower.isAlpha = true)
    (by decide +kernel) ?_ c
  intro c hc hne
  exact absurd hc hne

/-- A character that is no letter is the lower case of itself only. -/
theorem toLower_eq_iff {c d : Char} (hd : d.isAlpha = false) : c.toLower = d ↔ c = d := by
  by_cases hc : c.toLower = c
  · rw [hc]
  · obtain ⟨halpha, halpha'⟩ := isAlpha_of_toLower_ne c hc
    constructor
    · rintro rfl
      rw [halpha'] at hd
      cases hd
    · rintro rfl
      rw [halpha] at hd
      cases hd

end Characters

theorem upper_map_toLower (cs : List Char) :
    upper (String.ofList (cs.map Char.toLower)) = upper (String.ofList cs) := by
  simp only [upper, String.toList_ofList, List.flatMap_map, upperChar_toLower]

theorem eqIgnoringAsciiCase_map_toLower (cs : List Char) (t : String) :
    eqIgnoringAsciiCase (String.ofList (cs.map Char.toLower)) t =
      eqIgnoringAsciiCase (String.ofList cs) t := by
  simp [eqIgnoringAsciiCase, Function.comp_def]

theorem lines_cons_toLower {c : Char} {rest : List Char} (hc : c = '\n' → False)
    (hrest : ∀ rest', c = '\r' → rest = '\n' :: rest' → False) :
    lines (c.toLower :: rest.map Char.toLower) =
      match lines (rest.map Char.toLower) with
      | [] => [[c.toLower]]
      | line :: more => (c.toLower :: line) :: more := by
  refine lines.eq_4 _ _ (fun heq => hc ((toLower_eq_iff (by decide)).mp heq)) fun rest' heq h => ?_
  cases rest with
  | nil => cases h
  | cons d rest =>
    rw [List.map_cons, List.cons.injEq, toLower_eq_iff (by decide)] at h
    exact hrest rest ((toLower_eq_iff (by decide)).mp heq) (by rw [h.1])

theorem lines_map_toLower (cs : List Char) :
    lines (cs.map Char.toLower) = (lines cs).map (List.map Char.toLower) := by
  induction cs using lines.induct with
  | case1 => rfl
  | case2 rest ih => exact congrArg ([] :: ·) ih
  | case3 rest ih => exact congrArg ([] :: ·) ih
  | case4 c rest hc hrest hlines ih =>
    rw [List.map_cons, lines_cons_toLower hc hrest, ih, lines.eq_4 c rest hc hrest, hlines]
    rfl
  | case5 c rest hc hrest line more hlines ih =>
    rw [List.map_cons, lines_cons_toLower hc hrest, ih, lines.eq_4 c rest hc hrest, hlines]
    rfl

theorem words_map_toLower (cs : List Char) :
    words (cs.map Char.toLower) = (words cs).map (List.map Char.toLower) := by
  induction cs with
  | nil => rfl
  | cons c rest ih =>
    rw [List.map_cons, words_cons, words_cons, isBlank_toLower, ih]
    split
    · rfl
    · cases rest with
      | nil => cases words [] <;> rfl
      | cons d tail =>
        cases words (d :: tail) with
        | nil => rfl
        | cons word more =>
          simp only [List.map_cons, isBlank_toLower]
          split <;> rfl

namespace Utf8

/-- An ASCII letter becomes small; other bytes stay. -/
def lowerByte (b : UInt8) : UInt8 :=
  if 0x41 ≤ b ∧ b ≤ 0x5A then b + 0x20 else b

theorem forall_byte {p : UInt8 → Prop} (h : ∀ n < 0x100, p (UInt8.ofNat n)) (b : UInt8) : p b := by
  have hb := h b.toNat b.toNat_lt
  rwa [UInt8.ofNat_toNat] at hb

theorem lowerByte_cases (b : UInt8) : lowerByte b = b ∨ b < 0x80 ∧ lowerByte b < 0x80 :=
  forall_byte (p := fun b => lowerByte b = b ∨ b < 0x80 ∧ lowerByte b < 0x80) (by decide +kernel) b

/-- What a byte completes, up to the case of ASCII letters, and the state after it. -/
def uncased (result : List Piece × State) : List Piece × State :=
  (result.1.map (Option.map Char.toLower), result.2)

theorem uncased_first_lowerByte (b : UInt8) : uncased (first (lowerByte b)) = uncased (first b) :=
  forall_byte (p := fun b => uncased (first (lowerByte b)) = uncased (first b))
    (by decide +kernel) b

theorem uncased_step_lowerByte {state : State} (h : state.AboveAscii) (b : UInt8) :
    uncased (step state (lowerByte b)) = uncased (step state b) := by
  rcases lowerByte_cases b with hself | ⟨hb, hlower⟩
  · rw [hself]
  cases state with
  | start => exact uncased_first_lowerByte b
  | within low high more code =>
    -- A letter ends the character too early, whatever its case.
    have hlow : ∀ b' : UInt8, b' < 0x80 → ¬(low ≤ b' ∧ b' ≤ high) := fun b' hb' hwithin =>
      UInt8.lt_irrefl b' (UInt8.lt_of_lt_of_le hb' (UInt8.le_trans h hwithin.1))
    rw [step, step, if_neg (hlow _ hlower), if_neg (hlow _ hb)]
    have hfirst := uncased_first_lowerByte b
    rw [uncased, uncased, Prod.mk.injEq] at hfirst ⊢
    exact ⟨congrArg (none :: ·) hfirst.1, hfirst.2⟩

theorem piecesFrom_map_lowerByte {state : State} (h : state.AboveAscii) (bytes : List UInt8) :
    (piecesFrom state (bytes.map lowerByte)).map (Option.map Char.toLower) =
      (piecesFrom state bytes).map (Option.map Char.toLower) := by
  induction bytes generalizing state with
  | nil => rfl
  | cons b rest ih =>
    have hstep := uncased_step_lowerByte h b
    rw [uncased, uncased, Prod.mk.injEq] at hstep
    have hrest := ih (aboveAscii_step state b)
    rw [List.map_cons, piecesFrom, piecesFrom, List.map_append, List.map_append, hstep.1, hstep.2,
      hrest]

/-- Bytes that differ in the case of ASCII letters, malformed ones among them, decode to texts that
do. -/
theorem decodeLossy_map_lowerByte (bytes : List UInt8) :
    (decodeLossy (bytes.map lowerByte)).map Char.toLower =
      (decodeLossy bytes).map Char.toLower := by
  have hgetD : ∀ pieces : List Piece,
      (pieces.map fun piece => piece.getD '\uFFFD').map Char.toLower =
        (pieces.map (Option.map Char.toLower)).map fun piece => piece.getD '\uFFFD' := by
    intro pieces
    rw [List.map_map, List.map_map]
    refine List.map_congr_left fun piece _ => ?_
    cases piece <;> rfl
  have hstart : State.start.AboveAscii := trivial
  rw [decodeLossy, decodeLossy, hgetD, hgetD, pieces, pieces, piecesFrom_map_lowerByte hstart]

end Utf8

end BuildOrder.Text
