import BuildOrder.Proofs.Text.AsciiCase
import BuildOrder.Proofs.Text.CaseMap

/-! Lower case is its own lower case, whatever stands around a sigma. The case of ASCII letters does
not matter to it. -/
namespace BuildOrder.Text

def lowerTable : CaseTable where
  ascii := Char.toLower
  low := 0x41
  high := 0x5A
  ranges := lowerRanges
  expansions := lowerExpansions

theorem isSettled_lowerTable : lowerTable.IsSettled where
  ascii_ascii := by decide +kernel
  ascii_self := by decide +kernel
  ranges_miss := by decide +kernel
  codes_miss := by decide +kernel
  expansions_fixed := by decide +kernel

theorem lowerAfter_cons (before : List Char) (c : Char) (rest : List Char) :
    lowerAfter before (c :: rest) =
      (if c = 'Σ' then
        if leadsToCased before && !leadsToCased rest then ['ς'] else ['σ']
      else lowerChar c) ++ lowerAfter (c :: before) rest :=
  rfl

/-- What a lower-case text consists of: no sigma is among it that has two forms. -/
theorem lowerChar_of_mem_lowerAfter {before cs : List Char} {d : Char}
    (hmem : d ∈ lowerAfter before cs) : lowerChar d = [d] := by
  induction cs generalizing before with
  | nil => cases hmem
  | cons c rest ih =>
    rw [lowerAfter_cons, List.mem_append] at hmem
    rcases hmem with hmem | hmem
    · split_ifs at hmem
      · rw [List.mem_singleton.mp hmem]
        decide +kernel
      · rw [List.mem_singleton.mp hmem]
        decide +kernel
      · exact isSettled_lowerTable.mapChar_of_mem hmem
    · exact ih hmem

theorem lowerAfter_eq_self {cs : List Char} (h : ∀ c ∈ cs, lowerChar c = [c])
    (before : List Char) : lowerAfter before cs = cs := by
  induction cs generalizing before with
  | nil => rfl
  | cons c rest ih =>
    have hc : lowerChar c = [c] := h c List.mem_cons_self
    have hsigma : c ≠ 'Σ' := by
      rintro rfl
      revert hc
      decide +kernel
    rw [lowerAfter_cons, if_neg hsigma, hc, ih fun d hd => h d (List.mem_cons_of_mem c hd)]
    rfl

/-- Lower case is its own lower case. -/
@[simp] theorem lower_lower (s : String) : lower (lower s) = lower s := by
  rw [lower, lower, String.toList_ofList, lowerAfter_eq_self]
  exact fun c hc => lowerChar_of_mem_lowerAfter hc

theorem toLower_of_lowerChar (c : Char) : lowerChar c = [c] → c.toLower = c := by
  refine forall_char (p := fun c => lowerChar c = [c] → c.toLower = c) (by decide +kernel) ?_ c
  intro c hc _
  exact hc

theorem map_toLower_lower (s : String) : (lower s).toList.map Char.toLower = (lower s).toList := by
  rw [lower, String.toList_ofList]
  refine (List.map_congr_left fun c hc => ?_).trans (List.map_id _)
  exact toLower_of_lowerChar c (lowerChar_of_mem_lowerAfter hc)

theorem lowerChar_toLower (c : Char) : lowerChar c.toLower = lowerChar c := by
  refine forall_char (p := fun c => lowerChar c.toLower = lowerChar c) (by decide +kernel) ?_ c
  intro c hc
  rw [hc]

theorem toNat_of_isAlpha {c : Char} (h : c.isAlpha = true) :
    (0x41 ≤ c.toNat ∧ c.toNat ≤ 0x5A) ∨ (0x61 ≤ c.toNat ∧ c.toNat ≤ 0x7A) := by
  rcases Bool.or_eq_true_iff.mp h with hcapital | hsmall
  · exact .inl (of_decide_eq_true hcapital)
  · obtain ⟨hlow, hhigh⟩ := Bool.and_eq_true_iff.mp hsmall
    exact .inr ⟨of_decide_eq_true hlow, of_decide_eq_true hhigh⟩

theorem isCased_of_isAlpha {c : Char} (h : c.isAlpha = true) : isCased c = true := by
  rw [isCased, inIntervals, List.any_eq_true]
  rcases toNat_of_isAlpha h with hcapital | hsmall
  · exact ⟨(0x41, 0x5A), .head _, by simpa using hcapital⟩
  · exact ⟨(0x61, 0x7A), .tail _ (.head _), by simpa using hsmall⟩

/-- The intervals lie before, after or between the ASCII letters. -/
theorem caseIgnorableIntervals_miss_letters : (caseIgnorableIntervals.all fun i =>
    Nat.blt i.2 0x41 || Nat.blt 0x7A i.1 || (Nat.blt 0x5A i.1 && Nat.blt i.2 0x61)) = true := by
  decide +kernel

theorem isCaseIgnorable_of_isAlpha {c : Char} (h : c.isAlpha = true) :
    isCaseIgnorable c = false := by
  rw [isCaseIgnorable, inIntervals, List.any_eq_false]
  intro i hi
  have hmiss := List.all_eq_true.mp caseIgnorableIntervals_miss_letters i hi
  have hletter := toNat_of_isAlpha h
  simp only [Bool.or_eq_true, Bool.and_eq_true, Nat.blt_eq] at hmiss
  simp only [Bool.and_eq_true, decide_eq_true_eq]
  omega

/-- A property that all ASCII letters share does not depend on their case. -/
theorem toLower_congr {p : Char → Bool} {b : Bool} (hp : ∀ c : Char, c.isAlpha = true → p c = b)
    (c : Char) : p c.toLower = p c := by
  by_cases hc : c.toLower = c
  · rw [hc]
  · obtain ⟨halpha, halpha'⟩ := isAlpha_of_toLower_ne c hc
    rw [hp c halpha, hp _ halpha']

theorem leadsToCased_map_toLower (cs : List Char) :
    leadsToCased (cs.map Char.toLower) = leadsToCased cs := by
  simp only [leadsToCased, List.dropWhile_map, List.head?_map, Option.map_map, Function.comp_def,
    toLower_congr fun _ => isCased_of_isAlpha, toLower_congr fun _ => isCaseIgnorable_of_isAlpha]

theorem lowerAfter_map_toLower (before cs : List Char) :
    lowerAfter (before.map Char.toLower) (cs.map Char.toLower) = lowerAfter before cs := by
  induction cs generalizing before with
  | nil => rfl
  | cons c rest ih =>
    rw [List.map_cons, lowerAfter_cons, lowerAfter_cons, leadsToCased_map_toLower,
      leadsToCased_map_toLower, lowerChar_toLower, ← List.map_cons, ih]
    simp only [toLower_eq_iff (show 'Σ'.isAlpha = false by decide)]

theorem lower_map_toLower (cs : List Char) :
    lower (String.ofList (cs.map Char.toLower)) = lower (String.ofList cs) := by
  rw [lower, lower, String.toList_ofList, String.toList_ofList]
  exact congrArg String.ofList (lowerAfter_map_toLower [] cs)

end BuildOrder.Text
