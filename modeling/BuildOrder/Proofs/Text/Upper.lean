import BuildOrder.Proofs.Text.CaseMap
import BuildOrder.Text.Line

/-! Upper case is its own upper case, and blanks, separators and delimiters are in the upper case of
a text exactly if they are in the text. -/
namespace BuildOrder.Text

def upperTable : CaseTable where
  ascii := Char.toUpper
  low := 0x61
  high := 0x7A
  ranges := upperRanges
  expansions := upperExpansions

theorem isSettled_upperTable : upperTable.IsSettled where
  ascii_ascii := by decide +kernel
  ascii_self := by decide +kernel
  ranges_miss := by decide +kernel
  codes_miss := by decide +kernel
  expansions_fixed := by decide +kernel

theorem upper_append (s t : String) : upper (s ++ t) = upper s ++ upper t := by
  rw [upper, upper, upper, String.toList_append, List.flatMap_append, String.ofList_append]

theorem flatMap_upperChar_upperChar (c : Char) : (upperChar c).flatMap upperChar = upperChar c := by
  have hself : ∀ d ∈ upperChar c, upperChar d = [d] := fun d hd =>
    isSettled_upperTable.mapChar_of_mem hd
  rw [List.flatMap_def, List.map_congr_left hself, ← List.flatMap_def, List.flatMap_singleton']

/-- Upper case is its own upper case. -/
@[simp] theorem upper_upper (s : String) : upper (upper s) = upper s := by
  rw [upper, upper, String.toList_ofList, List.flatMap_assoc]
  congr 2
  funext c
  exact flatMap_upperChar_upperChar c

theorem mem_upper_iff {d : Char} (hd : upperTable.isOutside d = true) {s : String} :
    d ∈ (upper s).toList ↔ d ∈ s.toList := by
  rw [upper, String.toList_ofList, List.mem_flatMap]
  constructor
  · rintro ⟨c, hc, hmem⟩
    rwa [← (isSettled_upperTable.mem_mapChar_iff hd).mp hmem]
  · exact fun hmem => ⟨d, hmem, (isSettled_upperTable.mem_mapChar_iff hd).mpr rfl⟩

theorem slash_mem_upper_iff {s : String} : '/' ∈ (upper s).toList ↔ '/' ∈ s.toList :=
  mem_upper_iff (by decide +kernel)

/-- The code points of the blanks. -/
def blankCodes : List Nat := [
  0x09, 0x0A, 0x0B, 0x0C, 0x0D, 0x20, 0x85, 0xA0, 0x1680, 0x2000, 0x2001, 0x2002, 0x2003, 0x2004,
  0x2005, 0x2006, 0x2007, 0x2008, 0x2009, 0x200A, 0x2028, 0x2029, 0x202F, 0x205F, 0x3000]

theorem isOutside_of_isBlank {c : Char} (hc : isBlank c = true) :
    upperTable.isOutside c = true := by
  have hcodes : ∀ n ∈ blankCodes, upperTable.isOutside (Char.ofNat n) = true := by decide +kernel
  have hmem : c.toNat ∈ blankCodes := by
    simp only [isBlank, Bool.or_eq_true, Bool.and_eq_true, decide_eq_true_eq, beq_iff_eq] at hc
    simp only [blankCodes, List.mem_cons, List.not_mem_nil, or_false]
    omega
  have hself := hcodes c.toNat hmem
  rwa [Char.ofNat_toNat] at hself

theorem isBlank_of_mem_upper {s : String} (hs : ∀ c ∈ s.toList, isBlank c = false) :
    ∀ c ∈ (upper s).toList, isBlank c = false := by
  intro c hc
  cases hblank : isBlank c with
  | false => rfl
  | true =>
    have hself := hs c ((mem_upper_iff (isOutside_of_isBlank hblank)).mp hc)
    rw [hblank] at hself
    cases hself

theorem upperChar_ne_nil (c : Char) : upperChar c ≠ [] := by
  have hexpansions : (upperTable.expansions.all fun e => !e.2.isEmpty) = true := by decide +kernel
  by_cases hascii : c.toNat < 0x80
  · rw [upperChar, if_pos hascii]
    exact List.cons_ne_nil _ _
  · rw [upperChar, if_neg hascii]
    exact fun h => CaseTable.map_ne_nil hexpansions c.toNat (List.map_eq_nil_iff.mp h)

theorem upper_ne_empty {s : String} (hs : s ≠ "") : upper s ≠ "" := by
  intro hupper
  rw [upper, String.ofList_eq_empty_iff, List.flatMap_eq_nil_iff] at hupper
  obtain ⟨c, rest, hcs⟩ := List.exists_cons_of_ne_nil (mt String.toList_eq_nil_iff.mp hs)
  exact upperChar_ne_nil c (hupper c (by simp [hcs]))

end BuildOrder.Text
