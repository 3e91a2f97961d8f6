import Mathlib.Data.List.TakeWhile
import BuildOrder.Proofs.Symbols.Lines

/-! The symbols of the module dialect: a text provides the modules that it declares and requires
those that it uses, in the order of the lines that do so. -/
namespace BuildOrder
open Text

/-- A line that declares a module, which has its name in upper case. -/
def DeclarationLine (line : List Char) (symbol : String) : Prop :=
  ∃ operand, LeadsWith "module" line operand ∧ upper (String.ofList operand) = symbol

/-- A line that uses a module: its name goes up to the first comma. -/
def UseLine (line : List Char) (symbol : String) : Prop :=
  ∃ operand, LeadsWith "use" line operand ∧ operand.takeWhile (· ≠ ',') ≠ [] ∧
    upper (String.ofList (operand.takeWhile (· ≠ ','))) = symbol

/-- A symbol that is a word in upper case. -/
structure IsUpperWord (symbol : String) : Prop where
  ne_empty : symbol ≠ ""
  not_blank : ∀ c ∈ symbol.toList, isBlank c = false
  upper_eq : upper symbol = symbol

theorem isUpperWord_upper {cs : List Char} (hne : cs ≠ []) (hcs : ∀ c ∈ cs, isBlank c = false) :
    IsUpperWord (upper (String.ofList cs)) where
  ne_empty := upper_ne_empty fun h => hne (String.ofList_eq_empty_iff.mp h)
  not_blank := isBlank_of_mem_upper (by rwa [String.toList_ofList])
  upper_eq := upper_upper _

section

variable {keyword symbol : String} {line : List Char}

theorem eqIgnoringAsciiCase_use_of_module (h : eqIgnoringAsciiCase keyword "module" = true) :
    eqIgnoringAsciiCase keyword "use" = false := by
  rw [eqIgnoringAsciiCase, beq_iff_eq] at h
  rw [eqIgnoringAsciiCase, h]
  decide

theorem DeclarationLine.isUpperWord (h : DeclarationLine line symbol) : IsUpperWord symbol := by
  obtain ⟨operand, hleads, rfl⟩ := h
  exact isUpperWord_upper hleads.word.1 hleads.word.2

theorem UseLine.isUpperWord (h : UseLine line symbol) : IsUpperWord symbol := by
  obtain ⟨operand, hleads, hne, rfl⟩ := h
  exact isUpperWord_upper hne fun c hc => hleads.word.2 c ((List.takeWhile_sublist _).subset hc)

theorem UseLine.comma_not_mem (h : UseLine line symbol) : ',' ∉ symbol.toList := by
  obtain ⟨operand, -, -, rfl⟩ := h
  rw [mem_upper_iff (by decide +kernel), String.toList_ofList]
  intro hmem
  simpa using List.mem_takeWhile_imp hmem

end

namespace Symbols

section

variable {stem symbol : String} {line first second : List Char}

theorem mem_provides_ofStatement :
    symbol ∈ (ofStatement (String.ofList first) (String.ofList second)).provides ↔
      eqIgnoringAsciiCase (String.ofList first) "module" = true ∧
        upper (String.ofList second) = symbol := by
  rw [ofStatement]
  split_ifs with hmodule huse
  · simp [hmodule, eq_comm]
  · dsimp only
    split_ifs <;> simp [hmodule]
  · simp [hmodule]

theorem mem_requires_ofStatement :
    symbol ∈ (ofStatement (String.ofList first) (String.ofList second)).requires ↔
      eqIgnoringAsciiCase (String.ofList first) "use" = true ∧
        second.takeWhile (· ≠ ',') ≠ [] ∧
        upper (String.ofList (second.takeWhile (· ≠ ','))) = symbol := by
  rw [ofStatement, String.toList_ofList]
  generalize second.takeWhile (· ≠ ',') = name
  split_ifs with hmodule huse
  · simp [eqIgnoringAsciiCase_use_of_module hmodule]
  · dsimp only
    split_ifs with hname
    · simp [hname]
    · simp [huse, hname, eq_comm]
  · simp [huse]

theorem mem_provides_ofLine_modules :
    symbol ∈ (ofLine .modules stem line).provides ↔ DeclarationLine line symbol := by
  unfold ofLine
  split
  next first second rest hwords =>
    simp only [DeclarationLine, leadsWith_iff hwords, mem_provides_ofStatement]
    simp
  next hwords => simp [DeclarationLine, not_leadsWith hwords]

theorem mem_requires_ofLine_modules :
    symbol ∈ (ofLine .modules stem line).requires ↔ UseLine line symbol := by
  unfold ofLine
  split
  next first second rest hwords =>
    simp only [UseLine, leadsWith_iff hwords, mem_requires_ofStatement]
    simp
  next hwords => simp [UseLine, not_leadsWith hwords]

end

/-- A text provides the modules that its lines declare and requires those that its lines use, each
once and in line order. All are words in upper case, and a required one ends before a comma. -/
theorem ofText_modules_exact (fileName : String) (content : List Char) :
    InLineOrder DeclarationLine (lines content) (ofText .modules fileName content).provides ∧
    InLineOrder UseLine (lines content) (ofText .modules fileName content).requires ∧
    (∀ symbol, symbol ∈ (ofText .modules fileName content).provides ∨
      symbol ∈ (ofText .modules fileName content).requires → IsUpperWord symbol) ∧
    ∀ symbol ∈ (ofText .modules fileName content).requires, ',' ∉ symbol.toList := by
  have hprovides : InLineOrder DeclarationLine (lines content)
      (ofText .modules fileName content).provides :=
    inLineOrder_provides fun _ _ => mem_provides_ofLine_modules
  have hrequires : InLineOrder UseLine (lines content)
      (ofText .modules fileName content).requires :=
    inLineOrder_requires fun _ _ => mem_requires_ofLine_modules
  refine ⟨hprovides, hrequires, ?_, ?_⟩
  · rintro symbol (hsymbol | hsymbol)
    · obtain ⟨line, -, hline⟩ := (hprovides.mem_iff symbol).mp hsymbol
      exact hline.isUpperWord
    · obtain ⟨line, -, hline⟩ := (hrequires.mem_iff symbol).mp hsymbol
      exact hline.isUpperWord
  · intro symbol hsymbol
    obtain ⟨line, -, hline⟩ := (hrequires.mem_iff symbol).mp hsymbol
    exact hline.comma_not_mem

end Symbols
end BuildOrder
