import BuildOrder.Proofs.Symbols.AsciiCase
import BuildOrder.Proofs.Symbols.Includes
import BuildOrder.Proofs.Text.Line

/-! The include dialect as a whole: a text requires the names on its include lines in line order,
and provides those of them that are its own headers, in the same order. -/
namespace BuildOrder
open Text

/-- The delimiters of include operands and the separators of include names. -/
def reserved : List Char :=
  ['"', '\'', '<', '>', '/', '\\']

/-- A name of one component that an include line can hold between its delimiters. -/
structure IsPlain (name : String) : Prop where
  ne_empty : name ≠ ""
  not_blank : ∀ c ∈ name.toList, isBlank c = false
  not_mem : ∀ c ∈ reserved, c ∉ name.toList

instance (name : String) : Decidable (IsPlain name) :=
  decidable_of_iff (name ≠ "" ∧ name.toList.all (isBlank · = false) = true ∧
      reserved.all (· ∉ name.toList) = true)
    (by
      simp only [List.all_eq_true, decide_eq_true_eq]
      exact ⟨fun h => ⟨h.1, h.2.1, h.2.2⟩, fun h => ⟨h.ne_empty, h.not_blank, h.not_mem⟩⟩)

/-- What may follow the last dot of a plain name. -/
structure IsPlainExtension (extension : String) : Prop extends IsPlain extension where
  dot_not_mem : '.' ∉ extension.toList

instance (extension : String) : Decidable (IsPlainExtension extension) :=
  decidable_of_iff (IsPlain extension ∧ '.' ∉ extension.toList)
    ⟨fun h => ⟨h.1, h.2⟩, fun h => ⟨h.toIsPlain, h.dot_not_mem⟩⟩

namespace IsPlain

theorem append_dot {base extension : String} (hbase : IsPlain base)
    (hextension : IsPlain extension) : IsPlain (base ++ "." ++ extension) where
  ne_empty := by simp [hbase.ne_empty]
  not_blank := by
    have hdot : isBlank '.' = false := rfl
    simp only [String.toList_append, List.mem_append]
    rintro c ((hc | hc) | hc)
    · exact hbase.not_blank c hc
    · rwa [List.mem_singleton.mp hc]
    · exact hextension.not_blank c hc
  not_mem := by
    intro c hc
    have hdot : '.' ∉ reserved := by decide
    simp only [String.toList_append, List.mem_append]
    rintro ((hmem | hmem) | hmem)
    · exact hbase.not_mem c hc hmem
    · obtain rfl : c = '.' := List.mem_singleton.mp hmem
      exact hdot hc
    · exact hextension.not_mem c hc hmem

theorem upper {name : String} (h : IsPlain name) : IsPlain (upper name) where
  ne_empty := upper_ne_empty h.ne_empty
  not_blank := isBlank_of_mem_upper h.not_blank
  not_mem := by
    intro c hc
    have houtside : reserved.all upperTable.isOutside = true := by
      decide +kernel
    rw [mem_upper_iff (List.all_eq_true.mp houtside c hc)]
    exact h.not_mem c hc

theorem not_isSeparator {name : String} (h : IsPlain name) : ∀ c ∈ name.toList, ¬IsSeparator c := by
  rintro c hc (rfl | rfl)
  · exact h.not_mem '/' (by decide) hc
  · exact h.not_mem '\\' (by decide) hc

end IsPlain

namespace Symbols

section

variable {base extension name : String}

theorem stem?_append_dot (hbase : IsPlain base) (hextension : IsPlainExtension extension) :
    Path.stem? (base ++ "." ++ extension) = some base := by
  have hplain := hbase.append_dot hextension.toIsPlain
  have hname : base ++ "." ++ extension ∉ ["", ".", ".."] := by
    have hshort : ∀ s ∈ ["", ".", ".."], s.length ≤ 2 := by decide
    have hbefore := List.length_pos_iff.mpr (mt String.toList_eq_nil_iff.mp hbase.ne_empty)
    have hafter := List.length_pos_iff.mpr (mt String.toList_eq_nil_iff.mp hextension.ne_empty)
    intro hmem
    have hlength := hshort _ hmem
    simp only [String.length_append, String.length_toList] at hlength hbefore hafter
    have hdot : ".".length = 1 := rfl
    omega
  have hlist : (base ++ "." ++ extension).toList = base.toList ++ '.' :: extension.toList := by
    simp
  rw [Path.stem?, Path.fileName?_of_not_mem (hplain.not_mem '/' (by decide)) hname, Option.map_some,
    hlist, Path.splitExtension_append_dot (mt String.toList_eq_nil_iff.mp hbase.ne_empty)
      hextension.dot_not_mem, String.ofList_toList]

theorem isBareName_upper (hbase : IsPlain base) (hextension : IsPlainExtension extension) :
    IsBareName (upper (base ++ "." ++ extension)) (upper base) := by
  have hplain := (hbase.append_dot hextension.toIsPlain).upper
  refine ⟨[], _, _, (List.nil_append _).symm, (List.nil_append _).symm, ?_, by simp,
    hplain.not_isSeparator⟩
  have hdot : '.' ∉ (upper extension).toList := by
    rw [mem_upper_iff (by decide +kernel)]
    exact hextension.dot_not_mem
  have hlist : (upper (base ++ "." ++ extension)).toList =
      (upper base).toList ++ '.' :: (upper extension).toList := by
    have hself : upper "." = "." := by decide +kernel
    rw [upper_append, upper_append, hself]
    simp
  rw [hlist]
  exact .cut (mt String.toList_eq_nil_iff.mp hbase.upper.ne_empty) hdot

theorem includeLine_quoted (h : IsPlain name) :
    IncludeLine ("#include \"" ++ name ++ "\"").toList (upper name) := by
  let operand := '"' :: name.toList ++ ['"']
  have hline : ("#include \"" ++ name ++ "\"").toList = "#include".toList ++ ' ' :: operand := by
    simp [operand]
  have hwords : words operand = [operand] := by
    refine words_eq_singleton (List.cons_ne_nil _ _) ?_
    simp only [operand, List.cons_append, List.mem_cons, List.mem_append, List.not_mem_nil,
      or_false]
    rintro c (rfl | hc | rfl)
    · rfl
    · exact h.not_blank c hc
    · rfl
  have hdelimiters : ∀ c ∈ name.toList, c ∉ ['"', '\'', '<', '>'] := fun c hc hmem =>
    h.not_mem c (List.mem_append_left ['/', '\\'] hmem) hc
  have hname : operand.filter (· ∉ ['"', '\'', '<', '>']) = name.toList := by
    simpa [operand] using hdelimiters
  refine ⟨"#include".toList, operand, [], ?_, by decide, ?_, upper_ne_empty h.ne_empty⟩
  · rw [hline, words_append_blank (by rfl), hwords]
    rfl
  · rw [hname, String.ofList_toList]

end

variable {fileName : String} {content : List Char}

/-- A text that includes a file of its own base name provides it. -/
theorem mem_provides_of_own_base {base extension own : String} {line : List Char}
    (hbase : IsPlain base) (hextension : IsPlainExtension extension) (hown : IsPlainExtension own)
    (hname : fileName = base ++ "." ++ own) (hline : line ∈ lines content)
    (hcase : line.map Char.toLower =
      ("#include \"" ++ base ++ "." ++ extension ++ "\"").toList.map Char.toLower) :
    upper (base ++ "." ++ extension) ∈ (ofText .includes fileName content).provides := by
  have hinclude : IncludeLine line (upper (base ++ "." ++ extension)) := by
    have hquoted := includeLine_quoted (hbase.append_dot hextension.toIsPlain)
    rw [← @mem_requires_ofLine "", ← ofLine_map_toLower] at hquoted ⊢
    rw [hcase]
    simpa [String.append_assoc] using hquoted
  rw [mem_provides_ofText, hname, stem?_append_dot hbase hown, Option.getD_some,
    withoutExtension_eq_iff]
  exact ⟨⟨line, hline, hinclude⟩, isBareName_upper hbase hextension⟩

/-- A text requires the names on its include lines, each once and in line order. In the same order
it provides those that are the stem of its file without their extension. All are in upper case, and
a provided one has no directories. A file that includes another one of its base name in any ASCII
case provides it. -/
theorem ofText_includes_exact (fileName : String) (content : List Char) :
    InLineOrder IncludeLine (lines content) (ofText .includes fileName content).requires ∧
    (ofText .includes fileName content).provides.Sublist
      (ofText .includes fileName content).requires ∧
    (∀ name, name ∈ (ofText .includes fileName content).provides ↔
      name ∈ (ofText .includes fileName content).requires ∧
        IsBareName name (upper ((Path.stem? fileName).getD ""))) ∧
    (∀ name ∈ (ofText .includes fileName content).provides, '/' ∉ name.toList) ∧
    (∀ name ∈ (ofText .includes fileName content).requires, upper name = name) ∧
    ∀ base extension own line, IsPlain base → IsPlainExtension extension → IsPlainExtension own →
      fileName = base ++ "." ++ own → line ∈ lines content →
      line.map Char.toLower =
        ("#include \"" ++ base ++ "." ++ extension ++ "\"").toList.map Char.toLower →
      upper (base ++ "." ++ extension) ∈ (ofText .includes fileName content).provides := by
  have hrequires : InLineOrder IncludeLine (lines content)
      (ofText .includes fileName content).requires :=
    inLineOrder_requires fun _ _ => mem_requires_ofLine
  have hmem : ∀ name, name ∈ (ofText .includes fileName content).provides ↔
      name ∈ (ofText .includes fileName content).requires ∧
        IsBareName name (upper ((Path.stem? fileName).getD "")) := by
    intro name
    rw [provides_ofText_includes, List.mem_filter, decide_eq_true_eq, withoutExtension_eq_iff]
  refine ⟨hrequires, ?_, hmem, ?_, ?_, ?_⟩
  · rw [provides_ofText_includes]
    exact List.filter_sublist
  · intro name hname
    obtain ⟨hname, hbare⟩ := (hmem name).mp hname
    obtain ⟨line, -, hline⟩ := (hrequires.mem_iff name).mp hname
    rw [← withoutExtension_eq_iff, withoutExtension_eq_stem_iff hline.ne_empty] at hbare
    exact not_mem_of_upperStem? hbare
  · intro name hname
    obtain ⟨line, -, hline⟩ := (hrequires.mem_iff name).mp hname
    exact hline.upper_eq
  · intro base extension own line hbase hextension hown
    exact mem_provides_of_own_base hbase hextension hown

/-- Upper case makes the base name longer, on both sides. -/
theorem ofText_includes_exact_sharp_s :
    let content := "#INCLUDE \"ß.Tar.H\"".toList
    IsPlain "ß.tar" ∧ IsPlainExtension "h" ∧ IsPlainExtension "c" ∧ lines content = [content] ∧
      "SS.TAR.H" ∈ (ofText .includes "ß.tar.c" content).provides := by
  intro content
  have hbase : IsPlain "ß.tar" := by decide +kernel
  have hextension : IsPlainExtension "h" := by decide +kernel
  have hown : IsPlainExtension "c" := by decide +kernel
  have hlines : lines content = [content] := by decide +kernel
  have hupper : upper ("ß.tar" ++ "." ++ "h") = "SS.TAR.H" := by decide +kernel
  refine ⟨hbase, hextension, hown, hlines, ?_⟩
  rw [← hupper]
  exact (ofText_includes_exact "ß.tar.c" content).2.2.2.2.2 "ß.tar" "h" "c" content hbase hextension
    hown (by decide) (by simp [hlines]) (by decide +kernel)

end Symbols
end BuildOrder
