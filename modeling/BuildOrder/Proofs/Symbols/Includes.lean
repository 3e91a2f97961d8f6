import Mathlib.Data.List.TakeWhile
import BuildOrder.Proofs.Path
import BuildOrder.Proofs.Symbols.Lines

/-! The symbols of the include dialect: a text requires the names that it includes, and provides
those of them that have the stem of its file. -/
namespace BuildOrder
open Text

/-- A line that includes a name, which is in upper case and without its delimiters. -/
def IncludeLine (line : List Char) (name : String) : Prop :=
  ∃ directive operand rest, words line = directive :: operand :: rest ∧
    eqIgnoringAsciiCase (String.ofList directive) "#include" = true ∧
    upper (String.ofList (operand.filter (· ∉ ['"', '\'', '<', '>']))) = name ∧ name ≠ ""

theorem IncludeLine.upper_eq {line : List Char} {name : String} (h : IncludeLine line name) :
    upper name = name := by
  obtain ⟨-, operand, -, -, -, rfl, -⟩ := h
  rw [upper_upper]

theorem IncludeLine.ne_empty {line : List Char} {name : String} (h : IncludeLine line name) :
    name ≠ "" := by
  obtain ⟨-, -, -, -, -, -, hname⟩ := h
  exact hname

/-- The stem of a path in upper case; a path that names no file has none. -/
def upperStem? (path : String) : Option String :=
  (Path.stem? path).map upper

/-- Components of an include name end at a slash or at a backslash. -/
def IsSeparator (c : Char) : Prop :=
  c = '/' ∨ c = '\\'

instance : DecidablePred IsSeparator :=
  fun _ => inferInstanceAs (Decidable (_ ∨ _))

/-- An include name and what is left of it without the extension of its last component. -/
def IsBareName (name bare : String) : Prop :=
  ∃ directories component stem, name.toList = directories ++ component ∧
    bare.toList = directories ++ stem ∧ Path.IsStem component stem ∧
    (∀ c ∈ directories.getLast?, IsSeparator c) ∧ ∀ c ∈ component, ¬IsSeparator c

namespace Symbols

/-- The last component goes as far back as there is no separator. -/
theorem withoutExtension_eq (name : String) : withoutExtension name = String.ofList
    ((name.toList.reverse.dropWhile (¬IsSeparator ·)).reverse ++
      (Path.splitExtension (name.toList.reverse.takeWhile (¬IsSeparator ·)).reverse).1) :=
  rfl

theorem isBareName_withoutExtension (name : String) : IsBareName name (withoutExtension name) := by
  refine ⟨(name.toList.reverse.dropWhile (¬IsSeparator ·)).reverse,
    (name.toList.reverse.takeWhile (¬IsSeparator ·)).reverse, _, ?_,
    by rw [withoutExtension_eq, String.toList_ofList], Path.isStem_splitExtension _, ?_, ?_⟩
  · rw [← List.reverse_append, List.takeWhile_append_dropWhile, List.reverse_reverse]
  · intro c hc
    have hhead := List.head?_dropWhile_not (¬IsSeparator ·) name.toList.reverse
    rw [← List.getLast?_reverse, hc] at hhead
    simpa using hhead
  · intro c hc
    simpa using List.mem_takeWhile_imp (List.mem_reverse.mp hc)

theorem withoutExtension_eq_iff {name bare : String} :
    withoutExtension name = bare ↔ IsBareName name bare := by
  constructor
  · rintro rfl
    exact isBareName_withoutExtension name
  · rintro ⟨directories, component, stem, hname, hbare, hstem, hlast, hcomponent⟩
    have hplain : ∀ c ∈ component.reverse, decide (¬IsSeparator c) = true := fun c hc =>
      decide_eq_true (hcomponent c (List.mem_reverse.mp hc))
    have hboundary : ∀ c ∈ directories.reverse.head?, decide (¬IsSeparator c) = false := by
      rw [List.head?_reverse]
      exact fun c hc => decide_eq_false (not_not_intro (hlast c hc))
    obtain ⟨htake, hdrop⟩ := takeWhile_dropWhile_append hplain hboundary
    rw [← String.toList_inj, withoutExtension_eq, hname, List.reverse_append, htake, hdrop,
      List.reverse_reverse, List.reverse_reverse, Path.splitExtension_eq_iff.mpr hstem,
      String.toList_ofList, hbare]

theorem withoutExtension_ne_empty {name : String} (hname : name ≠ "") :
    withoutExtension name ≠ "" := by
  obtain ⟨directories, component, stem, hcut, hbare, hstem, -⟩ := isBareName_withoutExtension name
  intro hempty
  rw [hempty, String.toList_empty, eq_comm, List.append_eq_nil_iff] at hbare
  obtain ⟨rfl, rfl⟩ := hbare
  refine hstem.ne_nil ?_ rfl
  rintro rfl
  exact hname (String.toList_eq_nil_iff.mp hcut)

/-- The directories of a name are kept. -/
theorem slash_mem_withoutExtension {name : String} (hslash : '/' ∈ name.toList) :
    '/' ∈ (withoutExtension name).toList := by
  obtain ⟨directories, component, stem, hcut, hbare, -, -, hcomponent⟩ :=
    isBareName_withoutExtension name
  rw [hcut, List.mem_append] at hslash
  rw [hbare]
  refine List.mem_append_left _ (hslash.resolve_right fun hmem => ?_)
  exact hcomponent '/' hmem (.inl rfl)

theorem upperStem?_eq_withoutExtension_iff {path name : String} :
    upperStem? path = some (withoutExtension name) ↔
      ∃ stem, upperStem? path = some stem ∧ IsBareName name stem := by
  simp only [← withoutExtension_eq_iff, exists_eq_right']

/-- A stem is not a name with directories, in whatever case. -/
theorem not_mem_of_upperStem? {path name : String}
    (hstem : upperStem? path = some (withoutExtension name)) : '/' ∉ name.toList := by
  obtain ⟨stem, hpath, hupper⟩ := Option.map_eq_some_iff.mp hstem
  intro hslash
  have hmem := slash_mem_withoutExtension hslash
  rw [← hupper] at hmem
  exact Path.not_mem_of_stem? hpath (slash_mem_upper_iff.mp hmem)

theorem withoutExtension_eq_stem_iff {path name : String} (hname : name ≠ "") :
    withoutExtension name = upper ((Path.stem? path).getD "") ↔
      upperStem? path = some (withoutExtension name) := by
  rw [upperStem?]
  cases Path.stem? path with
  | none => simpa [upper] using withoutExtension_ne_empty hname
  | some stem => simp [eq_comm]

section

variable {stem name : String} {line : List Char}

theorem includeName_ofList (operand : List Char) : includeName (String.ofList operand) =
    upper (String.ofList (operand.filter (· ∉ ['"', '\'', '<', '>']))) := by
  rw [includeName, String.toList_ofList]

theorem includeLine_iff : IncludeLine line name ↔ ∃ operand,
    LeadsWith "#include" line operand ∧ includeName (String.ofList operand) = name ∧ name ≠ "" := by
  simp only [includeName_ofList]
  constructor
  · rintro ⟨directive, operand, rest, hwords, hdirective, hname⟩
    exact ⟨operand, ⟨directive, rest, hwords, hdirective⟩, hname⟩
  · rintro ⟨operand, ⟨directive, rest, hwords, hdirective⟩, hname⟩
    exact ⟨directive, operand, rest, hwords, hdirective, hname⟩

theorem mem_requires_ofDirective {directive operand : String} :
    name ∈ (ofDirective stem directive operand).requires ↔
      eqIgnoringAsciiCase directive "#include" = true ∧ includeName operand = name ∧ name ≠ "" := by
  dsimp only [ofDirective]
  split
  next h =>
    rw [List.mem_singleton]
    constructor
    · rintro rfl
      exact ⟨h.1, rfl, h.2⟩
    · exact fun ⟨_, hname, _⟩ => hname.symm
  next h =>
    simp only [List.not_mem_nil, false_iff]
    rintro ⟨hdirective, rfl, hne⟩
    exact h ⟨hdirective, hne⟩

theorem mem_requires_ofLine :
    name ∈ (ofLine .includes stem line).requires ↔ IncludeLine line name := by
  unfold ofLine
  split
  next directive operand rest hwords =>
    simp only [includeLine_iff, leadsWith_iff hwords, mem_requires_ofDirective]
    simp
  next hwords => simp [includeLine_iff, not_leadsWith hwords]

/-- A line provides what it requires, if that has the stem of the file. -/
theorem provides_ofLine_includes (stem : String) (line : List Char) :
    (ofLine .includes stem line).provides =
      (ofLine .includes stem line).requires.filter (withoutExtension · = stem) := by
  unfold ofLine
  split
  next directive operand rest hwords =>
    simp only [ofDirective]
    split_ifs with h hstem
    · simp [hstem]
    · simp [hstem]
    · rfl
  next => rfl

end

section

variable {fileName name : String} {content : List Char}

theorem mem_requires_ofText : name ∈ (ofText .includes fileName content).requires ↔
    ∃ line ∈ lines content, IncludeLine line name := by
  simp only [ofText, mem_requires_collect, List.mem_map, exists_exists_and_eq_and,
    mem_requires_ofLine]

/-- Names are provided in the order in which they are required. -/
theorem provides_ofText_includes : (ofText .includes fileName content).provides =
    (ofText .includes fileName content).requires.filter
      (withoutExtension · = upper ((Path.stem? fileName).getD "")) := by
  rw [provides_ofText, requires_ofText, ← eraseDups_filter, List.filter_flatMap]
  simp only [provides_ofLine_includes]

theorem mem_provides_ofText : name ∈ (ofText .includes fileName content).provides ↔
    (∃ line ∈ lines content, IncludeLine line name) ∧
      withoutExtension name = upper ((Path.stem? fileName).getD "") := by
  rw [provides_ofText_includes, List.mem_filter, mem_requires_ofText, decide_eq_true_eq]

end

end Symbols
end BuildOrder
