import BuildOrder.Proofs.Order.UniqueProviders
import BuildOrder.Proofs.Symbols.Includes

/-! What the include dialect means: one file requires another exactly where both include the header
of the other. -/
namespace BuildOrder
open Linker Symbols

/-- Whether a file can be read and has a line that includes a name. -/
def FileSystem.Includes (fs : FileSystem) (path name : String) : Prop :=
  ∃ text, fs.readText path = .ok text ∧ ∃ line ∈ Text.lines text, IncludeLine line name

/-- No two different ones of the paths have the same upper-case stem. -/
def DistinctStems (paths : List String) : Prop :=
  ∀ a ∈ paths, ∀ b ∈ paths, upperStem? a ≠ none → upperStem? a = upperStem? b → a = b

instance (paths : List String) : Decidable (DistinctStems paths) :=
  inferInstanceAs (Decidable (∀ a ∈ paths, _))

section

variable {fs : FileSystem} {path name : String}

theorem FileSystem.Includes.upper_eq (h : fs.Includes path name) : Text.upper name = name := by
  obtain ⟨text, -, line, -, hline⟩ := h
  exact hline.upper_eq

theorem FileSystem.Includes.ne_empty (h : fs.Includes path name) : name ≠ "" := by
  obtain ⟨text, -, line, -, hline⟩ := h
  exact hline.ne_empty

theorem mem_requires_ofFileOrNone :
    name ∈ (ofFileOrNone fs .includes path).requires ↔ fs.Includes path name := by
  rw [ofFileOrNone, ofFile, FileSystem.Includes]
  cases fs.readText path with
  | error e => simp [Except.map, Except.toOption]
  | ok text => simp [Except.map, Except.toOption, mem_requires_ofText]

theorem mem_provides_ofFileOrNone : name ∈ (ofFileOrNone fs .includes path).provides ↔
    fs.Includes path name ∧ upperStem? path = some (withoutExtension name) := by
  have hstem : fs.Includes path name → (withoutExtension name =
      Text.upper ((Path.stem? ((Path.fileName? path).getD "")).getD "") ↔
        upperStem? path = some (withoutExtension name)) := fun h => by
    rw [Path.stem?_fileName, withoutExtension_eq_stem_iff h.ne_empty]
  rw [← and_congr_right_iff.mpr hstem, ofFileOrNone, ofFile, FileSystem.Includes]
  cases fs.readText path with
  | error e => simp [Except.map, Except.toOption]
  | ok text => simp [Except.map, Except.toOption, mem_provides_ofText]

theorem offers_ofFileOrNone_iff (hname : Text.upper name = name) :
    offers (ofFileOrNone fs .includes path) name = true ↔
      fs.Includes path name ∧ upperStem? path = some (withoutExtension name) := by
  rw [offers_iff, hname, ← mem_provides_ofFileOrNone]
  constructor
  · rintro ⟨symbol, hsymbol, rfl⟩
    rwa [(mem_provides_ofFileOrNone.mp hsymbol).1.upper_eq]
  · exact fun h => ⟨name, h, hname⟩

end

variable {fs : FileSystem} {paths : List String}

/-- Files with different stems provide different names. -/
theorem DistinctStems.uniqueProviders (hd : DistinctStems paths) :
    UniqueProviders fs .includes paths := by
  intro a ha b hb s hs t ht heq
  obtain ⟨hsa, hstem⟩ := mem_provides_ofFileOrNone.mp hs
  obtain ⟨htb, hstem'⟩ := mem_provides_ofFileOrNone.mp ht
  rw [hsa.upper_eq, htb.upper_eq] at heq
  subst heq
  exact hd a ha b hb (by simp [hstem]) (hstem.trans hstem'.symm)

/-- Names with a slash lead nowhere. -/
theorem DistinctStems.lastProvider?_eq_none (hd : DistinctStems paths) {name : String}
    (hslash : '/' ∈ name.toList) : lastProvider? (filesOf fs .includes paths) name = none := by
  refine Option.eq_none_iff_forall_ne_some.mpr fun path hlast => ?_
  obtain ⟨-, hoffers⟩ := hd.uniqueProviders.lastProvider?_eq_some_iff.mp hlast
  obtain ⟨symbol, hsymbol, heq⟩ := offers_iff.mp hoffers
  have hclear := not_mem_of_upperStem? (mem_provides_ofFileOrNone.mp hsymbol).2
  rw [← Text.slash_mem_upper_iff, ← heq, Text.slash_mem_upper_iff] at hslash
  exact hclear hslash

/-- A file requires another one exactly if both include a name with the stem of the other. Names
with a slash lead nowhere. -/
theorem ofFiles_of_distinctStems (hd : DistinctStems paths) :
    (∀ symbol previous path,
      .duplicateProvider symbol previous path ∉ (Analysis.ofFiles fs .includes paths).warnings) ∧
    (∀ a b, (a, b) ∈ (Analysis.ofFiles fs .includes paths).graph.edges ↔
      a ∈ paths ∧ b ∈ paths ∧ a ≠ b ∧ ∃ name, fs.Includes a name ∧ fs.Includes b name ∧
        ∃ stem, upperStem? b = some stem ∧ IsBareName name stem) ∧
    ∀ name, '/' ∈ name.toList →
      (∀ path stem, upperStem? path = some stem → ¬IsBareName name stem) ∧
      lastProvider? (filesOf fs .includes paths) name = none := by
  simp only [← upperStem?_eq_withoutExtension_iff]
  have hu : UniqueProviders fs .includes paths := hd.uniqueProviders
  refine ⟨hu.duplicateProvider_not_mem, ?_, ?_⟩
  · intro a b
    rw [Graph.mem_edges_iff wellFormed_ofFiles]
    by_cases ha : a ∈ paths
    · rw [prerequisites_ofFiles ha, List.mem_eraseDups, mem_providers]
      simp only [hu.lastProvider?_eq_some_iff, mem_requires_ofFileOrNone]
      constructor
      · rintro ⟨hne, name, hname, hb, hoffers⟩
        exact ⟨ha, hb, hne.symm, name, hname, (offers_ofFileOrNone_iff hname.upper_eq).mp hoffers⟩
      · rintro ⟨-, hb, hne, name, hname, hprovided⟩
        exact ⟨hne.symm, name, hname, hb,
          (offers_ofFileOrNone_iff hname.upper_eq).mpr hprovided⟩
    · simp [prerequisites_ofFiles_of_not_mem ha, ha]
  · intro name hslash
    refine ⟨?_, hd.lastProvider?_eq_none hslash⟩
    intro path stem hstem hbare
    have hname := upperStem?_eq_withoutExtension_iff.mpr ⟨stem, hstem, hbare⟩
    exact not_mem_of_upperStem? hname hslash

theorem ofFiles_of_distinctStems_time :
    let fs := FileSystem.ofTexts [("time.c", "#include <sys/time.h>\n#include \"time.h\""),
      ("util.c", "#INCLUDE \"Time.h\""), ("main.c", "#include <sys/time.h>")]
    let paths := ["time.c", "util.c", "main.c"]
    DistinctStems paths ∧
    (∀ symbol previous path,
      .duplicateProvider symbol previous path ∉ (Analysis.ofFiles fs .includes paths).warnings) ∧
    (∃ name, fs.Includes "util.c" name ∧ fs.Includes "time.c" name ∧
      ∃ stem, upperStem? "time.c" = some stem ∧ IsBareName name stem) ∧
    lastProvider? (filesOf fs .includes paths) "SYS/TIME.H" = none := by
  intro fs paths
  have hd : DistinctStems paths := by decide +kernel
  have h := @ofFiles_of_distinctStems fs paths hd
  have hedge : ("util.c", "time.c") ∈ (Analysis.ofFiles fs .includes paths).graph.edges := by
    decide +kernel
  exact ⟨hd, h.1, ((h.2.1 _ _).mp hedge).2.2.2, (h.2.2 _ (by decide)).2⟩

end BuildOrder
