import BuildOrder.Proofs.Discovery.Sources
import BuildOrder.Proofs.Order.Mixed
import BuildOrder.Proofs.Text.Lower

/-! The dialect of a path by its extension. The case of the extension does not matter, and of an
entry only the case of its ASCII letters does not: an entry with another capital letter lists no
extension at all. -/
namespace BuildOrder
open Text

/-- Whether lower case changes only ASCII letters of a text. -/
def AsciiCapitals (s : String) : Prop :=
  (lower s).toList = s.toList.map Char.toLower

instance (s : String) : Decidable (AsciiCapitals s) :=
  inferInstanceAs (Decidable (_ = _))

/-- Entries list an extension in any case if one of them is the extension in lower case, up to its
ASCII capitals. -/
def Lists (entries : List String) (extension : String) : Prop :=
  ∃ entry ∈ entries, lower entry = lower extension ∧ AsciiCapitals entry

theorem lower_eq_of_toLower_eq {s t : String}
    (h : s.toList.map Char.toLower = t.toList.map Char.toLower) : lower s = lower t := by
  have hs := lower_map_toLower s.toList
  rw [h, lower_map_toLower, String.ofList_toList, String.ofList_toList] at hs
  exact hs.symm

theorem eqIgnoringAsciiCase_lower_iff {entry extension : String} :
    eqIgnoringAsciiCase entry (lower extension) = true ↔
      lower entry = lower extension ∧ AsciiCapitals entry := by
  rw [eqIgnoringAsciiCase, beq_iff_eq]
  constructor
  · intro h
    have hlower : lower entry = lower extension :=
      (lower_eq_of_toLower_eq h).trans (lower_lower extension)
    refine ⟨hlower, ?_⟩
    rw [AsciiCapitals, h, hlower, map_toLower_lower]
  · rintro ⟨hlower, hcapitals⟩
    rw [← hcapitals, hlower, map_toLower_lower]

theorem any_eqIgnoringAsciiCase_iff {entries : List String} {extension : String} :
    entries.any (eqIgnoringAsciiCase · (lower extension)) = true ↔ Lists entries extension := by
  simp only [List.any_eq_true, eqIgnoringAsciiCase_lower_iff, Lists]

section

variable {extensions : Extensions} {path extension : String}

theorem ofPath?_cases (extensions : Extensions)
    (hpath : Path.extension? path = some extension) :
    (Lists extensions.modules extension ∧ Dialect.ofPath? extensions path = some .modules) ∨
    (¬Lists extensions.modules extension ∧ Lists extensions.includes extension ∧
      Dialect.ofPath? extensions path = some .includes) ∨
    (¬Lists extensions.modules extension ∧ ¬Lists extensions.includes extension ∧
      Dialect.ofPath? extensions path = none) := by
  simp only [← any_eqIgnoringAsciiCase_iff, Dialect.ofPath?, hpath, Option.bind_some]
  by_cases hmodules : extensions.modules.any (eqIgnoringAsciiCase · (lower extension)) = true
  · exact .inl ⟨hmodules, if_pos hmodules⟩
  rw [if_neg hmodules]
  by_cases hincludes : extensions.includes.any (eqIgnoringAsciiCase · (lower extension)) = true
  · exact .inr (.inl ⟨hmodules, hincludes, if_pos hincludes⟩)
  · exact .inr (.inr ⟨hmodules, hincludes, if_neg hincludes⟩)

theorem ofPath?_of_extension?_eq_none (hpath : Path.extension? path = none) :
    Dialect.ofPath? extensions path = none := by
  rw [Dialect.ofPath?, hpath]
  rfl

theorem ofPath?_eq_modules_iff : Dialect.ofPath? extensions path = some .modules ↔
    ∃ extension, Path.extension? path = some extension ∧ Lists extensions.modules extension := by
  cases hpath : Path.extension? path with
  | none => simp [ofPath?_of_extension?_eq_none hpath]
  | some extension =>
    rcases ofPath?_cases extensions hpath with
      ⟨hmodules, h⟩ | ⟨hmodules, -, h⟩ | ⟨hmodules, -, h⟩
    all_goals simp [h, hmodules]

theorem ofPath?_eq_includes_iff : Dialect.ofPath? extensions path = some .includes ↔
    ∃ extension, Path.extension? path = some extension ∧ ¬Lists extensions.modules extension ∧
      Lists extensions.includes extension := by
  cases hpath : Path.extension? path with
  | none => simp [ofPath?_of_extension?_eq_none hpath]
  | some extension =>
    rcases ofPath?_cases extensions hpath with
      ⟨hmodules, h⟩ | ⟨hmodules, hincludes, h⟩ | ⟨hmodules, hincludes, h⟩
    · simp [h, hmodules]
    · simp [h, hmodules, hincludes]
    · simp [h, hincludes]

theorem isSome_ofPath?_of_listed
    (hlisted : Lists (extensions.modules ++ extensions.includes) extension)
    (hpath : Path.extension? path = some extension) :
    (Dialect.ofPath? extensions path).isSome = true := by
  obtain ⟨entry, hentry, hlists⟩ := hlisted
  rcases ofPath?_cases extensions hpath with
    ⟨-, h⟩ | ⟨-, -, h⟩ | ⟨hmodules, hincludes, -⟩
  · rw [h, Option.isSome_some]
  · rw [h, Option.isSome_some]
  · rcases List.mem_append.mp hentry with hentry | hentry
    · exact absurd ⟨entry, hentry, hlists⟩ hmodules
    · exact absurd ⟨entry, hentry, hlists⟩ hincludes

theorem partition_ne_unknown (h : (Dialect.ofPath? extensions path).isSome = true)
    (paths : List String) : partition none extensions paths ≠ .error (.unknownDialect path) := by
  cases hunknown : firstUnknown? none extensions paths with
  | none =>
    rw [partition_of_known hunknown]
    exact nofun
  | some unknown =>
    rw [partition_of_unknown hunknown]
    intro heq
    cases heq
    have hnone := List.find?_some hunknown
    rw [dialectOf?, Option.none_or, Option.isNone_iff_eq_none] at hnone
    rw [hnone] at h
    cases h

end

/-- A path has the dialect whose entries list its extension in any case, the module dialect before
the include dialect. Where an entry with no capitals but ASCII ones is literally the extension of a
path, the path has a dialect: it is not refused, and a walk that comes upon it keeps it. -/
theorem ofPath?_by_extension (extensions : Extensions) (path : String) :
    (Dialect.ofPath? extensions path = some .modules ↔ ∃ extension,
      Path.extension? path = some extension ∧ Lists extensions.modules extension) ∧
    (Dialect.ofPath? extensions path = some .includes ↔ ∃ extension,
      Path.extension? path = some extension ∧ ¬Lists extensions.modules extension ∧
        Lists extensions.includes extension) ∧
    ∀ entry ∈ extensions.modules ++ extensions.includes, Path.extension? path = some entry →
      AsciiCapitals entry →
      (Dialect.ofPath? extensions path).isSome = true ∧
      (∀ paths, partition none extensions paths ≠ .error (.unknownDialect path)) ∧
      ∀ (walk : Walker) (root : String) (entries : List Found),
        walk root = entries.map .ok → ⟨path, some .file⟩ ∈ entries →
          ∃ files, Discovery.sources walk extensions root = .ok files ∧ path ∈ files := by
  refine ⟨ofPath?_eq_modules_iff, ofPath?_eq_includes_iff, ?_⟩
  intro entry hentry hpath hcapitals
  have hsome := isSome_ofPath?_of_listed ⟨entry, hentry, rfl, hcapitals⟩ hpath
  refine ⟨hsome, partition_ne_unknown hsome, ?_⟩
  intro walk root entries hwalk hfound
  refine ⟨_, Discovery.sources_eq_ok_iff.mpr ⟨entries, hwalk, rfl⟩, ?_⟩
  exact Discovery.mem_sourcesAmong.mpr
    ⟨_, hfound, rfl, rfl, Option.isSome_iff_exists.mp hsome⟩

/-- The small letter of the entry is no ASCII letter, the capital one is. -/
theorem ofPath?_by_extension_mixed :
    let extensions : Extensions := { modules := ["éF"] }
    Path.extension? "a.éF" = some "éF" ∧ AsciiCapitals "éF" ∧
      Dialect.ofPath? extensions "b.ÉF" = some .modules ∧
      partition none extensions ["a.éF"] ≠ .error (.unknownDialect "a.éF") := by
  intro extensions
  have hpath : Path.extension? "a.éF" = some "éF" := by decide +kernel
  have hcapitals : AsciiCapitals "éF" := by decide +kernel
  have hmixed : ∃ extension, Path.extension? "b.ÉF" = some extension ∧
      Lists extensions.modules extension :=
    ⟨"ÉF", by decide +kernel, "éF", List.mem_cons_self, by decide +kernel, hcapitals⟩
  exact ⟨hpath, hcapitals, (ofPath?_by_extension extensions "b.ÉF").1.mpr hmixed,
    ((ofPath?_by_extension extensions "a.éF").2.2 "éF" List.mem_cons_self hpath hcapitals).2.1 _⟩

/-- An entry with an accented capital letter lists nothing, not even the extension that it is. -/
theorem ofPath?_of_accented_capital :
    let extensions : Extensions := { modules := ["É"] }
    let found : Found := ⟨"./a.É", some .file⟩
    Path.extension? "a.É" = some "É" ∧ "É" ∈ extensions.modules ∧
      Dialect.ofPath? extensions "a.É" = none ∧
      partition none extensions ["a.É"] = .error (.unknownDialect "a.É") ∧
      Discovery.isSource extensions found = false ∧
      Discovery.sources (fun _ => [.ok found]) extensions "." = .ok [] := by
  decide +kernel

end BuildOrder
