import BuildOrder.Path
import BuildOrder.Proofs.Split

/-! Names and stems of paths: neither holds a slash, and the name of a file has the stem of its
path. -/
namespace BuildOrder.Path

theorem pieces_of_not_mem {name : String} (hname : '/' ∉ name.toList) : pieces name = [name] := by
  rw [pieces, List.splitOn_eq_singleton hname]
  simp

theorem not_mem_of_mem_components {path name : String} (hname : name ∈ components path) :
    '/' ∉ name.toList := by
  obtain ⟨part, hpart, rfl⟩ := List.mem_map.mp (List.mem_filter.mp hname).1
  rw [String.toList_ofList]
  exact not_mem_of_mem_splitOn hpart

theorem mem_components_of_fileName? {path name : String} (hname : fileName? path = some name) :
    name ∈ components path ∧ name ≠ ".." := by
  obtain ⟨hlast, hdots⟩ := Option.filter_eq_some_iff.mp hname
  exact ⟨List.mem_of_getLast? hlast, of_decide_eq_true hdots⟩

theorem fileName?_of_not_mem {name : String} (hslash : '/' ∉ name.toList)
    (hname : name ∉ ["", ".", ".."]) : fileName? name = some name := by
  simp only [List.mem_cons, List.not_mem_nil, or_false, not_or] at hname
  obtain ⟨hempty, hdot, hdots⟩ := hname
  simp [fileName?, components, pieces_of_not_mem hslash, hempty, hdot, hdots, Option.filter]

/-- A file name is its own file name. -/
theorem fileName?_of_fileName? {path name : String} (hname : fileName? path = some name) :
    fileName? name = some name := by
  obtain ⟨hmem, hdots⟩ := mem_components_of_fileName? hname
  have hsaying := (List.mem_filter.mp hmem).2
  rw [decide_eq_true_eq] at hsaying
  exact fileName?_of_not_mem (not_mem_of_mem_components hmem) (by simp [hsaying, hdots])

/-- The stem of a path can be read off its file name. -/
theorem stem?_fileName (path : String) : stem? ((fileName? path).getD "") = stem? path := by
  cases hname : fileName? path with
  | none =>
    rw [stem?, stem?, hname]
    rfl
  | some name => rw [stem?, stem?, Option.getD_some, fileName?_of_fileName? hname, hname]

/-- A name and its stem: what stands before its last dot, unless this dot is in front. -/
inductive IsStem : List Char → List Char → Prop
  | cut {stem extension : List Char} (hstem : stem ≠ []) (hextension : '.' ∉ extension) :
      IsStem (stem ++ '.' :: extension) stem
  | whole {name : List Char} (hname : '.' ∉ name.tail) : IsStem name name

theorem takeWhile_dropWhile_dot {xs : List Char} (hxs : '.' ∉ xs) (ys : List Char) :
    (xs.reverse ++ ys).takeWhile (· ≠ '.') = xs.reverse ++ ys.takeWhile (· ≠ '.') ∧
      (xs.reverse ++ ys).dropWhile (· ≠ '.') = ys.dropWhile (· ≠ '.') := by
  have hother : ∀ c ∈ xs.reverse, decide (c ≠ '.') = true := by
    intro c hc
    rw [decide_eq_true_eq]
    rintro rfl
    exact hxs (List.mem_reverse.mp hc)
  exact ⟨List.takeWhile_append_of_pos hother, List.dropWhile_append_of_pos hother⟩

theorem splitExtension_append_dot {stem extension : List Char} (hstem : stem ≠ [])
    (hextension : '.' ∉ extension) :
    splitExtension (stem ++ '.' :: extension) = (stem, some extension) := by
  obtain ⟨before, c, rfl⟩ := (List.eq_nil_or_concat stem).resolve_left hstem
  have hreverse : (before.concat c ++ '.' :: extension).reverse =
      extension.reverse ++ '.' :: c :: before.reverse := by
    simp
  obtain ⟨htake, hdrop⟩ := takeWhile_dropWhile_dot hextension ('.' :: c :: before.reverse)
  rw [splitExtension, hreverse, htake, hdrop]
  simp

theorem splitExtension_of_not_mem_tail {name : List Char} (hname : '.' ∉ name.tail) :
    splitExtension name = (name, none) := by
  cases name with
  | nil => rfl
  | cons c rest =>
    have hrest : '.' ∉ rest := hname
    obtain ⟨-, hdrop⟩ := takeWhile_dropWhile_dot hrest [c]
    rw [splitExtension, List.reverse_cons, hdrop]
    by_cases hc : c = '.'
    · simp [hc]
    · simp [hc]

theorem isStem_splitExtension (name : List Char) : IsStem name (splitExtension name).1 := by
  by_cases hname : '.' ∈ name.tail
  · obtain ⟨c, rest, rfl⟩ :=
      List.exists_cons_of_ne_nil (List.ne_nil_of_mem (List.mem_of_mem_tail hname))
    -- The first dot from the end.
    obtain ⟨extension, before, hrest, hextension⟩ :=
      List.eq_append_cons_of_mem (List.mem_reverse.mpr hname)
    rw [List.tail_cons, List.reverse_eq_iff] at hrest
    have hcut : c :: rest = (c :: before.reverse) ++ '.' :: extension.reverse := by
      simp [hrest]
    rw [← List.mem_reverse] at hextension
    rw [hcut, splitExtension_append_dot (List.cons_ne_nil _ _) hextension]
    exact .cut (List.cons_ne_nil _ _) hextension
  · rw [splitExtension_of_not_mem_tail hname]
    exact .whole hname

theorem splitExtension_eq_iff {name stem : List Char} :
    (splitExtension name).1 = stem ↔ IsStem name stem := by
  constructor
  · rintro rfl
    exact isStem_splitExtension name
  · intro h
    cases h with
    | cut hstem hextension => rw [splitExtension_append_dot hstem hextension]
    | whole hname => rw [splitExtension_of_not_mem_tail hname]

theorem IsStem.subset {name stem : List Char} (h : IsStem name stem) : stem ⊆ name := by
  cases h with
  | cut => exact List.subset_append_left _ _
  | whole => exact List.Subset.refl _

theorem IsStem.ne_nil {name stem : List Char} (h : IsStem name stem) (hname : name ≠ []) :
    stem ≠ [] := by
  cases h with
  | cut hstem => exact hstem
  | whole => exact hname

theorem not_mem_of_stem? {path stem : String} (hstem : stem? path = some stem) :
    '/' ∉ stem.toList := by
  obtain ⟨name, hname, rfl⟩ := Option.map_eq_some_iff.mp hstem
  rw [String.toList_ofList]
  intro hmem
  exact not_mem_of_mem_components (mem_components_of_fileName? hname).1
    ((splitExtension_eq_iff.mp rfl).subset hmem)

end BuildOrder.Path
