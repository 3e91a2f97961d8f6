import Mathlib.Data.List.Induction
import Mathlib.Data.List.Nodup

/-! Lists where each element, or each key, occurs once. -/
namespace BuildOrder

theorem nodup_append_singleton {α : Type} {xs : List α} {x : α} (hxs : xs.Nodup) (hx : x ∉ xs) :
    (xs ++ [x]).Nodup := by
  rw [← List.concat_eq_append]
  exact .concat hx hxs

theorem eraseDups_append_singleton {α : Type} [DecidableEq α] (xs : List α) (x : α) :
    (xs ++ [x]).eraseDups = xs.eraseDups ++ if x ∈ xs then [] else [x] := by
  rw [List.eraseDups_append]
  by_cases hx : x ∈ xs
  · simp [List.removeAll, hx]
  · simp [List.removeAll, hx, List.eraseDups_cons]

theorem eraseDups_eq_nil_iff {α : Type} [DecidableEq α] {xs : List α} :
    xs.eraseDups = [] ↔ xs = [] := by
  simp only [List.eq_nil_iff_forall_not_mem, List.mem_eraseDups]

theorem nodup_eraseDups {α : Type} [DecidableEq α] (xs : List α) : xs.eraseDups.Nodup := by
  induction xs using List.reverseRecOn with
  | nil => exact List.nodup_nil
  | append_singleton xs x ih =>
    rw [eraseDups_append_singleton]
    split_ifs with hx
    · rwa [List.append_nil]
    · exact nodup_append_singleton ih (by rwa [List.mem_eraseDups])

theorem eraseDups_of_nodup {α : Type} [DecidableEq α] {xs : List α} (hn : xs.Nodup) :
    xs.eraseDups = xs := by
  induction xs using List.reverseRecOn with
  | nil => rfl
  | append_singleton xs x ih =>
    obtain ⟨hxs, -, hx⟩ := List.nodup_append.mp hn
    have hx : x ∉ xs := fun hmem => hx x hmem x (List.mem_singleton_self x) rfl
    rw [eraseDups_append_singleton, ih hxs, if_neg hx]

theorem perm_eraseDups {α : Type} [DecidableEq α] {xs ys : List α} (h : ∀ x, x ∈ xs ↔ x ∈ ys) :
    xs.eraseDups.Perm ys.eraseDups := by
  rw [List.perm_ext_iff_of_nodup (nodup_eraseDups xs) (nodup_eraseDups ys)]
  intro x
  rw [List.mem_eraseDups, List.mem_eraseDups, h]

theorem eraseDups_filter {α : Type} [DecidableEq α] (p : α → Bool) (xs : List α) :
    (xs.filter p).eraseDups = xs.eraseDups.filter p := by
  induction xs using List.reverseRecOn with
  | nil => rfl
  | append_singleton xs x ih =>
    rw [eraseDups_append_singleton, List.filter_append, List.filter_append, ← ih]
    by_cases hx : p x = true
    · rw [List.filter_cons_of_pos hx, List.filter_nil, eraseDups_append_singleton]
      simp only [List.mem_filter, hx, and_true]
      split_ifs
      · rfl
      · rw [List.filter_cons_of_pos hx, List.filter_nil]
    · rw [List.filter_cons_of_neg hx, List.filter_nil, List.append_nil]
      split_ifs
      · rw [List.filter_nil, List.append_nil]
      · rw [List.filter_cons_of_neg hx, List.filter_nil, List.append_nil]

/-- Parts without repetitions have nothing in common if each element tells its part. -/
theorem nodup_flatMap_of_key {α β : Type} {xs : List α} {f : α → List β} (key : β → α)
    (hkey : ∀ x, ∀ y ∈ f x, key y = x) (hn : xs.Nodup) (hf : ∀ x ∈ xs, (f x).Nodup) :
    (xs.flatMap f).Nodup := by
  rw [List.nodup_flatMap]
  refine ⟨hf, hn.imp fun {a b} hne => List.disjoint_left.mpr fun y ha hb => ?_⟩
  exact hne ((hkey a y ha).symm.trans (hkey b y hb))

/-- Repetitions may be left out part by part first. -/
theorem eraseDups_flatMap_eraseDups {α β : Type} [DecidableEq β] (f : α → List β) (xs : List α) :
    (xs.flatMap fun x => (f x).eraseDups).eraseDups = (xs.flatMap f).eraseDups := by
  induction xs with
  | nil => rfl
  | cons x xs ih =>
    have hrest : ((xs.flatMap fun x => (f x).eraseDups).removeAll (f x).eraseDups).eraseDups =
        ((xs.flatMap f).removeAll (f x)).eraseDups := by
      rw [List.removeAll, List.removeAll, eraseDups_filter, eraseDups_filter, ih]
      simp
    rw [List.flatMap_cons, List.flatMap_cons, List.eraseDups_append, List.eraseDups_append, hrest,
      eraseDups_of_nodup (nodup_eraseDups (f x))]

theorem filterMap_ite_eq {α β : Type} [DecidableEq α] {xs : List α} (hn : xs.Nodup) (a : α)
    (b : Option β) : (xs.filterMap fun x => if x = a then b else none) =
      if a ∈ xs then b.toList else [] := by
  have hfilter : (xs.filterMap fun x => if x = a then b else none) =
      (xs.filter (· = a)).filterMap fun _ => b := by
    simp [List.filterMap_filter]
  rw [hfilter, List.filter_eq, hn.count]
  split
  · cases b <;> rfl
  · rfl

/-- Repetitions may be left out before or after a renaming. -/
theorem eraseDups_map {α β : Type} [DecidableEq α] [DecidableEq β] {f : α → β} {xs : List α}
    (hf : ∀ x ∈ xs, ∀ y ∈ xs, f x = f y → x = y) : (xs.map f).eraseDups = xs.eraseDups.map f := by
  induction xs using List.reverseRecOn with
  | nil => rfl
  | append_singleton xs x ih =>
    have hmem : f x ∈ xs.map f ↔ x ∈ xs := by
      constructor
      · intro hfx
        obtain ⟨y, hy, hyx⟩ := List.mem_map.mp hfx
        rwa [← hf y (by simp [hy]) x (by simp) hyx]
      · exact List.mem_map_of_mem
    have hxs : ∀ y ∈ xs, ∀ z ∈ xs, f y = f z → y = z := fun y hy z hz =>
      hf y (by simp [hy]) z (by simp [hz])
    rw [List.map_append, List.map_singleton, eraseDups_append_singleton, ih hxs,
      eraseDups_append_singleton, List.map_append]
    simp only [hmem]
    split_ifs <;> rfl

/-- Positions grow along a list without repetitions. -/
theorem pairwise_idxOf {α : Type} [DecidableEq α] {xs : List α} (hn : xs.Nodup) :
    xs.Pairwise fun x y => xs.idxOf x < xs.idxOf y := by
  rw [List.pairwise_iff_getElem]
  intro i j hi hj hij
  rwa [hn.idxOf_getElem i hi, hn.idxOf_getElem j hj]

/-- A part of a list has its elements in the same order. -/
theorem idxOf_le_idxOf_iff {α : Type} [DecidableEq α] {xs part : List α} (hpart : part.Sublist xs)
    (hn : xs.Nodup) {x y : α} (hx : x ∈ part) (hy : y ∈ part) :
    part.idxOf x ≤ part.idxOf y ↔ xs.idxOf x ≤ xs.idxOf y := by
  have hlt : ∀ x ∈ part, ∀ y ∈ part, part.idxOf x < part.idxOf y → xs.idxOf x < xs.idxOf y := by
    intro x hx y hy hxy
    have hpair := List.pairwise_iff_getElem.mp ((pairwise_idxOf hn).sublist hpart)
    simpa using hpair _ _ (List.idxOf_lt_length_of_mem hx) (List.idxOf_lt_length_of_mem hy) hxy
  constructor
  · intro hle
    rcases Nat.lt_or_eq_of_le hle with hxy | hxy
    · exact Nat.le_of_lt (hlt x hx y hy hxy)
    · exact Nat.le_of_eq (by rw [(List.idxOf_inj hx).mp hxy])
  · intro hle
    by_contra hyx
    exact absurd (hlt y hy x hx (Nat.not_le.mp hyx)) (Nat.not_lt.mpr hle)

/-- A renaming that keeps `a` apart from the other elements keeps its position. -/
theorem idxOf_map {α β : Type} [DecidableEq α] [DecidableEq β] {f : α → β} {xs : List α} {a : α}
    (hf : ∀ x ∈ xs, f x = f a → x = a) : (xs.map f).idxOf (f a) = xs.idxOf a := by
  induction xs with
  | nil => rfl
  | cons x xs ih =>
    have ih := ih fun y hy => hf y (List.mem_cons_of_mem x hy)
    by_cases hx : x = a
    · simp [hx]
    · have hfx : f x ≠ f a := fun heq => hx (hf x (by simp) heq)
      rw [List.map_cons, List.idxOf_cons_ne _ hfx, List.idxOf_cons_ne _ hx, ih]

theorem lookup_eq_some_of_mem {α β : Type} [DecidableEq α] {xs : List (α × β)}
    (hn : (xs.map (·.1)).Nodup) {a : α} {b : β} (hmem : (a, b) ∈ xs) : xs.lookup a = some b := by
  induction xs with
  | nil => cases hmem
  | cons x xs ih =>
    obtain ⟨hx, hxs⟩ := List.nodup_cons.mp hn
    rcases List.mem_cons.mp hmem with rfl | hmem
    · simp
    · have hne : a ≠ x.1 := by
        rintro rfl
        exact hx (List.mem_map.mpr ⟨(x.1, b), hmem, rfl⟩)
      rw [List.lookup_cons, beq_false_of_ne hne]
      exact ih hxs hmem

end BuildOrder
