/-! Lists cut at separators. -/
namespace BuildOrder

section

variable {α : Type} {xs part : List α}

/-- No part holds a separator. -/
theorem of_mem_splitOnP {p : α → Bool} (hpart : part ∈ xs.splitOnP p) {x : α} (hx : x ∈ part) :
    p x = false := by
  induction xs generalizing part with
  | nil =>
    rw [List.splitOnP_nil, List.mem_singleton] at hpart
    subst hpart
    cases hx
  | cons y xs ih =>
    rw [List.splitOnP_cons_eq_if_modifyHead] at hpart
    split at hpart
    next =>
      rcases List.mem_cons.mp hpart with rfl | hpart
      · cases hx
      · exact ih hpart hx
    next hy =>
      obtain ⟨head, tail, hsplit⟩ := List.exists_cons_of_ne_nil (List.splitOnP_ne_nil p xs)
      rw [hsplit] at ih hpart
      rcases List.mem_cons.mp hpart with rfl | hpart
      · rcases List.mem_cons.mp hx with rfl | hx
        · exact Bool.eq_false_iff.mpr hy
        · exact ih List.mem_cons_self hx
      · exact ih (List.mem_cons_of_mem head hpart) hx

/-- A list cut where `p` first fails. -/
theorem takeWhile_dropWhile_append {p : α → Bool} {ys : List α} (hxs : ∀ x ∈ xs, p x = true)
    (hys : ∀ y ∈ ys.head?, p y = false) :
    (xs ++ ys).takeWhile p = xs ∧ (xs ++ ys).dropWhile p = ys := by
  rw [List.takeWhile_append_of_pos hxs, List.dropWhile_append_of_pos hxs]
  cases ys with
  | nil => simp
  | cons y ys => simp [hys y rfl]

variable [BEq α] [LawfulBEq α] {sep : α}

theorem not_mem_of_mem_splitOn (hpart : part ∈ xs.splitOn sep) : sep ∉ part := by
  intro hmem
  simpa using of_mem_splitOnP hpart hmem

/-- What is found in a list is what is found in its parts, if separators keep these apart. -/
theorem flatMap_splitOn {β : Type} {f : List α → List β}
    (hf : ∀ xs ys, f (xs ++ sep :: ys) = f xs ++ f ys) (xs : List α) :
    (xs.splitOn sep).flatMap f = f xs := by
  have hjoin : ∀ parts : List (List α), parts ≠ [] →
      parts.flatMap f = f ([sep].intercalate parts) := by
    intro parts hparts
    induction parts with
    | nil => exact absurd rfl hparts
    | cons part rest ih =>
      cases rest with
      | nil => simp
      | cons next rest =>
        rw [List.flatMap_cons, ih (List.cons_ne_nil next rest), List.intercalate_cons_cons, ← hf,
          List.append_assoc]
        rfl
  rw [hjoin _ (List.splitOn_ne_nil sep xs), List.intercalate_splitOn]

end

end BuildOrder
