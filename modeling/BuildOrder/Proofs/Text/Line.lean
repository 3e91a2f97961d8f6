import Mathlib.Data.List.Forall2
import BuildOrder.Proofs.Split
import BuildOrder.Text.Line

/-! Lines are the parts of a text between line feeds, but for a carriage return before one and for
nothing after the last. Words are the parts between blanks that are not empty. -/
namespace BuildOrder.Text

/-- Where nothing follows the last line feed, that part is no line. -/
theorem lines_splitOn (cs : List Char) : ∃ parts,
    (cs.splitOn '\n' = parts ∨ cs.splitOn '\n' = parts ++ [[]]) ∧
      List.Forall₂ (fun line part => part = line ∨ part = line ++ ['\r']) (lines cs) parts := by
  induction cs using lines.induct with
  | case1 => exact ⟨[], .inr rfl, .nil⟩
  | case2 rest ih =>
    obtain ⟨parts, hsplit, hlines⟩ := ih
    refine ⟨[] :: parts, ?_, .cons (.inl rfl) hlines⟩
    simpa [List.splitOn_cons_eq_if_modifyHead] using hsplit
  | case3 rest ih =>
    obtain ⟨parts, hsplit, hlines⟩ := ih
    refine ⟨['\r'] :: parts, ?_, .cons (.inr rfl) hlines⟩
    simpa [List.splitOn_cons_eq_if_modifyHead] using hsplit
  | case4 c rest hc hrest hnone ih =>
    obtain ⟨parts, hsplit, hlines⟩ := ih
    rw [hnone, List.forall₂_nil_left_iff] at hlines
    subst hlines
    have hempty : rest.splitOn '\n' = [[]] := hsplit.resolve_left (List.splitOn_ne_nil _ _)
    refine ⟨[[c]], .inl ?_, ?_⟩
    · simp [List.splitOn_cons_eq_if_modifyHead, hempty, show c ≠ '\n' from hc]
    · rw [lines.eq_4 c rest hc hrest, hnone]
      exact .cons (.inl rfl) .nil
  | case5 c rest hc hrest line more hsome ih =>
    obtain ⟨parts, hsplit, hlines⟩ := ih
    rw [hsome] at hlines
    obtain ⟨part, others, hpart, hothers, rfl⟩ := List.forall₂_cons_left_iff.mp hlines
    refine ⟨(c :: part) :: others, ?_, ?_⟩
    · rcases hsplit with hsplit | hsplit
      · simp [List.splitOn_cons_eq_if_modifyHead, hsplit, show c ≠ '\n' from hc]
      · simp [List.splitOn_cons_eq_if_modifyHead, hsplit, show c ≠ '\n' from hc]
    · rw [lines.eq_4 c rest hc hrest, hsome]
      refine .cons ?_ hothers
      rcases hpart with rfl | rfl
      · exact .inl rfl
      · exact .inr rfl

/-- What is found in lines is found between line feeds, if it is not in a carriage return. -/
theorem flatMap_lines {α : Type} {f : List Char → List α} (hnil : f [] = [])
    (hreturn : ∀ line, f (line ++ ['\r']) = f line) (cs : List Char) :
    (lines cs).flatMap f = (cs.splitOn '\n').flatMap f := by
  obtain ⟨parts, hsplit, hlines⟩ := lines_splitOn cs
  have hparts : (cs.splitOn '\n').flatMap f = parts.flatMap f := by
    rcases hsplit with hsplit | hsplit
    · rw [hsplit]
    · simp [hsplit, hnil]
  rw [hparts]
  generalize lines cs = found at hlines
  clear hsplit hparts
  induction hlines with
  | nil => rfl
  | cons hpart _ ih =>
    rw [List.flatMap_cons, List.flatMap_cons, ih]
    rcases hpart with rfl | rfl
    · rfl
    · rw [hreturn]

theorem words_cons (c : Char) (rest : List Char) : words (c :: rest) =
    if isBlank c then words rest
    else
      match rest, words rest with
      | d :: _, word :: more => if isBlank d then [c] :: word :: more else (c :: word) :: more
      | _, others => [c] :: others :=
  rfl

theorem words_eq_splitOnP (cs : List Char) :
    words cs = (cs.splitOnP isBlank).filter (· ≠ []) := by
  induction cs with
  | nil => rfl
  | cons c rest ih =>
    rw [words_cons, List.splitOnP_cons_eq_if_modifyHead]
    by_cases hc : isBlank c = true
    · simpa [hc] using ih
    rw [if_neg hc, if_neg hc]
    cases rest with
    | nil => rfl
    | cons d tail =>
      rw [List.splitOnP_cons_eq_if_modifyHead] at ih ⊢
      by_cases hd : isBlank d = true
      · have hwords : words (d :: tail) = (tail.splitOnP isBlank).filter (· ≠ []) := by
          simpa [hd] using ih
        rw [if_pos hd, List.modifyHead_cons, List.filter_cons_of_pos (by simp), ← hwords]
        cases words (d :: tail) with
        | nil => rfl
        | cons word more => exact if_pos hd
      · obtain ⟨part, others, hsplit⟩ :=
          List.exists_cons_of_ne_nil (List.splitOnP_ne_nil isBlank tail)
        have hwords : words (d :: tail) = (d :: part) :: others.filter (· ≠ []) := by
          simpa [hd, hsplit] using ih
        simp [hd, hsplit, hwords]

theorem words_append_blank {c : Char} (hc : isBlank c = true) (before after : List Char) :
    words (before ++ c :: after) = words before ++ words after := by
  simp only [words_eq_splitOnP, List.splitOnP_append_cons before after hc, List.filter_append]

theorem words_eq_singleton {word : List Char} (hne : word ≠ [])
    (hword : ∀ c ∈ word, isBlank c = false) : words word = [word] := by
  rw [words_eq_splitOnP, List.splitOnP_eq_singleton hword]
  simp [hne]

theorem of_mem_words {cs word : List Char} (hword : word ∈ words cs) :
    word ≠ [] ∧ ∀ c ∈ word, isBlank c = false := by
  rw [words_eq_splitOnP, List.mem_filter, decide_eq_true_eq] at hword
  exact ⟨hword.2, fun c hc => of_mem_splitOnP hword.1 hc⟩

end BuildOrder.Text
