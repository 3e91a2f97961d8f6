import BuildOrder.Proofs.Distinct
import Mathlib.Data.Finset.Lattice.Fold
import Mathlib.Data.Finset.Dedup
import Mathlib.Data.Prod.Lex
import Mathlib.Logic.Relation
import Mathlib.Order.Lattice.Nat

/-! The order in which a queue builds items. An item joins the queue when the last of its
prerequisites is placed, and items that join together come in the given order. There is at most one
such order, and it is determined by the sets of prerequisites alone. -/
namespace BuildOrder
open Relation

section

variable {α : Type} [DecidableEq α]

/-- How many items of the order are placed when nothing keeps `a` waiting any more. -/
def readyAt (needs : α → List α) (order : List α) (a : α) : ℕ :=
  (needs a).toFinset.sup fun b => order.idxOf b + 1

/-- Items that are ready at the same time are told apart by their positions among all items. -/
def turn (items : List α) (needs : α → List α) (order : List α) (a : α) : ℕ ×ₗ ℕ :=
  toLex (readyAt needs order a, items.idxOf a)

structure IsQueueOrder (items : List α) (needs : α → List α) (order : List α) : Prop where
  perm : order.Perm items
  before : ∀ a ∈ items, ∀ b ∈ needs a, [b, a].Sublist order
  queued : order.Pairwise fun a b => turn items needs order a < turn items needs order b

variable {items order : List α} {needs : α → List α}

theorem readyAt_le_iff {a : α} {n : ℕ} :
    readyAt needs order a ≤ n ↔ ∀ b ∈ needs a, order.idxOf b < n := by
  simp only [readyAt, Finset.sup_le_iff, List.mem_toFinset, Nat.add_one_le_iff]

theorem readyAt_eq_zero {a : α} (h : needs a = []) : readyAt needs order a = 0 := by
  simp [readyAt, h]

theorem readyAt_congr {needs' : α → List α} {a : α} (h : ∀ b, b ∈ needs a ↔ b ∈ needs' a) :
    readyAt needs order a = readyAt needs' order a := by
  rw [readyAt, readyAt, List.toFinset.ext h]

/-- Which of two items is ready first is told by the last of their prerequisites. -/
theorem readyAt_le_readyAt_iff {a b : α} : readyAt needs order a ≤ readyAt needs order b ↔
    ∀ c ∈ needs a, ∃ d ∈ needs b, order.idxOf c ≤ order.idxOf d := by
  rw [readyAt_le_iff]
  refine forall₂_congr fun c _ => ?_
  rw [← not_le, readyAt_le_iff]
  push Not
  rfl

/-- What is placed behind the prerequisites of an item does not matter to it. -/
theorem readyAt_append {before : List α} {a : α} (h : ∀ b ∈ needs a, b ∈ before)
    (after : List α) : readyAt needs (before ++ after) a = readyAt needs before a := by
  refine eq_of_forall_ge_iff fun n => ?_
  rw [readyAt_le_iff, readyAt_le_iff]
  exact forall₂_congr fun b hb => by rw [List.idxOf_append_of_mem (h b hb)]

theorem readyAt_le_length {before : List α} {a : α} (h : ∀ b ∈ needs a, b ∈ before) :
    readyAt needs before a ≤ before.length :=
  readyAt_le_iff.mpr fun b hb => List.idxOf_lt_length_of_mem (h b hb)

theorem readyAt_append_singleton {before : List α} {a b : α} (hnew : b ∉ before)
    (hb : b ∈ needs a) (h : ∀ c ∈ needs a, c ∈ before ++ [b]) :
    readyAt needs (before ++ [b]) a = before.length + 1 := by
  apply le_antisymm
  · simpa using readyAt_le_length h
  · have hlt := readyAt_le_iff.mp (le_refl (readyAt needs (before ++ [b]) a)) b hb
    rw [List.idxOf_append_of_notMem hnew, List.idxOf_cons_self] at hlt
    exact hlt

theorem turn_append {before : List α} {a : α} (h : ∀ b ∈ needs a, b ∈ before)
    (after : List α) : turn items needs (before ++ after) a = turn items needs before a := by
  rw [turn, turn, readyAt_append h]

theorem turn_lt_turn_iff {a b : α} : turn items needs order a < turn items needs order b ↔
    readyAt needs order a ≤ readyAt needs order b ∧
      (readyAt needs order b ≤ readyAt needs order a → items.idxOf a < items.idxOf b) := by
  refine Prod.Lex.toLex_lt_toLex'.trans (and_congr_right fun hle => ?_)
  exact ⟨fun h hge => h (le_antisymm hle hge), fun h heq => h heq.ge⟩

namespace IsQueueOrder

theorem nodup (h : IsQueueOrder items needs order) : order.Nodup :=
  h.queued.imp fun hlt heq => absurd hlt (by rw [heq]; exact lt_irrefl _)

theorem mem_iff (h : IsQueueOrder items needs order) {a : α} : a ∈ order ↔ a ∈ items :=
  h.perm.mem_iff

theorem mem_items_of_mem_needs (h : IsQueueOrder items needs order) {a b : α} (ha : a ∈ items)
    (hb : b ∈ needs a) : b ∈ items :=
  h.mem_iff.mp ((h.before a ha b hb).subset (by simp))

theorem idxOf_lt (h : IsQueueOrder items needs order) {a b : α} (ha : a ∈ items)
    (hb : b ∈ needs a) : order.idxOf b < order.idxOf a := by
  have hpair := (pairwise_idxOf h.nodup).sublist (h.before a ha b hb)
  simpa using hpair

/-- Items are placed in turn. -/
theorem idxOf_lt_idxOf_iff (h : IsQueueOrder items needs order) {a b : α} (ha : a ∈ items)
    (hb : b ∈ items) : order.idxOf a < order.idxOf b ↔
      turn items needs order a < turn items needs order b := by
  have hturn : ∀ a ∈ items, ∀ b ∈ items, order.idxOf a < order.idxOf b →
      turn items needs order a < turn items needs order b := by
    intro a ha b hb hlt
    have hpair := List.pairwise_iff_getElem.mp h.queued
    simpa using hpair _ _ (List.idxOf_lt_length_of_mem (h.mem_iff.mpr ha))
      (List.idxOf_lt_length_of_mem (h.mem_iff.mpr hb)) hlt
  refine ⟨hturn a ha b hb, fun hlt => ?_⟩
  rcases Nat.lt_trichotomy (order.idxOf a) (order.idxOf b) with hab | heq | hba
  · exact hab
  · rw [(List.idxOf_inj (h.mem_iff.mpr ha)).mp heq] at hlt
    exact absurd hlt (lt_irrefl _)
  · exact absurd hlt (lt_asymm (hturn b hb a ha hba))

theorem not_mem_before {before after : List α} {a : α}
    (h : IsQueueOrder items needs (before ++ a :: after)) : a ∉ before := by
  intro hmem
  exact (List.nodup_append.mp h.nodup).2.2 a hmem a (by simp) rfl

/-- The prerequisites of an item are among the items placed before it. -/
theorem mem_of_mem_needs {before after : List α} {a b : α}
    (h : IsQueueOrder items needs (before ++ a :: after)) (hb : b ∈ needs a) : b ∈ before := by
  have ha : a ∈ items := h.mem_iff.mp (by simp)
  have hlt := h.idxOf_lt ha hb
  by_contra hnot
  rw [List.idxOf_append_of_notMem h.not_mem_before, List.idxOf_append_of_notMem hnot,
    List.idxOf_cons_self] at hlt
  omega

/-- Where two orders begin alike, the item that comes next in one comes later in the other. -/
theorem turn_lt_of_ne {before after after' : List α} {a b : α}
    (h : IsQueueOrder items needs (before ++ a :: after))
    (h' : IsQueueOrder items needs (before ++ b :: after')) (hab : a ≠ b) :
    turn items needs before a < turn items needs before b := by
  have hb : b ∈ after := by
    have hmem : b ∈ before ++ a :: after := h.mem_iff.mpr (h'.mem_iff.mp (by simp))
    simpa [h'.not_mem_before, Ne.symm hab] using hmem
  have hrest := (List.pairwise_append.mp h.queued).2.1
  have hlt := (List.pairwise_cons.mp hrest).1 b hb
  rwa [turn_append fun c hc => h.mem_of_mem_needs hc,
    turn_append fun c hc => h'.mem_of_mem_needs hc] at hlt

theorem eq_of_append {before after after' : List α}
    (h : IsQueueOrder items needs (before ++ after))
    (h' : IsQueueOrder items needs (before ++ after')) : after = after' := by
  have hlength : after.length = after'.length := by
    have hperm := (h.perm.trans h'.perm.symm).length_eq
    simpa using hperm
  -- What both orders begin with grows along the induction, since turns depend on what is placed.
  induction after generalizing before after' with
  | nil => exact (List.eq_nil_of_length_eq_zero hlength.symm).symm
  | cons a after ih =>
    cases after' with
    | nil => simp at hlength
    | cons b after' =>
      by_cases hab : a = b
      · subst hab
        have hnext : ∀ xs : List α, before ++ a :: xs = (before ++ [a]) ++ xs := by simp
        rw [hnext] at h h'
        rw [ih h h' (Nat.succ.inj hlength)]
      · exact absurd (h.turn_lt_of_ne h' hab) (lt_asymm (h'.turn_lt_of_ne h (Ne.symm hab)))

theorem unique {order' : List α} (h : IsQueueOrder items needs order)
    (h' : IsQueueOrder items needs order') : order = order' := by
  have hempty : IsQueueOrder items needs ([] ++ order) := h
  exact hempty.eq_of_append h'

/-- Only which items are prerequisites matters, not how they are listed. -/
theorem congr {needs' : α → List α} (h : IsQueueOrder items needs order)
    (hneeds : ∀ a ∈ items, ∀ b, b ∈ needs a ↔ b ∈ needs' a) : IsQueueOrder items needs' order where
  perm := h.perm
  before a ha b hb := h.before a ha b ((hneeds a ha b).mpr hb)
  queued := by
    have hturn : ∀ a ∈ order, turn items needs order a = turn items needs' order a := by
      intro a ha
      rw [turn, turn, readyAt_congr (hneeds a (h.mem_iff.mp ha))]
    refine h.queued.imp_of_mem fun {a b} ha hb hlt => ?_
    rwa [hturn a ha, hturn b hb] at hlt

/-- Items that are already given in their order keep it. -/
theorem self (h : IsQueueOrder items needs order) : IsQueueOrder order needs order where
  perm := .refl order
  before a ha b hb := h.before a (h.mem_iff.mp ha) b hb
  queued := by
    refine (h.queued.and (pairwise_idxOf h.nodup)).imp fun {a b} hlt => ?_
    obtain ⟨hturn, hidx⟩ := hlt
    have hready := (Prod.Lex.toLex_lt_toLex'.mp hturn).1
    exact Prod.Lex.toLex_lt_toLex'.mpr ⟨hready, fun _ => hidx⟩

theorem idxOf_lt_of_transGen (h : IsQueueOrder items needs order) {r : α → α → Prop}
    (hr : ∀ {a b}, r a b → a ∈ items ∧ b ∈ needs a) {a b : α} (hab : TransGen r a b) :
    order.idxOf b < order.idxOf a := by
  induction hab with
  | single hab => exact h.idxOf_lt (hr hab).1 (hr hab).2
  | tail _ hbc ih => exact (h.idxOf_lt (hr hbc).1 (hr hbc).2).trans ih

/-- Items that need each other in a circle have no order. -/
theorem not_transGen (h : IsQueueOrder items needs order) {r : α → α → Prop}
    (hr : ∀ {a b}, r a b → a ∈ items ∧ b ∈ needs a) (a : α) : ¬ TransGen r a a :=
  fun hcycle => lt_irrefl _ (h.idxOf_lt_of_transGen hr hcycle)

/-- Items that need nothing but each other keep their order when all others are left out. -/
theorem filter (h : IsQueueOrder items needs order) {keep : α → Bool}
    (hkeep : ∀ a ∈ items, keep a = true → ∀ b ∈ needs a, keep b = true) :
    IsQueueOrder (items.filter keep) needs (order.filter keep) where
  perm := h.perm.filter keep
  before a ha b hb := by
    obtain ⟨hmem, hka⟩ := List.mem_filter.mp ha
    have hkb := hkeep a hmem hka b hb
    simpa [hka, hkb] using (h.before a hmem b hb).filter keep
  queued := by
    have hneeds : ∀ a ∈ order.filter keep, ∀ b ∈ needs a, b ∈ order.filter keep := by
      intro a ha b hb
      obtain ⟨hmem, hka⟩ := List.mem_filter.mp ha
      have hitem := h.mem_iff.mp hmem
      have hb' : b ∈ order := (h.before a hitem b hb).subset (by simp)
      exact List.mem_filter.mpr ⟨hb', hkeep a hitem hka b hb⟩
    have hready : ∀ a ∈ order.filter keep, ∀ b ∈ order.filter keep,
        (readyAt needs (order.filter keep) a ≤ readyAt needs (order.filter keep) b ↔
          readyAt needs order a ≤ readyAt needs order b) := by
      intro a ha b hb
      rw [readyAt_le_readyAt_iff, readyAt_le_readyAt_iff]
      refine forall₂_congr fun c hc => exists_congr fun d => and_congr_right fun hd => ?_
      exact idxOf_le_idxOf_iff List.filter_sublist h.nodup (hneeds a ha c hc) (hneeds b hb d hd)
    have hidx : ∀ a ∈ order.filter keep, ∀ b ∈ order.filter keep,
        ((items.filter keep).idxOf a < (items.filter keep).idxOf b ↔
          items.idxOf a < items.idxOf b) := by
      have hmem : ∀ a ∈ order.filter keep, a ∈ items.filter keep :=
        fun a ha => (h.perm.filter keep).mem_iff.mp ha
      intro a ha b hb
      rw [← not_le, ← not_le, not_iff_not]
      exact idxOf_le_idxOf_iff List.filter_sublist (h.perm.nodup_iff.mp h.nodup) (hmem b hb)
        (hmem a ha)
    refine (h.queued.sublist List.filter_sublist).imp_of_mem fun {a b} ha hb hlt => ?_
    rw [turn_lt_turn_iff] at hlt ⊢
    rwa [hready a ha b hb, hready b hb a ha, hidx a ha b hb]

/-- A renaming of the items renames their order. -/
theorem map {β : Type} [DecidableEq β] {f : α → β} {needs' : β → List β}
    (h : IsQueueOrder items needs order) (hmem : ∀ a ∈ items, ∀ b ∈ needs a, b ∈ items)
    (hf : ∀ a ∈ items, ∀ b ∈ items, f a = f b → a = b)
    (hneeds : ∀ a ∈ items, needs' (f a) = (needs a).map f) :
    IsQueueOrder (items.map f) needs' (order.map f) where
  perm := h.perm.map f
  before := by
    intro x hx y hy
    obtain ⟨a, ha, rfl⟩ := List.mem_map.mp hx
    rw [hneeds a ha] at hy
    obtain ⟨b, hb, rfl⟩ := List.mem_map.mp hy
    exact (h.before a ha b hb).map f
  queued := by
    have hturn : ∀ a ∈ order, turn (items.map f) needs' (order.map f) (f a) =
        turn items needs order a := by
      intro a ha
      have hitem : a ∈ items := h.mem_iff.mp ha
      have hitems : ∀ b ∈ items, f b = f a → b = a := fun b hb => hf b hb a hitem
      have hready : readyAt needs' (order.map f) (f a) = readyAt needs order a := by
        refine eq_of_forall_ge_iff fun n => ?_
        rw [readyAt_le_iff, readyAt_le_iff, hneeds a hitem, List.forall_mem_map]
        refine forall₂_congr fun b hb => ?_
        rw [idxOf_map fun c hc => hf c (h.mem_iff.mp hc) b (hmem a hitem b hb)]
      rw [turn, turn, hready, idxOf_map hitems]
    rw [List.pairwise_map]
    refine h.queued.imp_of_mem fun {a b} ha hb hlt => ?_
    rwa [hturn a ha, hturn b hb]

end IsQueueOrder

end

end BuildOrder
