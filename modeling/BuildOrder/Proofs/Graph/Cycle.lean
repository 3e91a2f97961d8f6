import BuildOrder.Proofs.Graph.Reachable
import Mathlib.Data.Fintype.EquivFin
import Mathlib.Logic.Relation

/-! Cycles of a dependency graph. A node can be built when a chain of dependencies never has to run
forever, and in a finite graph these are exactly the nodes that reach no cycle. -/
namespace BuildOrder.Graph
open Relation

def Requires (g : Graph) (v d : Nat) : Prop :=
  d ∈ g.dependencies v

def Acyclic (g : Graph) : Prop :=
  ∀ v, ¬ TransGen g.Requires v v

/-- Following dependencies from `v` can lead to a node that requires itself in the end. -/
def ReachesCycle (g : Graph) (v : Nat) : Prop :=
  ∃ w, ReflTransGen g.Requires v w ∧ TransGen g.Requires w w

/-- The nodes all of whose dependencies can be built first. -/
inductive Buildable (g : Graph) : Nat → Prop
  | intro {v : Nat} (h : ∀ d ∈ g.dependencies v, Buildable g d) : Buildable g v

theorem ReachesCycle.of_requires {g : Graph} {v d : Nat} (hd : g.Requires v d)
    (hc : g.ReachesCycle d) : g.ReachesCycle v := by
  obtain ⟨w, hdw, hw⟩ := hc
  exact ⟨w, hdw.head hd, hw⟩

/-- A way to a cycle goes on through a dependency. -/
theorem ReachesCycle.exists_requires {g : Graph} {v : Nat} (hc : g.ReachesCycle v) :
    ∃ d, g.Requires v d ∧ g.ReachesCycle d := by
  obtain ⟨w, hvw, hw⟩ := hc
  rcases hvw.cases_head with rfl | ⟨d, hd, hdw⟩
  · obtain ⟨d, hd, hdv⟩ := TransGen.head'_iff.mp hw
    exact ⟨d, hd, v, hdv, hw⟩
  · exact ⟨d, hd, w, hdw, hw⟩

theorem ReachesCycle.lt_size {g : Graph} {v : Nat} (hc : g.ReachesCycle v) : v < g.size := by
  obtain ⟨d, hd, -⟩ := hc.exists_requires
  exact lt_size_of_mem_dependencies hd

theorem acyclic_iff {g : Graph} : g.Acyclic ↔ ∀ v, ¬ g.ReachesCycle v := by
  constructor
  · rintro ha v ⟨w, -, hw⟩
    exact ha w hw
  · intro hn v hv
    exact hn v ⟨v, .refl, hv⟩

theorem Buildable.not_reachesCycle {g : Graph} {v : Nat} (hb : g.Buildable v) :
    ¬ g.ReachesCycle v := by
  induction hb with
  | intro _ ih =>
    intro hc
    obtain ⟨d, hd, hcd⟩ := hc.exists_requires
    exact ih d hd hcd

/-- On the nodes that reach no cycle, requirements cannot run forever: there are finitely many, and
none requires itself in the end. -/
private theorem wellFounded_requires (g : Graph) :
    WellFounded fun d v : {v : Fin g.size // ¬ g.ReachesCycle v} =>
      TransGen g.Requires v.1 d.1 := by
  let r (d v : {v : Fin g.size // ¬ g.ReachesCycle v}) : Prop := TransGen g.Requires v.1 d.1
  have : IsTrans _ r := ⟨fun _ _ _ hab hbc => hbc.trans hab⟩
  have : Std.Irrefl r := ⟨fun v hv => v.2 ⟨v.1, .refl, hv⟩⟩
  exact Finite.wellFounded_of_trans_of_irrefl r

theorem buildable_of_not_reachesCycle {g : Graph} (hg : g.WellFormed) {v : Nat} (hv : v < g.size)
    (hc : ¬ g.ReachesCycle v) : g.Buildable v := by
  suffices h : ∀ w : {v : Fin g.size // ¬ g.ReachesCycle v}, g.Buildable w.1 from
    h ⟨⟨v, hv⟩, hc⟩
  intro w
  induction w using (wellFounded_requires g).induction with
  | _ w ih =>
    refine .intro fun d hd => ?_
    have hcd : ¬ g.ReachesCycle d := fun hcd => w.2 (hcd.of_requires hd)
    exact ih ⟨⟨d, hg.lt_size hd⟩, hcd⟩ (.single hd)

theorem buildable_iff {g : Graph} (hg : g.WellFormed) {v : Nat} (hv : v < g.size) :
    g.Buildable v ↔ ¬ g.ReachesCycle v :=
  ⟨Buildable.not_reachesCycle, buildable_of_not_reachesCycle hg hv⟩

theorem acyclic_iff_buildable {g : Graph} (hg : g.WellFormed) :
    g.Acyclic ↔ ∀ v < g.size, g.Buildable v := by
  rw [acyclic_iff]
  constructor
  · intro hn v hv
    exact buildable_of_not_reachesCycle hg hv (hn v)
  · intro hb v hc
    exact (hb v hc.lt_size).not_reachesCycle hc

end BuildOrder.Graph
