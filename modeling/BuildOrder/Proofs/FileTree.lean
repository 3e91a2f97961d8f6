import BuildOrder.FileTree
import BuildOrder.Proofs.PathOrder

/-! Trees of files as they can exist: what a name is, and that a directory has each name once. -/
namespace BuildOrder

namespace Entry

inductive Proper : Entry → Prop
  | file (content : Except ReadError (List UInt8)) : Proper (.file content)
  | directory {children : List (String × Entry)} (hnodup : (children.map (·.1)).Nodup)
      (hnames : ∀ child ∈ children, Path.IsName child.1)
      (hchildren : ∀ child ∈ children, Proper child.2) : Proper (.directory children)

theorem proper_nil : Proper (.directory []) :=
  .directory List.nodup_nil (List.forall_mem_nil _) (List.forall_mem_nil _)

theorem mem_of_lookup {name : String} {entry : Entry} {children : List (String × Entry)}
    (h : children.lookup name = some entry) : (name, entry) ∈ children := by
  obtain ⟨front, rest, rfl, -⟩ := List.lookup_eq_some_iff.mp h
  exact List.mem_append_right _ List.mem_cons_self

section Children

variable {children : List (String × Entry)} (h : (Entry.directory children).Proper)
variable {name : String} {entry : Entry} (hname : Path.IsName name) (hentry : entry.Proper)
include h hname hentry

theorem Proper.replaced : (Entry.directory
    (children.map fun child => if child.1 = name then (name, entry) else child)).Proper := by
  cases h with | directory hnodup hnames hchildren =>
  have hkept : (children.map fun child => if child.1 = name then (name, entry) else child).map
      (·.1) = children.map (·.1) := by
    rw [List.map_map]
    refine List.map_congr_left fun child _ => ?_
    rw [Function.comp_apply]
    split
    next heq => exact heq.symm
    next => rfl
  refine .directory (hkept ▸ hnodup) ?_ ?_
  all_goals
    rw [List.forall_mem_map]
    intro child hchild
    split
  · exact hname
  · exact hnames child hchild
  · exact hentry
  · exact hchildren child hchild

theorem Proper.added (hfree : children.lookup name = none) :
    (Entry.directory (children ++ [(name, entry)])).Proper := by
  cases h with | directory hnodup hnames hchildren =>
  have hnew : name ∉ children.map (·.1) := by
    intro hmem
    obtain ⟨child, hchild, rfl⟩ := List.mem_map.mp hmem
    simpa using List.lookup_eq_none_iff.mp hfree child hchild
  refine .directory ?_ ?_ ?_
  · rw [List.map_append, List.map_singleton, ← List.concat_eq_append]
    exact hnodup.concat hnew
  · exact List.forall_mem_append.mpr ⟨hnames, List.forall_mem_singleton.mpr hname⟩
  · exact List.forall_mem_append.mpr ⟨hchildren, List.forall_mem_singleton.mpr hentry⟩

end Children

theorem Proper.insertBelow {new : Entry} (hnew : new.Proper) {location : Location}
    (hlocation : ∀ name ∈ location, Path.IsName name) {children : List (String × Entry)}
    (h : (Entry.directory children).Proper) :
    (Entry.directory (new.insertBelow location children)).Proper := by
  induction location generalizing children with
  | nil => exact h
  | cons name rest ih =>
    obtain ⟨hname, hrest⟩ := List.forall_mem_cons.mp hlocation
    rw [Entry.insertBelow]
    split
    next below hlookup =>
      cases h with | directory hnodup hnames hchildren =>
      have hbelow := ih hrest (hchildren _ (mem_of_lookup hlookup))
      exact (Proper.directory hnodup hnames hchildren).replaced hname hbelow
    next => exact h
    next hfree =>
      refine h.added hname ?_ hfree
      split
      · exact hnew
      · exact ih hrest proper_nil

end Entry

namespace FileTree

def Proper (tree : FileTree) : Prop :=
  (Entry.directory tree.root).Proper

theorem proper_ofList {current : Location} (hcurrent : ∀ name ∈ current, Path.IsName name)
    {entries : List (String × Entry)} (hentries : ∀ entry ∈ entries, entry.2.Proper) :
    (ofList current entries).Proper := by
  have hbare : (FileTree.insert ⟨[], current⟩ current (.directory [])).Proper :=
    Entry.proper_nil.insertBelow hcurrent Entry.proper_nil
  refine List.foldlRecOn (motive := Proper) entries _ hbare fun tree htree entry hentry => ?_
  refine (hentries entry hentry).insertBelow (List.forall_mem_append.mpr ⟨hcurrent, ?_⟩) htree
  exact fun name => Path.isName_of_mem_components

theorem exists_follow_of_locate {tree : FileTree} {path : String} {trail : Trail}
    (hlocate : tree.locate path = .ok trail) : ∃ pieces, tree.follow [] pieces = .ok trail := by
  rw [locate] at hlocate
  split_ifs at hlocate
  all_goals exact ⟨_, hlocate⟩

section Follow

variable {tree : FileTree} (h : tree.Proper)
include h

theorem Proper.entryAt {trail : Trail} (htrail : ∀ step ∈ trail, step.2.Proper) :
    (tree.entryAt trail).Proper := by
  cases trail with
  | nil => exact h
  | cons step trail => exact htrail step List.mem_cons_self

theorem Proper.follow {pieces : List String} {here trail : Trail}
    (hhere : ∀ step ∈ here, step.2.Proper) (hfollow : tree.follow here pieces = .ok trail) :
    ∀ step ∈ trail, step.2.Proper := by
  induction pieces generalizing here with
  | nil =>
    cases hfollow
    exact hhere
  | cons piece pieces ih =>
    have hentry := h.entryAt hhere
    rw [FileTree.follow] at hfollow
    split at hfollow
    next => cases hfollow
    next children hdirectory =>
      rw [hdirectory] at hentry
      cases hentry with | directory _ _ hchildren =>
      split at hfollow
      next => exact ih hhere hfollow
      split at hfollow
      next => exact ih (fun step hstep => hhere step (List.mem_of_mem_tail hstep)) hfollow
      split at hfollow
      next => cases hfollow
      split at hfollow
      next entry hlookup =>
        have hchild := hchildren _ (Entry.mem_of_lookup hlookup)
        exact ih (List.forall_mem_cons.mpr ⟨hchild, hhere⟩) hfollow
      next => cases hfollow

theorem Proper.lookup {path : String} {location : Location} {entry : Entry}
    (hlookup : tree.lookup path = .ok (location, entry)) : entry.Proper := by
  obtain ⟨trail, hlocate, heq⟩ : ∃ trail, tree.locate path = .ok trail ∧
      (trail.location, tree.entryAt trail) = (location, entry) := by
    rw [FileTree.lookup] at hlookup
    cases hlocate : tree.locate path with
    | error cause =>
      rw [hlocate] at hlookup
      cases hlookup
    | ok trail =>
      rw [hlocate] at hlookup
      exact ⟨trail, rfl, Except.ok.inj hlookup⟩
  cases heq
  obtain ⟨pieces, hfollow⟩ := exists_follow_of_locate hlocate
  exact h.entryAt (h.follow (List.forall_mem_nil _) hfollow)

end Follow

end FileTree
end BuildOrder
