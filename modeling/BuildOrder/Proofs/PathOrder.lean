import BuildOrder.Proofs.Path
import Mathlib.Data.List.Sort
import Mathlib.Data.List.TakeWhile
import Mathlib.Data.Prod.Lex
import Mathlib.Data.String.Basic

/-! Paths as lists of components: what a joined path consists of, and the order of paths. -/
namespace BuildOrder.Path

/-- What the way down a tree of files can call one step. -/
structure IsName (name : String) : Prop where
  ne_empty : name ≠ ""
  ne_dot : name ≠ "."
  no_slash : '/' ∉ name.toList

instance (name : String) : Decidable (IsName name) :=
  decidable_of_iff (name ≠ "" ∧ name ≠ "." ∧ '/' ∉ name.toList)
    ⟨fun ⟨hempty, hdot, hslash⟩ => ⟨hempty, hdot, hslash⟩,
      fun h => ⟨h.ne_empty, h.ne_dot, h.no_slash⟩⟩

theorem components_empty : components "" = [] := by
  decide

theorem components_append_slash (xs ys : List Char) :
    components (String.ofList (xs ++ '/' :: ys)) =
      components (String.ofList xs) ++ components (String.ofList ys) := by
  simp only [components, pieces, String.toList_ofList, List.splitOn_append_cons_self,
    List.map_append, List.filter_append]

theorem components_join (base relative : String) :
    components (join base relative) = components base ++ components relative := by
  rw [join]
  split
  next h =>
    rcases h with rfl | hlast
    · rw [components_empty, String.empty_append, List.nil_append]
    · obtain ⟨front, hbase⟩ := List.getLast?_eq_some_iff.mp hlast
      have hjoined : base ++ relative = String.ofList (front ++ '/' :: relative.toList) := by
        rw [← String.toList_inj, String.toList_append, hbase, String.toList_ofList]
        simp
      have hfront := components_append_slash front []
      rw [← hbase, String.ofList_toList, String.ofList_nil, components_empty, List.append_nil]
        at hfront
      rw [hjoined, components_append_slash, hfront, String.ofList_toList]
  next =>
    have hjoined : base ++ "/" ++ relative =
        String.ofList (base.toList ++ '/' :: relative.toList) := by
      rw [← String.toList_inj, String.toList_ofList]
      simp
    rw [hjoined, components_append_slash, String.ofList_toList, String.ofList_toList]

theorem isName_of_mem_components {path name : String} (h : name ∈ components path) :
    IsName name := by
  have hsaying := of_decide_eq_true (List.mem_filter.mp h).2
  exact ⟨hsaying.1, hsaying.2, not_mem_of_mem_components h⟩

theorem components_of_isName {name : String} (h : IsName name) : components name = [name] := by
  simp [components, pieces_of_not_mem h.no_slash, h.ne_empty, h.ne_dot]

theorem start_of_isName {name : String} (h : IsName name) : start name.toList = [] := by
  have hslash : ∀ c ∈ name.toList, decide (c ≠ '/') = true :=
    fun c hc => decide_eq_true (ne_of_mem_of_not_mem hc h.no_slash)
  have hhead : name.toList.head? ≠ some '/' := fun hhead => h.no_slash (List.mem_of_head? hhead)
  have hdot : name.toList ≠ ['.'] := fun hdot => h.ne_dot (String.toList_inj.mp hdot)
  rw [start, if_neg hhead, (List.takeWhile_eq_self_iff).mpr hslash, if_neg hdot]

/-- A path starts as its text up to a slash does. -/
theorem start_append {front back : List Char} (hfront : front ≠ [])
    (hslash : front.getLast? = some '/' ∨ back.head? = some '/') :
    start (front ++ back) = start front := by
  have htake : (front ++ back).takeWhile (· ≠ '/') = front.takeWhile (· ≠ '/') := by
    rw [List.takeWhile_append]
    split
    next hlength =>
      have hall : front.takeWhile (· ≠ '/') = front :=
        (List.takeWhile_prefix _).eq_of_length hlength
      have hlast : front.getLast? ≠ some '/' := by
        intro hlast
        have hplain := List.takeWhile_eq_self_iff.mp hall _ (List.mem_of_getLast? hlast)
        simp at hplain
      obtain ⟨rest, rfl⟩ := List.head?_eq_some_iff.mp (hslash.resolve_left hlast)
      rw [hall, List.takeWhile_cons_of_neg (by simp), List.append_nil]
    next => rfl
  rw [start, start, htake, List.head?_append_of_ne_nil _ hfront]

theorem start_join (base : String) {name : String} (h : IsName name) :
    start (join base name).toList = start base.toList := by
  rw [join]
  by_cases hempty : base = ""
  · rw [hempty, if_pos (Or.inl rfl), String.empty_append, start_of_isName h]
    rfl
  · have hbase : base.toList ≠ [] := by simpa using hempty
    by_cases hlast : base.toList.getLast? = some '/'
    · rw [if_pos (Or.inr hlast), String.toList_append, start_append hbase (Or.inl hlast)]
    · have hslash : "/".toList = ['/'] := rfl
      rw [if_neg (by simp [hempty, hlast]), String.toList_append, String.toList_append, hslash,
        List.append_assoc, start_append hbase (Or.inr rfl)]

theorem parts_join (base : String) {name : String} (h : IsName name) :
    parts (join base name) = parts base ++ [Part.ofComponent name] := by
  rw [parts, parts, start_join base h, components_join, components_of_isName h, List.map_append,
    List.append_assoc, List.map_singleton]

theorem parts_foldl_join {names : List String} (h : ∀ name ∈ names, IsName name) (root : String) :
    parts (names.foldl join root) = parts root ++ names.map Part.ofComponent := by
  induction names generalizing root with
  | nil => simp
  | cons name names ih =>
    obtain ⟨hname, hnames⟩ := List.forall_mem_cons.mp h
    rw [List.foldl_cons, ih hnames, parts_join root hname]
    simp

theorem nameLE_iff {cs ds : List Char} : nameLE cs ds = true ↔ cs ≤ ds := by
  rw [← not_lt]
  induction cs generalizing ds with
  | nil => simp [nameLE]
  | cons c cs ih =>
    cases ds with
    | nil => simp [nameLE]
    | cons d ds =>
      rw [nameLE, List.cons_lt_cons_iff]
      split
      next hc => simp [hc, ih]
      next hc =>
        have hlt : c.toNat < d.toNat ↔ c < d := Iff.rfl
        rw [decide_eq_true_eq, hlt, lt_iff_le_and_ne]
        simp [hc, Ne.symm hc]

namespace Part

theorem ofComponent_injective : Function.Injective ofComponent := by
  intro a b h
  unfold ofComponent at h
  split at h <;> split at h
  next ha hb => rw [ha, hb]
  next => cases h
  next => cases h
  next => exact Part.name.inj h

/-- The rank of a step, with its name. -/
def key : Part → ℕ ×ₗ String
  | name s => toLex (3, s)
  | part => toLex (part.rank, "")

theorem key_injective : Function.Injective key := by
  intro a b h
  cases a <;> cases b <;> simp_all [key, rank]

instance : LinearOrder Part :=
  LinearOrder.lift' key key_injective

theorem le_iff {a b : Part} : a.le b = true ↔ a ≤ b := by
  change a.le b = true ↔ a.key ≤ b.key
  rw [Prod.Lex.le_iff]
  cases a <;> cases b <;> simp [le, key, rank, nameLE_iff, String.le_iff_toList_le]

end Part

/-- A path that names joined to a root one after the other make. -/
def IsBelow (root path : String) : Prop :=
  ∃ names : List String, (∀ name ∈ names, IsName name) ∧ names.foldl join root = path

/-- Below one root, different paths have different steps. -/
theorem IsBelow.eq_of_parts_eq {root a b : String} (ha : IsBelow root a) (hb : IsBelow root b)
    (h : parts a = parts b) : a = b := by
  obtain ⟨names, hnames, rfl⟩ := ha
  obtain ⟨others, hothers, rfl⟩ := hb
  rw [parts_foldl_join hnames, parts_foldl_join hothers] at h
  have heq := List.map_injective_iff.mpr Part.ofComponent_injective (List.append_cancel_left h)
  rw [heq]

theorem partsLE_iff {as bs : List Part} : partsLE as bs = true ↔ as ≤ bs := by
  rw [← not_lt]
  induction as generalizing bs with
  | nil => simp [partsLE]
  | cons a as ih =>
    cases bs with
    | nil => simp [partsLE]
    | cons b bs =>
      rw [partsLE, List.cons_lt_cons_iff]
      split
      next ha => simp [ha, ih]
      next ha => simp only [Part.le_iff, ← not_lt, Ne.symm ha, false_and, or_false]

/-- In strictly increasing order, step by step. -/
def Increasing (paths : List String) : Prop :=
  paths.Pairwise fun a b => parts a < parts b

theorem Increasing.eq_of_mem_iff {paths others : List String} (hpaths : Increasing paths)
    (hothers : Increasing others) (h : ∀ path, path ∈ paths ↔ path ∈ others) : paths = others := by
  have hirrefl : Std.Irrefl fun a b : String => parts a < parts b :=
    ⟨fun a => lt_irrefl (parts a)⟩
  have hantisymm : Std.Antisymm fun a b : String => parts a < parts b :=
    ⟨fun _ _ hab hba => absurd hba hab.asymm⟩
  exact List.Pairwise.eq_of_mem_iff hpaths hothers h

/-- Sorted, paths that differ in their steps increase strictly. -/
theorem increasing_mergeSort {paths : List String} (h : (paths.map parts).Nodup) :
    Increasing (paths.mergeSort comesBefore) := by
  have hsorted : (paths.mergeSort comesBefore).Pairwise fun a b => comesBefore a b = true := by
    refine List.pairwise_mergeSort (fun a b c hab hbc => ?_) (fun a b => ?_) paths
    · exact partsLE_iff.mpr ((partsLE_iff.mp hab).trans (partsLE_iff.mp hbc))
    · rw [Bool.or_eq_true, comesBefore, comesBefore, partsLE_iff, partsLE_iff]
      exact le_total _ _
  have hdistinct : (paths.mergeSort comesBefore).Pairwise fun a b => parts a ≠ parts b :=
    List.pairwise_map.mp (((List.mergeSort_perm paths _).map parts).nodup_iff.mpr h)
  exact (hsorted.and hdistinct).imp fun h => (partsLE_iff.mp h.1).lt_of_ne h.2

end BuildOrder.Path
