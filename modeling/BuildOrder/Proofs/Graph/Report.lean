import BuildOrder.Graph.Report
import BuildOrder.Proofs.Graph.Names

/-! The report tells the edges of a graph, each once at either end. What stands in it can be read
off the list of edges. -/
namespace BuildOrder

/-- What a report says about a name: the names that it requires, and those that require it. -/
structure Section where
  name : String
  requires : List String
  requiredBy : List String
  deriving DecidableEq

def Section.text (s : Section) : String :=
  "## `" ++ s.name ++ "`\n\n**Requires:** " ++
    (if s.requires = [] then "(none - root)" else String.intercalate ", " s.requires) ++
    "\n\n**Required by:** " ++
    (if s.requiredBy = [] then "(none)" else String.intercalate ", " s.requiredBy) ++ "\n\n"

theorem flatMap_ite {α β : Type} (p : α → Prop) [DecidablePred p] (f : α → List β) (xs : List α) :
    (xs.flatMap fun x => if p x then f x else []) = (xs.filter p).flatMap f := by
  induction xs with
  | nil => rfl
  | cons x xs ih => by_cases hx : p x <;> simp [hx, ih]

namespace Graph

/-- Whether a name is an end of an edge. -/
def isEnd (g : Graph) (a : String) : Bool :=
  g.edges.any fun edge => edge.1 = a ∨ edge.2 = a

def sectionOf (g : Graph) (a : String) : Section where
  name := a
  requires := (g.edges.filter (·.1 = a)).map (·.2)
  requiredBy := (g.edges.filter (·.2 = a)).map (·.1)

/-- The ends of edges in insertion order, each with what the edges say about it. -/
def sections (g : Graph) : List Section :=
  ((g.names g.ids).filter g.isEnd).map g.sectionOf

def reportHeader (g : Graph) : String :=
  "# dependencies\n\n" ++ toString g.size ++ " files, " ++ toString g.edgeCount ++ " edges\n\n"

theorem isEnd_iff {g : Graph} {a : String} : g.isEnd a = true ↔
    (g.sectionOf a).requires ≠ [] ∨ (g.sectionOf a).requiredBy ≠ [] := by
  simp only [isEnd, sectionOf, List.any_eq_true, decide_eq_true_eq, ne_eq, List.map_eq_nil_iff,
    List.filter_eq_nil_iff, not_forall, not_not, exists_prop, ← exists_or, ← and_or_left]

theorem length_edges (g : Graph) : g.edges.length = g.edgeCount := by
  simp [edges, edgeCount, List.length_flatMap]

theorem dependentsOf_eq_filter (g : Graph) (id : Nat) :
    g.dependentsOf id = g.ids.filter fun v => id ∈ g.dependencies v := by
  have hids : g.nodes.zipIdx.map (·.2) = g.ids := by simp [ids, size, List.range_eq_range']
  rw [dependentsOf, ← hids, List.filter_map]
  congr 1
  refine List.filter_congr fun entry hentry => ?_
  obtain ⟨node, v⟩ := entry
  have hnode := List.mem_zipIdx_iff_getElem?.mp hentry
  rw [Function.comp_apply, dependencies_of_getElem? hnode]

section Edges

variable {g : Graph} (hg : g.WellFormed)
include hg

theorem filter_edges_fst (a : String) :
    g.edges.filter (·.1 = a) = (g.prerequisites a).map fun b => (a, b) := by
  have hblock : ∀ c, ((g.prerequisites c).map fun b => (c, b)).filter (·.1 = a) =
      if c = a then (g.prerequisites c).map fun b => (c, b) else [] := by
    intro c
    by_cases hc : c = a <;> simp [hc, List.filter_map, Function.comp_def]
  rw [edges_eq_names hg, List.filter_flatMap]
  simp only [hblock]
  rw [flatMap_ite, List.filter_eq, (nodup_names_ids hg).count]
  split
  next => simp
  next ha => simp [prerequisites_eq_nil ha]

theorem filter_edges_snd (a : String) :
    (g.edges.filter (·.2 = a)).map (·.1) =
      (g.names g.ids).filter fun b => a ∈ g.prerequisites b := by
  have hblock : ∀ b, (((g.prerequisites b).map fun c => (b, c)).filter (·.2 = a)).map (·.1) =
      if a ∈ g.prerequisites b then [b] else [] := by
    intro b
    rw [List.filter_map, List.map_map]
    have hfilter : (g.prerequisites b).filter ((fun edge : String × String => edge.2 = a) ∘
        fun c => (b, c)) = (g.prerequisites b).filter (· = a) := rfl
    rw [hfilter, List.filter_eq, (nodup_prerequisites hg b).count]
    split <;> rfl
  rw [edges_eq_names hg, List.filter_flatMap, List.map_flatMap]
  simp only [hblock]
  rw [flatMap_ite, List.flatMap_singleton']

theorem sectionOf_nameOf {v : Nat} (hv : v < g.size) : g.sectionOf (g.nameOf v) =
    ⟨g.nameOf v, g.names (g.dependencies v), g.names (g.dependentsOf v)⟩ := by
  have hrequires : (g.edges.filter (·.1 = g.nameOf v)).map (·.2) = g.names (g.dependencies v) := by
    rw [filter_edges_fst hg, List.map_map, ← prerequisites_nameOf hg hv]
    exact List.map_id _
  have hrequiredBy :
      (g.edges.filter (·.2 = g.nameOf v)).map (·.1) = g.names (g.dependentsOf v) := by
    rw [filter_edges_snd hg, dependentsOf_eq_filter, names, names, List.filter_map]
    congr 1
    refine List.filter_congr fun w hw => ?_
    rw [Function.comp_apply, prerequisites_nameOf hg (mem_ids.mp hw), names, decide_eq_decide]
    refine List.mem_map.trans ⟨?_, fun hmem => ⟨v, hmem, rfl⟩⟩
    rintro ⟨d, hd, hname⟩
    rwa [← hg.nameOf_inj (hg.lt_size hd) hv hname]
  rw [sectionOf, hrequires, hrequiredBy]

theorem isEnd_nameOf {v : Nat} (hv : v < g.size) : g.isEnd (g.nameOf v) = g.isLinked v := by
  rw [Bool.eq_iff_iff, isEnd_iff, sectionOf_nameOf hg hv]
  simp [isLinked, names]

/-- The sections of the report, node by node. -/
theorem sections_eq : g.sections = (g.ids.filter g.isLinked).map fun v =>
    ⟨g.nameOf v, g.names (g.dependencies v), g.names (g.dependentsOf v)⟩ := by
  have hlinked : g.ids.filter (g.isEnd ∘ g.nameOf) = g.ids.filter g.isLinked :=
    List.filter_congr fun v hv => isEnd_nameOf hg (mem_ids.mp hv)
  rw [sections, names, List.filter_map, hlinked, List.map_map]
  refine List.map_congr_left fun v hv => ?_
  exact sectionOf_nameOf hg (mem_ids.mp (List.mem_filter.mp hv).1)

end Edges

theorem text_section (g : Graph) (v : Nat) : Section.text
    ⟨g.nameOf v, g.names (g.dependencies v), g.names (g.dependentsOf v)⟩ = g.reportSection v := by
  apply String.toList_inj.mp
  simp [Section.text, reportSection, reportField]

theorem isEnd_fst {g : Graph} {edge : String × String} (h : edge ∈ g.edges) :
    g.isEnd edge.1 = true := by
  simpa [isEnd] using ⟨edge.1, edge.2, h, Or.inl rfl⟩

theorem isEnd_snd {g : Graph} {edge : String × String} (h : edge ∈ g.edges) :
    g.isEnd edge.2 = true := by
  simpa [isEnd] using ⟨edge.1, edge.2, h, Or.inr rfl⟩

section Sections

variable {g : Graph} (hg : g.WellFormed)
include hg

theorem mem_ends {edge : String × String} (h : edge ∈ g.edges) :
    edge.1 ∈ (g.names g.ids).filter g.isEnd ∧ edge.2 ∈ (g.names g.ids).filter g.isEnd := by
  obtain ⟨v, d, hd, hv, hname⟩ := (mem_edges_iff_dependencies hg).mp h
  have hfst : edge.1 ∈ g.names g.ids := mem_names_ids.mpr ⟨v, lt_size_of_mem_dependencies hd, hv⟩
  have hsnd : edge.2 ∈ g.names g.ids := mem_names_ids.mpr ⟨d, hg.lt_size hd, hname⟩
  exact ⟨List.mem_filter.mpr ⟨hfst, isEnd_fst h⟩, List.mem_filter.mpr ⟨hsnd, isEnd_snd h⟩⟩

theorem sections_eq_nil_iff : g.sections = [] ↔ g.edges = [] := by
  constructor
  · intro hnone
    by_contra he
    obtain ⟨edge, hedge⟩ := List.exists_mem_of_ne_nil _ he
    have hend := (mem_ends hg hedge).1
    rw [List.map_eq_nil_iff.mp hnone] at hend
    cases hend
  · intro he
    simp [sections, isEnd, he]

theorem report_eq : g.report = g.reportHeader ++
    if g.edges = [] then "*No dependency relationships detected.*\n"
    else String.join (g.sections.map Section.text) := by
  have hreport : g.report = g.reportHeader ++
      if g.ids.filter g.isLinked = [] then "*No dependency relationships detected.*\n"
      else String.join ((g.ids.filter g.isLinked).map g.reportSection) := rfl
  have hnone : g.ids.filter g.isLinked = [] ↔ g.edges = [] := by
    rw [← sections_eq_nil_iff hg, sections_eq hg, List.map_eq_nil_iff]
  have htexts : g.sections.map Section.text = (g.ids.filter g.isLinked).map g.reportSection := by
    rw [sections_eq hg, List.map_map]
    exact List.map_congr_left fun v _ => text_section g v
  simp only [hreport, htexts, hnone]

theorem flatMap_requires_sections :
    (g.sections.flatMap fun s => s.requires.map fun b => (s.name, b)) = g.edges := by
  have hrequires : ∀ a, (g.sectionOf a).requires.map (fun b => (a, b)) =
      (g.prerequisites a).map fun b => (a, b) := by
    intro a
    rw [sectionOf, filter_edges_fst hg, List.map_map, List.map_map]
    rfl
  have hother : ∀ a, (if g.isEnd a = true then (g.prerequisites a).map fun b => (a, b) else []) =
      (g.prerequisites a).map fun b => (a, b) := by
    intro a
    refine ite_eq_left_iff.mpr fun ha => ?_
    rw [← filter_edges_fst hg, eq_comm, List.filter_eq_nil_iff]
    intro edge hedge heq
    rw [decide_eq_true_eq] at heq
    exact ha (heq ▸ isEnd_fst hedge)
  rw [sections, List.flatMap_map, edges_eq_names hg]
  calc ((g.names g.ids).filter g.isEnd).flatMap
        (fun a => (g.sectionOf a).requires.map fun b => (a, b))
      = ((g.names g.ids).filter g.isEnd).flatMap fun a => (g.prerequisites a).map fun b => (a, b) :=
        by simp only [hrequires]
    _ = (g.names g.ids).flatMap fun a =>
        if g.isEnd a = true then (g.prerequisites a).map fun b => (a, b) else [] := by
        rw [flatMap_ite]
        simp only [Bool.decide_eq_true]
    _ = (g.names g.ids).flatMap fun a => (g.prerequisites a).map fun b => (a, b) :=
        List.flatMap_congr fun a _ => hother a

theorem flatMap_requiredBy_sections :
    (g.sections.flatMap fun s => s.requiredBy.map fun a => (a, s.name)).Perm g.edges := by
  have hrequiredBy : ∀ b, (g.sectionOf b).requiredBy.map (fun a => (a, b)) =
      g.edges.filter (·.2 = b) := by
    intro b
    rw [sectionOf, List.map_map]
    refine (List.map_congr_left fun edge hedge => ?_).trans (List.map_id _)
    exact Prod.ext rfl (of_decide_eq_true (List.mem_filter.mp hedge).2).symm
  rw [sections, List.flatMap_map]
  have hsections : (((g.names g.ids).filter g.isEnd).flatMap fun b =>
      (g.sectionOf b).requiredBy.map fun a => (a, b)) =
        ((g.names g.ids).filter g.isEnd).flatMap fun b => g.edges.filter (·.2 = b) :=
    List.flatMap_congr fun b _ => hrequiredBy b
  refine (List.Perm.of_eq hsections).trans ?_
  -- Both lists hold each edge once.
  rw [List.perm_ext_iff_of_nodup ?_ (nodup_edges hg)]
  · intro edge
    rw [List.mem_flatMap]
    constructor
    · rintro ⟨_, -, hedge⟩
      exact List.mem_of_mem_filter hedge
    · intro hedge
      exact ⟨edge.2, (mem_ends hg hedge).2, List.mem_filter.mpr ⟨hedge, decide_eq_true rfl⟩⟩
  · refine nodup_flatMap_of_key Prod.snd ?_ ((nodup_names_ids hg).filter _) ?_
    · intro b edge hedge
      exact of_decide_eq_true (List.mem_filter.mp hedge).2
    · intro b _
      exact (nodup_edges hg).filter _

theorem length_requires_sections : (g.sections.flatMap (·.requires)).length = g.edgeCount := by
  rw [← length_edges, ← flatMap_requires_sections hg, List.length_flatMap, List.length_flatMap]
  simp only [List.length_map]

theorem length_requiredBy_sections :
    (g.sections.flatMap (·.requiredBy)).length = g.edgeCount := by
  rw [← length_edges, ← (flatMap_requiredBy_sections hg).length_eq, List.length_flatMap,
    List.length_flatMap]
  simp only [List.length_map]

theorem nodup_requiredBy {s : Section} (hs : s ∈ g.sections) : s.requiredBy.Nodup := by
  obtain ⟨a, -, rfl⟩ := List.mem_map.mp hs
  rw [sectionOf, filter_edges_snd hg]
  exact (nodup_names_ids hg).filter _

theorem exists_node_of_mem_sections {s : Section} (hs : s ∈ g.sections) :
    ∃ v < g.size, s = ⟨g.nameOf v, g.names (g.dependencies v),
      g.names (g.ids.filter fun w => v ∈ g.dependencies w)⟩ := by
  rw [sections_eq hg] at hs
  obtain ⟨v, hv, rfl⟩ := List.mem_map.mp hs
  exact ⟨v, mem_ids.mp (List.mem_filter.mp hv).1, by rw [dependentsOf_eq_filter]⟩

/-- The sentence stands in the place of sections, none of which starts as it does. -/
theorem report_eq_sentence_iff :
    g.report = g.reportHeader ++ "*No dependency relationships detected.*\n" ↔ g.edges = [] := by
  rw [report_eq hg]
  split
  next he => simp [he]
  next he =>
    refine iff_of_false (fun heq => ?_) he
    obtain ⟨s, rest, hsections⟩ :=
      List.exists_cons_of_ne_nil (mt (sections_eq_nil_iff hg).mp he)
    have hstart := congrArg (·.toList.head?) (String.append_right_inj _ |>.mp heq)
    simp [hsections, Section.text] at hstart

end Sections

/-- The report of a graph is its header with the number of nodes and of edges, then a section for
each end of an edge, in insertion order. A section tells the names that its node requires as they
are stored, and the names of the nodes that require it, in insertion order and each once. So every
edge is told once from either end; a sentence takes the place of the sections if there is none. -/
theorem Reachable.report_faithful {g : Graph} (h : g.Reachable) :
    g.reportHeader = "# dependencies\n\n" ++ toString g.nodes.length ++ " files, " ++
      toString g.edges.length ++ " edges\n\n" ∧
    g.report = g.reportHeader ++ (if g.edges = [] then "*No dependency relationships detected.*\n"
      else String.join (g.sections.map Section.text)) ∧
    g.sections.map (·.name) =
      (g.names g.ids).filter (fun a => ∃ edge ∈ g.edges, edge.1 = a ∨ edge.2 = a) ∧
    (∀ s ∈ g.sections, s.requiredBy.Nodup ∧ ∃ v < g.size,
      s = ⟨g.nameOf v, g.names (g.dependencies v),
        g.names (g.ids.filter fun w => v ∈ g.dependencies w)⟩) ∧
    g.edges.Nodup ∧
    (g.sections.flatMap fun s => s.requires.map fun b => (s.name, b)) = g.edges ∧
    (g.sections.flatMap fun s => s.requiredBy.map fun a => (a, s.name)).Perm g.edges ∧
    (g.sections.flatMap (·.requires)).length = g.edgeCount ∧
    (g.sections.flatMap (·.requiredBy)).length = g.edgeCount ∧
    (g.report = g.reportHeader ++ "*No dependency relationships detected.*\n" ↔
      g.edges = []) := by
  have hg := h.wellFormed
  refine ⟨by rw [length_edges]; rfl, report_eq hg, ?_, fun s hs => ⟨nodup_requiredBy hg hs,
    exists_node_of_mem_sections hg hs⟩, nodup_edges hg, flatMap_requires_sections hg,
    flatMap_requiredBy_sections hg, length_requires_sections hg, length_requiredBy_sections hg,
    report_eq_sentence_iff hg⟩
  rw [sections, List.map_map]
  refine (List.map_id _).trans (List.filter_congr fun a _ => ?_)
  rw [isEnd, Bool.eq_iff_iff]
  simp only [List.any_eq_true, decide_eq_true_eq]

/-- A cycle is told at either end; a node without edges has no section. -/
theorem report_faithful_of_cycle :
    let g := ofLists [("a", [1]), ("b", [0, 3]), ("alone", []), ("c", [])]
    g.report = "# dependencies\n\n4 files, 3 edges\n\n" ++
      "## `a`\n\n**Requires:** b\n\n**Required by:** b\n\n" ++
      "## `b`\n\n**Requires:** a, c\n\n**Required by:** a\n\n" ++
      "## `c`\n\n**Requires:** (none - root)\n\n**Required by:** b\n\n" ∧
    (g.sections.flatMap (·.requiredBy)).length = 3 := by
  intro g
  obtain ⟨hheader, hreport, -, -, -, -, -, -, hlength, -⟩ :=
    Reachable.report_faithful (g := g) (reachable_ofLists _)
  have hsections : g.sections =
      [⟨"a", ["b"], ["b"]⟩, ⟨"b", ["a", "c"], ["a"]⟩, ⟨"c", [], ["b"]⟩] := by decide
  have hlinked : g.edges ≠ [] := by decide
  refine ⟨?_, hlength⟩
  rw [hreport, hheader, if_neg hlinked, hsections]
  decide +kernel

end Graph
end BuildOrder
