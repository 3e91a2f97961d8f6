import BuildOrder.Plan
import BuildOrder.Proofs.Json.Fields
import BuildOrder.Proofs.Json.Reader

/-! The text of a plan is read back as the plan, whatever the names in it are. -/
namespace BuildOrder

def Dialect.ofName? (name : String) : Option Dialect :=
  [Dialect.modules, Dialect.includes].find? (·.name = name)

/-- The finding that an object tells by its kind and its fields. -/
def Warning.ofJson? (json : Json) : Option Warning := do
  match ← json.stringMember? "kind" with
  | "unreadable" =>
    return .unreadable (← json.stringMember? "path") (← json.stringMember? "reason")
  | "missing_node" =>
    return .missingNode (← json.stringMember? "path") (← json.stringMember? "symbol")
      (← json.stringMember? "provider")
  | "duplicate_provider" =>
    return .duplicateProvider (← json.stringMember? "symbol") (← json.stringMember? "previous")
      (← json.stringMember? "current")
  | "duplicate_input" => return .duplicateInput (← json.stringMember? "path")
  | _ => none

def Requirement.toJson (edge : Requirement) : Json :=
  .object [("file", .string edge.file), ("depends_on", .string edge.dependsOn)]

def Requirement.ofJson? (json : Json) : Option Requirement := do
  return ⟨← json.stringMember? "file", ← json.stringMember? "depends_on"⟩

namespace Plan

/-- The time and the plan that a document tells. -/
def ofJson? (json : Json) : Option (String × Plan) := do
  let generatedAt ← json.stringMember? "generated_at"
  let dialects ← (← json.member? "dialects").list? fun item => item.string?.bind Dialect.ofName?
  let order ← (← json.member? "order").list? Json.string?
  let edges ← (← json.member? "edges").list? Requirement.ofJson?
  let warnings ← (← json.member? "warnings").list? Warning.ofJson?
  return (generatedAt, { dialects, order, edges, warnings })

def read? (text : String) : Option (String × Plan) :=
  (Json.read? text).bind ofJson?

end Plan

theorem Dialect.ofName?_name (dialect : Dialect) : Dialect.ofName? dialect.name = some dialect := by
  cases dialect <;> rfl

theorem Requirement.ofJson?_toJson (edge : Requirement) :
    Requirement.ofJson? edge.toJson = some edge :=
  rfl

theorem Warning.ofJson?_toJson (w : Warning) : Warning.ofJson? w.toJson = some w := by
  cases w <;> rfl

theorem Requirement.distinctNames_toJson (edge : Requirement) : edge.toJson.DistinctNames := by
  refine .object (by simp) fun member hmember => ?_
  simp only [List.mem_cons, List.not_mem_nil, or_false] at hmember
  rcases hmember with rfl | rfl
  · exact .string edge.file
  · exact .string edge.dependsOn

theorem Warning.distinctNames_toJson (w : Warning) : w.toJson.DistinctNames := by
  refine .object ?_ fun member hmember => ?_
  · cases w <;> simp [fields]
  · obtain ⟨field, -, rfl⟩ := List.mem_map.mp hmember
    exact .string field.2

namespace Plan

theorem ofJson?_toJson (generatedAt : String) (plan : Plan) :
    ofJson? (plan.toJson generatedAt) = some (generatedAt, plan) := by
  let document := plan.toJson generatedAt
  have htime : document.stringMember? "generated_at" = some generatedAt := rfl
  have hdialects : document.member? "dialects" =
      some (.array (plan.dialects.map fun dialect => .string dialect.name)) := by
    change some (Json.strings (plan.dialects.map (·.name))) = _
    rw [Json.strings, List.map_map]
    rfl
  have horder : document.member? "order" = some (.array (plan.order.map .string)) := rfl
  have hedges : document.member? "edges" = some (.array (plan.edges.map Requirement.toJson)) := rfl
  have hwarnings : document.member? "warnings" = some (.array (plan.warnings.map Warning.toJson)) :=
    rfl
  rw [ofJson?, htime, hdialects, horder, hedges, hwarnings]
  simp only [Option.bind_eq_bind, Option.bind_some]
  rw [Json.list?_map Dialect.ofName?_name, Json.list?_map Json.string?_string,
    Json.list?_map Requirement.ofJson?_toJson, Json.list?_map Warning.ofJson?_toJson]
  rfl

theorem distinctNames_toJson (generatedAt : String) (plan : Plan) :
    (plan.toJson generatedAt).DistinctNames := by
  refine .object (by simp) fun member hmember => ?_
  simp only [List.mem_cons, List.not_mem_nil, or_false] at hmember
  rcases hmember with rfl | rfl | rfl | rfl | rfl | rfl
  · exact .string version
  · exact .string generatedAt
  · exact Json.distinctNames_strings _
  · exact Json.distinctNames_strings _
  · exact .array (List.forall_mem_map.mpr fun edge _ => edge.distinctNames_toJson)
  · exact .array (List.forall_mem_map.mpr fun w _ => w.distinctNames_toJson)

theorem read?_text (generatedAt : String) (plan : Plan) :
    read? (plan.text generatedAt) = some (generatedAt, plan) := by
  have hjson : Json.read? (plan.text generatedAt) = some (plan.toJson generatedAt) :=
    Json.read?_of_isText (Json.isText_text (plan.toJson generatedAt))
  rw [read?, hjson, Option.bind_some, ofJson?_toJson]

/-- The text of a plan is well formed and is a text of one document only, in which no object has two
members of one name. It is read back as the time and the plan: the dialects of the groups, the
order, the edges and the findings with their kinds, each in its sequence. So plans that differ do
not have the same text, whenever they are made. -/
theorem text_lossless (generatedAt : String) (groups : List Group) (order : List String) :
    let plan := Plan.ofGroups groups order
    let text := plan.text generatedAt
    (∀ json : Json, json.IsText text ↔ json = plan.toJson generatedAt) ∧
      (plan.toJson generatedAt).DistinctNames ∧
      Plan.read? text = some (generatedAt,
        { dialects := groups.map (·.dialect)
          order
          edges := groups.flatMap fun group =>
            group.analysis.graph.edges.map fun (a, b) => ⟨a, b⟩
          warnings := groups.flatMap (·.analysis.warnings) }) ∧
      ∀ otherTime otherGroups otherOrder,
        (Plan.ofGroups otherGroups otherOrder).text otherTime = text ↔
          otherTime = generatedAt ∧ Plan.ofGroups otherGroups otherOrder = plan := by
  intro plan text
  have hread : Plan.read? text = some (generatedAt, plan) := read?_text generatedAt plan
  refine ⟨fun json => Json.isText_text_iff, distinctNames_toJson generatedAt plan, hread, ?_⟩
  intro otherTime otherGroups otherOrder
  constructor
  · intro heq
    have hother := read?_text otherTime (Plan.ofGroups otherGroups otherOrder)
    rw [heq, hread] at hother
    exact Prod.mk.inj (Option.some.inj hother.symm)
  · intro hsame
    obtain ⟨htime, hplan⟩ := hsame
    rw [htime, hplan]

end Plan
end BuildOrder
