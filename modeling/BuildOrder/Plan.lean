import BuildOrder.Order

/-! The JSON account of an ordering. -/
namespace BuildOrder

def version : String := "0.1.0"

/-- An edge between two files. -/
structure Requirement where
  file : String
  dependsOn : String
  deriving DecidableEq

structure Plan where
  dialects : List Dialect
  order : List String
  edges : List Requirement
  warnings : List Warning
  deriving DecidableEq

namespace Plan

def ofGroups (groups : List Group) (order : List String) : Plan where
  dialects := groups.map (·.dialect)
  order
  edges := groups.flatMap fun group => group.analysis.graph.edges.map fun (a, b) => ⟨a, b⟩
  warnings := groups.flatMap (·.analysis.warnings)

/-- The document of a plan made at the time `generatedAt`. -/
def toJson (generatedAt : String) (plan : Plan) : Json :=
  .object
    [("version", .string version),
      ("generated_at", .string generatedAt),
      ("dialects", .strings (plan.dialects.map (·.name))),
      ("order", .strings plan.order),
      ("edges", .array (plan.edges.map fun edge =>
        .object [("file", .string edge.file), ("depends_on", .string edge.dependsOn)])),
      ("warnings", .array (plan.warnings.map (·.toJson)))]

def text (generatedAt : String) (plan : Plan) : String :=
  (plan.toJson generatedAt).text

end Plan
end BuildOrder
