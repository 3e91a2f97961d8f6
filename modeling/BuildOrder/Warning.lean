import BuildOrder.Json

/-! Findings that do not stop an ordering. -/
namespace BuildOrder

inductive Warning where
  | unreadable (path reason : String)
  /-- The file at `path` requires a symbol whose provider is not in the graph. -/
  | missingNode (path symbol provider : String)
  | duplicateProvider (symbol previous current : String)
  | duplicateInput (path : String)
  deriving DecidableEq

namespace Warning

def message : Warning → String
  | unreadable path reason => "could not open " ++ path ++ ": " ++ reason
  | missingNode path symbol provider =>
    path ++ ": no node for " ++ provider ++ " (provides " ++ symbol ++ "), dependencies not wired"
  | duplicateProvider symbol previous current =>
    symbol ++ " is provided by both " ++ previous ++ " and " ++ current ++ ", using " ++ current
  | duplicateInput path => path ++ " listed more than once, keeping the first"

/-- The kind of a warning and its fields, in the order in which they are written. -/
def fields : Warning → List (String × String)
  | unreadable path reason => [("kind", "unreadable"), ("path", path), ("reason", reason)]
  | missingNode path symbol provider =>
    [("kind", "missing_node"), ("path", path), ("symbol", symbol), ("provider", provider)]
  | duplicateProvider symbol previous current =>
    [("kind", "duplicate_provider"), ("symbol", symbol), ("previous", previous),
      ("current", current)]
  | duplicateInput path => [("kind", "duplicate_input"), ("path", path)]

def toJson (w : Warning) : Json :=
  .object (w.fields.map fun (key, value) => (key, .string value))

end Warning
end BuildOrder
