import BuildOrder.Text.Case

/-! Which file provides a symbol. -/
namespace BuildOrder

/-- Upper-case symbols with their providers, the latest first. -/
structure Registry where
  bindings : List (String × String) := []
  deriving DecidableEq

namespace Registry

def provider? (r : Registry) (symbol : String) : Option String :=
  r.bindings.lookup (Text.upper symbol)

/-- Makes `path` the provider of `symbol`; a different provider that it displaces is returned. -/
def register (r : Registry) (symbol path : String) : Registry × Option String :=
  (⟨(Text.upper symbol, path) :: r.bindings⟩, (r.provider? symbol).filter (· ≠ path))

end Registry
end BuildOrder
