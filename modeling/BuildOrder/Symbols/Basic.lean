/-! The symbols that one source file provides and requires. -/
namespace BuildOrder

structure Symbols where
  provides : List String := []
  requires : List String := []
  deriving DecidableEq

namespace Symbols

/-- `xs` with `x` at its end, unless it is there already. -/
def appendNew (xs : List String) (x : String) : List String :=
  if x ∈ xs then xs else xs ++ [x]

def addProvided (s : Symbols) (symbol : String) : Symbols :=
  { s with provides := appendNew s.provides symbol }

def addRequired (s : Symbols) (symbol : String) : Symbols :=
  { s with requires := appendNew s.requires symbol }

/-- All symbols of the parts, each at its first occurrence. -/
def collect (parts : List Symbols) : Symbols where
  provides := (parts.flatMap (·.provides)).eraseDups
  requires := (parts.flatMap (·.requires)).eraseDups

end Symbols
end BuildOrder
