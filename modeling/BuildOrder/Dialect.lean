import BuildOrder.Path
import BuildOrder.Text.Case

/-! Source dialects and the file extensions that tell them. -/
namespace BuildOrder

/-- How a file states what it provides and requires. -/
inductive Dialect where
  /-- `module` declarations and `use` statements. -/
  | modules
  /-- `#include` directives. -/
  | includes
  deriving DecidableEq

def Dialect.name : Dialect → String
  | .modules => "module"
  | .includes => "include"

/-- The extensions of each dialect, without the dot. -/
structure Extensions where
  modules : List String := ["f", "for", "f90", "f95", "f03", "f08", "fpp"]
  includes : List String := ["c", "cc", "cpp", "cxx", "h", "hh", "hpp", "hxx"]
  deriving DecidableEq

/-- The dialect of a path by its lower-cased extension. An entry for the module dialect goes
before one for the include dialect. -/
def Dialect.ofPath? (extensions : Extensions) (path : String) : Option Dialect :=
  (Path.extension? path).bind fun extension =>
    let listed (entries : List String) :=
      entries.any (Text.eqIgnoringAsciiCase · (Text.lower extension))
    if listed extensions.modules then some .modules
    else if listed extensions.includes then some .includes
    else none

end BuildOrder
