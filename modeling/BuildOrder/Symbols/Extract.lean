import BuildOrder.Dialect
import BuildOrder.Symbols.Basic
import BuildOrder.Text.Line

/-! The symbols of a source text, read off the two leading words of each line. -/
namespace BuildOrder.Symbols

open Text

/-- `module name` provides the name; `use name` requires what stands before the first comma. -/
def ofStatement (keyword operand : String) : Symbols :=
  if eqIgnoringAsciiCase keyword "module" then { provides := [upper operand] }
  else if eqIgnoringAsciiCase keyword "use" then
    let name := operand.toList.takeWhile (· ≠ ',')
    if name = [] then {} else { requires := [upper (String.ofList name)] }
  else {}

/-- An include name without the extension of its last part; its directories stay. -/
def withoutExtension (name : String) : String :=
  let isSeparator (c : Char) := c = '/' ∨ c = '\\'
  let reversed := name.toList.reverse
  let base := (reversed.takeWhile (¬ isSeparator ·)).reverse
  let directories := (reversed.dropWhile (¬ isSeparator ·)).reverse
  String.ofList (directories ++ (Path.splitExtension base).1)

/-- The name that an include operand holds between its delimiters. -/
def includeName (operand : String) : String :=
  upper (String.ofList (operand.toList.filter fun c => c ∉ ['"', '\'', '<', '>']))

/-- `#include name` requires the name. A file with the stem of that name provides it, so that a
header leads to the source that implements it. -/
def ofDirective (stem keyword operand : String) : Symbols :=
  let name := includeName operand
  if eqIgnoringAsciiCase keyword "#include" ∧ name ≠ "" then
    { provides := if withoutExtension name = stem then [name] else [], requires := [name] }
  else {}

/-- The symbols of one line of a file with the upper-case stem `stem`. -/
def ofLine (dialect : Dialect) (stem : String) (line : List Char) : Symbols :=
  match words line with
  | keyword :: operand :: _ =>
    match dialect with
    | .modules => ofStatement (String.ofList keyword) (String.ofList operand)
    | .includes => ofDirective stem (String.ofList keyword) (String.ofList operand)
  | _ => {}

/-- The symbols of the text `content` of the file `fileName`. -/
def ofText (dialect : Dialect) (fileName : String) (content : List Char) : Symbols :=
  let stem := upper ((Path.stem? fileName).getD "")
  collect ((lines content).map (ofLine dialect stem))

end BuildOrder.Symbols
