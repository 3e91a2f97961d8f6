import BuildOrder.Path
import BuildOrder.Text.Case
import BuildOrder.Text.Line

/-! Where the ignore file of a user is. -/
namespace BuildOrder.Ignore.User

def trim (text : List Char) : List Char :=
  ((text.dropWhile Text.isBlank).reverse.dropWhile Text.isBlank).reverse

/-- A value without the quotes around it. -/
def unquoted (value : List Char) : List Char :=
  let opened := if value.head? = some '"' then trim (value.drop 1) else value
  if opened.getLast? = some '"' then trim opened.dropLast else opened

/-- The file that the first setting `excludesfile` of a configuration of git names. A tilde stands
for the home directory. -/
def excludesFile? (home : String) (config : List Char) : Option String :=
  (Text.lines config).findSome? fun line =>
    let name := trim (line.takeWhile (· ≠ '='))
    let file := unquoted (trim ((line.dropWhile (· ≠ '=')).drop 1))
    if Text.eqIgnoringAsciiCase (String.ofList name) "excludesfile" ∧ file ≠ [] ∧
        ¬file.any Text.isBlank then
      some (String.ofList (file.flatMap fun c => if c = '~' then home.toList else [c]))
    else none

/-- The ignore file of a user, after the configurations of git that are there, the first one first.
`configHome` is the directory of configurations. -/
def ruleFile (home configHome : String) (configs : List (List Char)) : String :=
  (configs.findSome? (excludesFile? home)).getD
    (Path.join (Path.join configHome "git") "ignore")

end BuildOrder.Ignore.User
