import BuildOrder.Ignore.Expression
import BuildOrder.Text.Line
import BuildOrder.Text.Utf8

/-! Rules of ignore files. -/
namespace BuildOrder.Ignore

/-- A line of an ignore file. The glob is matched with a path relative to the file. -/
structure Rule where
  /-- Whether the rule keeps what it matches. -/
  keeps : Bool
  directoriesOnly : Bool
  glob : Glob
  deriving DecidableEq

/-- What a line holds besides blanks at its end, unless it is a comment or empty. A backslash keeps
a blank at the end. -/
def significant (line : List Char) : Option (List Char) :=
  let trimmed :=
    if ['\\', ' '].isSuffixOf line then line else (line.reverse.dropWhile Text.isBlank).reverse
  if line.head? = some '#' ∨ trimmed = [] then none else some trimmed

/-- The glob that a rule without a slash at its end is matched by: without another slash it may
match at any depth, and what lies below a directory does not include the directory. -/
def globText (anchored : Bool) (text : List Char) : List Char :=
  let deep := if anchored || '/' ∈ text || text = "**".toList then text else "**/".toList ++ text
  if "/**".toList.isSuffixOf deep then deep ++ "/*".toList else deep

namespace Rule

def parse (text : List Char) : Except GlobError Rule :=
  let (keeps, anchored, body) := match text with
    | '\\' :: '!' :: rest => (false, false, '!' :: rest)
    | '\\' :: '#' :: rest => (false, false, '#' :: rest)
    | '!' :: '/' :: rest => (true, true, rest)
    | '!' :: rest => (true, false, rest)
    | '/' :: rest => (false, true, rest)
    | other => (false, false, other)
  let directoriesOnly := body.getLast? = some '/'
  let body := if directoriesOnly then body.dropLast else body
  let body := if directoriesOnly ∧ body.getLast? = some '\\' then body.dropLast else body
  (Glob.parse (globText anchored body)).map fun glob => ⟨keeps, directoriesOnly, glob⟩

def applies (rule : Rule) (path : List UInt8) (isDirectory : Bool) : Bool :=
  (!rule.directoriesOnly || isDirectory) && rule.glob.pattern.accepts path

end Rule

/-- What is wrong with an ignore file. -/
inductive Defect where
  | badGlob (line : Nat) (text : List Char) (cause : GlobError)
  | notText (line : Nat)
  | tooDeep (expression : DeepExpression)
  deriving DecidableEq

/-- The message about the file at a path. -/
def Defect.message (path : String) : Defect → String
  | badGlob line text cause =>
    path ++ ": line " ++ toString line ++ ": error parsing glob '" ++ String.ofList text ++ "': " ++
      cause.message
  | notText line => path ++ ": line " ++ toString line ++ ": " ++ Text.Utf8.malformedMessage
  | tooDeep expression => expression.message

/-- The rules of an ignore file, and its defects. -/
structure RuleFile where
  rules : List Rule
  defects : List Defect
  deriving DecidableEq

namespace RuleFile

def empty : RuleFile := ⟨[], []⟩

/-- The lines before the first malformed one, and whether there is a malformed one. -/
def textLines (bytes : List UInt8) : List (List Char) × Bool :=
  let pieces := Text.Utf8.pieces bytes
  let text := (pieces.takeWhile (·.isSome)).filterMap id
  if pieces.all (·.isSome) then (Text.lines text, false)
  else (Text.lines (text.reverse.dropWhile (· ≠ '\n')).reverse, true)

def addLine (file : RuleFile) (line : List Char) (number : Nat) : RuleFile :=
  match significant line with
  | none => file
  | some text =>
    match Rule.parse text with
    | .ok rule => { file with rules := file.rules ++ [rule] }
    | .error cause => { file with defects := file.defects ++ [.badGlob number text cause] }

/-- Reads an ignore file up to its first malformed line. Byte order marks at the beginning are
passed over. -/
def readLines (bytes : List UInt8) : RuleFile :=
  let (lines, isCut) := textLines bytes
  let lines := match lines with
    | first :: rest => first.dropWhile (· = '\uFEFF') :: rest
    | [] => []
  let file := lines.zipIdx.foldl (fun file (line, index) => file.addLine line (index + 1)) empty
  if isCut then { file with defects := file.defects ++ [.notText (lines.length + 1)] } else file

/-- A glob that is nested too deep takes the other rules with it. The defects are those worth a
report: a malformed line alone is none. -/
def parse (bytes : List UInt8) : RuleFile :=
  let file := readLines bytes
  let defects := match file.defects with
    | [.notText _] => []
    | defects => defects
  match DeepExpression.find? (file.rules.map (·.glob)) with
  | some expression => ⟨[], defects ++ [.tooDeep expression]⟩
  | none => ⟨file.rules, defects⟩

/-- Whether the last rule that applies keeps the path, if one applies. -/
def keeps? (file : RuleFile) (path : List UInt8) (isDirectory : Bool) : Option Bool :=
  (file.rules.reverse.find? fun rule => rule.applies path isDirectory).map (·.keeps)

end RuleFile
end BuildOrder.Ignore
