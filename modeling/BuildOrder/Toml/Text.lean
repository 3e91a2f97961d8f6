import BuildOrder.Toml.Reader

/-! TOML strings and keys. -/
namespace BuildOrder.Toml

def hexValue? (c : Char) : Option Nat :=
  if c.isDigit then some (c.toNat - '0'.toNat)
  else if 'a' ≤ c ∧ c ≤ 'f' then some (c.toNat - 'a'.toNat + 10)
  else if 'A' ≤ c ∧ c ≤ 'F' then some (c.toNat - 'A'.toNat + 10)
  else none

/-- A character as `count` hexadecimal digits. -/
def hexChar (count : Nat) : Reader Char := fun cs => do
  let digits ← (cs.take count).mapM hexValue?
  let code := digits.foldl (fun n d => 16 * n + d) 0
  if digits.length = count ∧ code.isValidChar then some (Char.ofNat code, cs.drop count) else none

/-- What stands after a backslash. -/
def escaped : Reader Char
  | 'b' :: rest => some ('\x08', rest)
  | 'f' :: rest => some ('\x0c', rest)
  | 'n' :: rest => some ('\n', rest)
  | 'r' :: rest => some ('\r', rest)
  | 't' :: rest => some ('\t', rest)
  | '"' :: rest => some ('"', rest)
  | '\\' :: rest => some ('\\', rest)
  | 'u' :: rest => hexChar 4 rest
  | 'U' :: rest => hexChar 8 rest
  | _ => none

/-- A character of a string in double quotes. -/
def basicChar : Reader Char
  | '\\' :: rest => escaped rest
  | c :: rest => if isPrintable c && c ≠ '"' then some (c, rest) else none
  | [] => none

/-- A character of a string in single quotes, which knows no escapes. -/
def literalChar : Reader Char
  | c :: rest => if isPrintable c && c ≠ '\'' then some (c, rest) else none
  | [] => none

/-- A string on one line, after its opening quote. -/
def quoted (quote : Char) (item : Reader Char) : Reader String := fun cs =>
  match many item cs with
  | (text, c :: rest) => if c = quote then some (String.ofList text, rest) else none
  | _ => none

/-- One or two quotes inside a string that three quotes end. -/
def innerQuotes (quote : Char) : Reader (List Char) := fun cs =>
  let run := cs.takeWhile (· = quote)
  if run.length = 1 ∨ run.length = 2 then some (run, cs.drop run.length) else none

def skipBreaks : List Char → List Char
  | [] => []
  | '\r' :: '\n' :: rest => skipBreaks rest
  | c :: rest => if c = ' ' || c = '\t' || c = '\n' then skipBreaks rest else c :: rest

/-- A backslash at the end of a line takes the blanks and line breaks after it away. -/
def lineContinuation : Reader (List Char)
  | '\\' :: rest => do
    let rest ← newline? (skipSpace rest)
    return ([], skipBreaks rest)
  | _ => none

def lineBreak : Reader (List Char) := fun cs =>
  (newline? cs).map fun rest => (['\n'], rest)

/-- A piece of a string of several lines. -/
def multilineItem (quote : Char) (item : Reader Char) : Reader (List Char) := fun cs =>
  (innerQuotes quote cs).or <| (lineBreak cs).or <|
    (item cs).map fun (c, rest) => ([c], rest)

/-- A string of several lines, after its opening quotes. A line break that comes first is left out,
and up to two quotes may stand before the closing ones. -/
def multiline (quote : Char) (item : Reader (List Char)) : Reader String := fun cs =>
  let (pieces, rest) := many item ((newline? cs).getD cs)
  let run := rest.takeWhile (· = quote)
  let extra := min (run.length - 3) 2
  if run.length < 3 then none
  else some (String.ofList (pieces.flatten ++ run.take extra), rest.drop (extra + 3))

def basicItem : Reader (List Char) := fun cs =>
  (lineContinuation cs).or (multilineItem '"' basicChar cs)

def text : Reader String
  | '"' :: '"' :: '"' :: rest => multiline '"' basicItem rest
  | '"' :: rest => quoted '"' basicChar rest
  | '\'' :: '\'' :: '\'' :: rest => multiline '\'' (multilineItem '\'' literalChar) rest
  | '\'' :: rest => quoted '\'' literalChar rest
  | _ => none

def isBareKeyChar (c : Char) : Bool :=
  c.isAlphanum || c = '_' || c = '-'

def simpleKey : Reader String
  | '"' :: rest => quoted '"' basicChar rest
  | '\'' :: rest => quoted '\'' literalChar rest
  | cs =>
    let name := cs.takeWhile isBareKeyChar
    if name = [] then none else some (String.ofList name, cs.drop name.length)

/-- A simple key with the blanks around it. -/
def keyPart : Reader String := fun cs =>
  (simpleKey (skipSpace cs)).map fun (part, rest) => (part, skipSpace rest)

/-- A key of fewer than 80 parts joined by dots. -/
def key : Reader (List String) := fun cs => do
  let (first, rest) ← keyPart cs
  let (more, rest) := many (fun cs => (after? "." cs).bind keyPart) rest
  if more.length + 1 < 80 then some (first :: more, rest) else none

end BuildOrder.Toml
