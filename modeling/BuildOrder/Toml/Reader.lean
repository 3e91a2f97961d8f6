/-! Readers of TOML text: what they find at the beginning, and the rest. -/
namespace BuildOrder.Toml

abbrev Reader (α : Type) := List Char → Option (α × List Char)

/-- As many items as there are. An item that takes no text ends the run. -/
def many {α : Type} (item : Reader α) (cs : List Char) : List α × List Char :=
  match item cs with
  | none => ([], cs)
  | some (a, rest) =>
    if rest.length < cs.length then
      let (more, rest) := many item rest
      (a :: more, rest)
    else ([], cs)
termination_by cs.length

/-- The rest after a fixed text. -/
def after? (text : String) (cs : List Char) : Option (List Char) :=
  if text.toList.isPrefixOf cs then some (cs.drop text.length) else none

def skipSpace (cs : List Char) : List Char :=
  cs.dropWhile fun c => c = ' ' || c = '\t'

/-- The rest after a line break, which a carriage return may begin. -/
def newline? : List Char → Option (List Char)
  | '\n' :: rest => some rest
  | '\r' :: '\n' :: rest => some rest
  | _ => none

/-- No control character but the tab. -/
def isPrintable (c : Char) : Bool :=
  c = '\t' || (0x20 ≤ c.toNat && c.toNat ≠ 0x7F)

def skipComment : List Char → List Char
  | '#' :: rest => rest.dropWhile isPrintable
  | cs => cs

/-- The rest after the end of a line: blanks, a comment, and a line break or the end of the text. -/
def lineEnd? (cs : List Char) : Option (List Char) :=
  match skipComment (skipSpace cs) with
  | [] => some []
  | rest => newline? rest

/-- Skips blanks, line breaks and comments; `inComment` tells whether a comment is open. -/
def skipLines (inComment : Bool) : List Char → List Char
  | [] => []
  | '\n' :: rest => skipLines false rest
  | '\r' :: '\n' :: rest => skipLines false rest
  | c :: rest =>
    if inComment && isPrintable c then skipLines true rest
    else if !inComment && (c = ' ' || c = '\t') then skipLines false rest
    else if !inComment && c = '#' then skipLines true rest
    else c :: rest

end BuildOrder.Toml
