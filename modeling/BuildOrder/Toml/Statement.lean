import BuildOrder.Toml.Moment

/-! The statements of a TOML text. -/
namespace BuildOrder.Toml

/-- The items of an array, after its opening bracket. A comma may follow the last one. -/
def arrayItems (item : Reader Value) (cs : List Char) : Option (List Value × List Char) :=
  match skipLines false cs with
  | ']' :: rest => some ([], rest)
  | start => do
    let (first, rest) ← item start
    match skipLines false rest with
    | ']' :: rest => some ([first], rest)
    | ',' :: rest =>
      if rest.length < cs.length then do
        let (more, rest) ← arrayItems item rest
        return (first :: more, rest)
      else none
    | _ => none
termination_by cs.length

def keyValue (item : Reader Value) : Reader (List String × Value) := fun cs => do
  let (path, rest) ← key cs
  let (value, rest) ← item (skipSpace (← after? "=" rest))
  return ((path, value), rest)

/-- The pairs of an inline table that has some, on one line and without a comma at the end. -/
def inlinePairs (item : Reader Value) (cs : List Char) :
    Option (List (List String × Value) × List Char) := do
  let (first, rest) ← keyValue item cs
  match skipSpace rest with
  | '\x7d' :: rest => some ([first], rest)
  | ',' :: rest =>
    if rest.length < cs.length then do
      let (more, rest) ← inlinePairs item rest
      return (first :: more, rest)
    else none
  | _ => none
termination_by cs.length

/-- An inline table, after its opening brace. -/
def inlineTable (item : Reader Value) : Reader Value := fun cs =>
  match skipSpace cs with
  | '\x7d' :: rest => some (.table .inline [], rest)
  | start => do
    let (pairs, rest) ← inlinePairs item start
    let entries ← pairs.foldlM (fun entries (path, value) => Entries.insert entries path value) []
    return (.table .inline entries, rest)

def boolean : Reader Value := fun cs =>
  ((after? "true" cs).map fun rest => (.boolean true, rest)).or
    ((after? "false" cs).map fun rest => (.boolean false, rest))

def scalar : Reader Value := fun cs =>
  ((text cs).map fun (s, rest) => (.string s, rest)).or <|
    (boolean cs).or <| (moment cs).or (number cs)

/-- A value with arrays and inline tables in each other up to a depth. -/
def value : Nat → Reader Value
  | 0, cs => scalar cs
  | depth + 1, cs =>
    match cs with
    | '[' :: rest => (arrayItems (value depth) rest).map fun (items, rest) => (.array items, rest)
    | '\x7b' :: rest => inlineTable (value depth) rest
    | _ => scalar cs

def maxDepth : Nat := 79

inductive Statement where
  | blank
  | keyValue (path : List String) (value : Value)
  /-- A header in brackets. -/
  | header (path : List String)
  /-- A header in double brackets. -/
  | elementHeader (path : List String)

/-- The statement on a line, with the end of the line. -/
def statement : Reader Statement := fun cs => do
  let start := skipSpace cs
  let (found, rest) ← match start with
    | '[' :: '[' :: rest => do
      let (path, rest) ← key rest
      pure (Statement.elementHeader path, ← after? "]]" rest)
    | '[' :: rest => do
      let (path, rest) ← key rest
      pure (Statement.header path, ← after? "]" rest)
    | [] | '#' :: _ | '\n' :: _ | '\r' :: _ => some (Statement.blank, start)
    | _ => do
      let ((path, v), rest) ← keyValue (value maxDepth) start
      pure (Statement.keyValue path v, rest)
  return (found, ← lineEnd? rest)

def statements (cs : List Char) : Option (List Statement) := do
  if cs.isEmpty then return []
  let (first, rest) ← statement cs
  if rest.length < cs.length then return first :: (← statements rest) else none
termination_by cs.length

end BuildOrder.Toml
