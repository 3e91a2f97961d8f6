import BuildOrder.Ignore.Glob

/-! Globs written as regular expressions, and the limit on their nesting. -/
namespace BuildOrder.Ignore

/-- Characters with a meaning in expressions have a backslash before them, and bytes outside ASCII
are written in hexadecimal digits. -/
def byteText (b : UInt8) : List Char :=
  let n := b.toNat
  if n ≥ 128 then ['\\', 'x', Nat.digitChar (n / 16), Nat.digitChar (n % 16)]
  else if "\\.+*?()|[]\x7b\x7d^$#&-~".toList.contains (Char.ofNat n) then ['\\', Char.ofNat n]
  else [Char.ofNat n]

def rangeText (range : UInt8 × UInt8) : List Char :=
  if range.1 = range.2 then byteText range.1 else byteText range.1 ++ '-' :: byteText range.2

namespace ByteSet

def text : ByteSet → List Char
  | any => ['.']
  | single b => byteText b
  | ranges negated rs =>
    '[' :: (if negated then ['^'] else []) ++ rs.flatMap rangeText ++ [']']

/-- Brackets are a level, and several ranges between them one more. -/
def nesting : ByteSet → Nat
  | any | single _ => 0
  | ranges _ [_] => 1
  | ranges _ _ => 2

end ByteSet

namespace Pattern

def text : Pattern → List Char
  | empty => []
  | one set => set.text
  | optional set => set.text ++ ['?']
  | many set => set.text ++ ['*']
  | seq p q => p.text ++ q.text
  | either p q => p.text ++ '|' :: q.text
  | group p => ['(', '?', ':'] ++ p.text ++ [')']

/-- A chain of patterns. -/
inductive Chain where
  | seq
  | either
  deriving DecidableEq

/-- The levels of an expression in a chain: repetitions and groups are one each, and so are all the
links of a chain together. -/
def nestingIn (chain : Option Chain) : Pattern → Nat
  | empty => 0
  | one set => set.nesting
  | optional set | many set => set.nesting + 1
  | seq p q =>
    max (p.nestingIn (some .seq)) (q.nestingIn (some .seq)) + if chain = some .seq then 0 else 1
  | either p q =>
    max (p.nestingIn (some .either)) (q.nestingIn (some .either)) +
      if chain = some .either then 0 else 1
  | group p => p.nestingIn none + 1

end Pattern

namespace Glob

/-- The expression for whole paths, seen as bytes. -/
def text (glob : Glob) : List Char :=
  "(?-u)^".toList ++ glob.pattern.text ++ ['$']

/-- With its anchors an expression is a chain. -/
def nesting (glob : Glob) : Nat :=
  glob.pattern.nestingIn (some .seq) + 1

/-- Expressions with more levels are refused. -/
def nestingLimit : Nat := 250

def Token.isLiteral : Token → Bool
  | literal _ => true
  | _ => false

/-- Whether a token continues a file extension. -/
def Token.isExtensionPart : Token → Bool
  | literal c => c ≠ '.' && c ≠ '/'
  | _ => false

/-- How the matches of a glob are found. -/
inductive Search where
  /-- By comparing texts. -/
  | text
  /-- By an expression, for paths that end in the same extension. -/
  | extension
  | expression
  deriving DecidableEq

def search (glob : Glob) : Search :=
  let comparesTexts := match glob.tokens with
    | .directoriesFirst :: .star :: .literal '.' :: rest => rest.all Token.isExtensionPart
    | .directoriesFirst :: rest => !rest.isEmpty && rest.all Token.isLiteral
    | tokens => !tokens.isEmpty && tokens.all Token.isLiteral
  if comparesTexts then .text
  else
    match glob.tokens.reverse.dropWhile Token.isExtensionPart with
    | .literal '.' :: _ => .extension
    | _ => .expression

end Glob

/-- An expression that is refused for its nesting. -/
inductive DeepExpression where
  | alone (text : List Char)
  /-- The number that an expression has in a set. -/
  | inSet (index : Nat)
  deriving DecidableEq

namespace DeepExpression

def message : DeepExpression → String
  | alone text => "error parsing glob '" ++ String.ofList text ++ "': error parsing pattern 0"
  | inSet index => "error parsing pattern " ++ toString index

/-- The first refused expression for some globs. Those for an extension stand alone, the others
form a set after them. -/
def find? (globs : List Glob) : Option DeepExpression :=
  let isDeep (glob : Glob) : Bool := glob.nesting > Glob.nestingLimit
  match (globs.filter (·.search = .extension)).find? isDeep with
  | some glob => some (alone glob.text)
  | none => ((globs.filter (·.search = .expression)).findIdx? isDeep).map inSet

end DeepExpression
end BuildOrder.Ignore
