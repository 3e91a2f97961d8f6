import BuildOrder.Text.CaseTable
import BuildOrder.Text.CaseProperty

/-! Upper and lower case of text, by the full Unicode mappings. -/
namespace BuildOrder.Text

/-- The mapping of a code point by ranges and expansions; one outside both is left alone. -/
def mapCode (ranges : List CaseRange) (expansions : List (Nat × List Nat)) (n : Nat) : List Nat :=
  match expansions.lookup n with
  | some codes => codes
  | none =>
    match ranges.findSome? (·.map? n) with
    | some code => [code]
    | none => [n]

def upperChar (c : Char) : List Char :=
  if c.toNat < 0x80 then [c.toUpper]
  else (mapCode upperRanges upperExpansions c.toNat).map Char.ofNat

def lowerChar (c : Char) : List Char :=
  if c.toNat < 0x80 then [c.toLower]
  else (mapCode lowerRanges lowerExpansions c.toNat).map Char.ofNat

def upper (s : String) : String :=
  String.ofList (s.toList.flatMap upperChar)

/-- Whether the first character that is not case-ignorable is cased. -/
def leadsToCased (cs : List Char) : Bool :=
  ((cs.dropWhile isCaseIgnorable).head?.map isCased).getD false

/-- Lower case of `cs` after the characters `before`, the nearest first. A capital sigma that ends
a word has the final form. -/
def lowerAfter (before : List Char) : List Char → List Char
  | [] => []
  | c :: rest =>
    let lowered :=
      if c = 'Σ' then
        if leadsToCased before && !leadsToCased rest then ['ς'] else ['σ']
      else lowerChar c
    lowered ++ lowerAfter (c :: before) rest

def lower (s : String) : String :=
  String.ofList (lowerAfter [] s.toList)

/-- Equality up to the case of ASCII letters; other letters are compared as they are. -/
def eqIgnoringAsciiCase (s t : String) : Bool :=
  s.toList.map Char.toLower == t.toList.map Char.toLower

end BuildOrder.Text
