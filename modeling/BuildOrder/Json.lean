/-! JSON documents of strings, and their indented text. -/
namespace BuildOrder

inductive Json where
  | string (s : String)
  | array (items : List Json)
  /-- Members are written in the order given. -/
  | object (members : List (String × Json))

namespace Json

def hexDigit (n : Nat) : Char :=
  if n < 10 then Char.ofNat ('0'.toNat + n) else Char.ofNat ('a'.toNat + (n - 10))

/-- Only quotes, backslashes and control characters are escaped. -/
def escapeChar (c : Char) : List Char :=
  if c = '"' then ['\\', '"']
  else if c = '\\' then ['\\', '\\']
  else if c = '\x08' then ['\\', 'b']
  else if c = '\x09' then ['\\', 't']
  else if c = '\x0a' then ['\\', 'n']
  else if c = '\x0c' then ['\\', 'f']
  else if c = '\x0d' then ['\\', 'r']
  else if c.toNat < 0x20 then
    ['\\', 'u', '0', '0', hexDigit (c.toNat / 16), hexDigit (c.toNat % 16)]
  else [c]

def quote (s : String) : List Char :=
  '"' :: s.toList.flatMap escapeChar ++ ['"']

/-- A line break and two blanks per level. -/
def lineBreak (depth : Nat) : List Char :=
  '\n' :: List.replicate (2 * depth) ' '

/-- Items between brackets on lines of their own; without items, only the brackets. -/
def bracketed (opening closing : Char) (depth : Nat) (items : List (List Char)) : List Char :=
  if items = [] then [opening, closing]
  else
    let separator := ',' :: lineBreak (depth + 1)
    opening :: lineBreak (depth + 1) ++ separator.intercalate items ++ lineBreak depth ++ [closing]

mutual

def textAt (depth : Nat) : Json → List Char
  | string s => quote s
  | array items => bracketed '[' ']' depth (itemTexts (depth + 1) items)
  | object members => bracketed '\x7b' '\x7d' depth (memberTexts (depth + 1) members)

def itemTexts (depth : Nat) : List Json → List (List Char)
  | [] => []
  | item :: rest => textAt depth item :: itemTexts depth rest

def memberTexts (depth : Nat) : List (String × Json) → List (List Char)
  | [] => []
  | (key, value) :: rest =>
    (quote key ++ ':' :: ' ' :: textAt depth value) :: memberTexts depth rest

end

def text (json : Json) : String :=
  String.ofList (textAt 0 json)

def strings (items : List String) : Json :=
  array (items.map string)

end Json
end BuildOrder
