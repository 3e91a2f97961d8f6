import BuildOrder.Json
import BuildOrder.Toml.Text
import Mathlib.Data.List.Forall2

/-! Which texts a JSON document has: spellings of its tokens, with blanks between them as one likes.
The written text is one of them. -/
namespace BuildOrder.Json

inductive Token where
  | openArray
  | closeArray
  | openObject
  | closeObject
  | comma
  | colon
  | quoted (s : String)
  deriving DecidableEq

/-- The token that a single character is. -/
def Token.ofMark? : Char → Option Token
  | '[' => some .openArray
  | ']' => some .closeArray
  | '\x7b' => some .openObject
  | '\x7d' => some .closeObject
  | ',' => some .comma
  | ':' => some .colon
  | _ => none

mutual

def tokens : Json → List Token
  | string s => [.quoted s]
  | array items => .openArray :: [.comma].intercalate (itemTokens items) ++ [.closeArray]
  | object members => .openObject :: [.comma].intercalate (memberTokens members) ++ [.closeObject]

def itemTokens : List Json → List (List Token)
  | [] => []
  | item :: rest => tokens item :: itemTokens rest

def memberTokens : List (String × Json) → List (List Token)
  | [] => []
  | (key, value) :: rest => (.quoted key :: .colon :: tokens value) :: memberTokens rest

end

def isSpace (c : Char) : Bool :=
  c = ' ' || c = '\t' || c = '\n' || c = '\r'

/-- What a backslash and one more character stand for. -/
def unescape? : Char → Option Char
  | '"' => some '"'
  | '\\' => some '\\'
  | '/' => some '/'
  | 'b' => some '\x08'
  | 'f' => some '\x0c'
  | 'n' => some '\n'
  | 'r' => some '\r'
  | 't' => some '\t'
  | _ => none

/-- The code unit that four hexadecimal digits write. -/
def unit? (digits : List Char) : Option Nat := do
  let values ← digits.mapM Toml.hexValue?
  if digits.length = 4 then some (values.foldl (fun n d => 16 * n + d) 0) else none

def IsHighUnit (unit : Nat) : Prop :=
  0xD800 ≤ unit ∧ unit < 0xDC00

def IsLowUnit (unit : Nat) : Prop :=
  0xDC00 ≤ unit ∧ unit < 0xE000

instance (unit : Nat) : Decidable (IsHighUnit unit) :=
  inferInstanceAs (Decidable (_ ∧ _))

instance (unit : Nat) : Decidable (IsLowUnit unit) :=
  inferInstanceAs (Decidable (_ ∧ _))

/-- The code point of two code units that belong together. -/
def joinUnits (high low : Nat) : Nat :=
  0x10000 + (high - 0xD800) * 0x400 + (low - 0xDC00)

/-- The ways to write a character between quotes. -/
inductive SpellsChar : List Char → Char → Prop
  | plain {c : Char} (hc : 0x20 ≤ c.toNat) (hquote : c ≠ '"') (hescape : c ≠ '\\') :
      SpellsChar [c] c
  | escaped {e c : Char} (hc : unescape? e = some c) : SpellsChar ['\\', e] c
  | unit {digits : List Char} {c : Char} (hc : unit? digits = some c.toNat) :
      SpellsChar ('\\' :: 'u' :: digits) c
  | units {front back : List Char} {high low : Nat} {c : Char} (hfront : unit? front = some high)
      (hhigh : IsHighUnit high) (hback : unit? back = some low) (hlow : IsLowUnit low)
      (hc : c.toNat = joinUnits high low) :
      SpellsChar ('\\' :: 'u' :: front ++ '\\' :: 'u' :: back) c

/-- The ways to write tokens one after the other. -/
inductive Spells : List Char → List Token → Prop
  | nil : Spells [] []
  | space {c : Char} {text : List Char} {tokens : List Token} (hc : isSpace c = true)
      (h : Spells text tokens) : Spells (c :: text) tokens
  | mark {c : Char} {token : Token} {text : List Char} {tokens : List Token}
      (hc : Token.ofMark? c = some token) (h : Spells text tokens) :
      Spells (c :: text) (token :: tokens)
  | quoted {pieces : List (List Char)} {s : String} {text : List Char} {tokens : List Token}
      (hs : List.Forall₂ SpellsChar pieces s.toList) (h : Spells text tokens) :
      Spells ('"' :: pieces.flatten ++ '"' :: text) (.quoted s :: tokens)

/-- A text of a document, which is nothing but the document. -/
def IsText (json : Json) (text : String) : Prop :=
  Spells text.toList json.tokens

/-- Induction over a document: what holds of strings, and of an array and of an object if it holds
of what is in them, holds of every document. -/
@[elab_as_elim]
theorem induction_nested {motive : Json → Prop} (string : ∀ s, motive (.string s))
    (array : ∀ items, (∀ item ∈ items, motive item) → motive (.array items))
    (object : ∀ members, (∀ member ∈ members, motive member.2) → motive (.object members))
    (json : Json) : motive json :=
  @Json.rec motive (fun items => ∀ item ∈ items, motive item)
    (fun members => ∀ member ∈ members, motive member.2) (fun member => motive member.2)
    string array object
    (List.forall_mem_nil _)
    (fun _ _ hitem hrest => List.forall_mem_cons.mpr ⟨hitem, hrest⟩)
    (List.forall_mem_nil _)
    (fun _ _ hmember hrest => List.forall_mem_cons.mpr ⟨hmember, hrest⟩)
    (fun _ _ hvalue => hvalue) json

theorem itemTexts_eq_map (depth : Nat) (items : List Json) :
    itemTexts depth items = items.map (textAt depth) := by
  induction items with
  | nil => rfl
  | cons item rest ih => rw [itemTexts, ih, List.map_cons]

theorem memberTexts_eq_map (depth : Nat) (members : List (String × Json)) :
    memberTexts depth members =
      members.map fun member => quote member.1 ++ ':' :: ' ' :: textAt depth member.2 := by
  induction members with
  | nil => rfl
  | cons member rest ih => rw [memberTexts, ih, List.map_cons]

theorem itemTokens_eq_map (items : List Json) : itemTokens items = items.map tokens := by
  induction items with
  | nil => rfl
  | cons item rest ih => rw [itemTokens, ih, List.map_cons]

theorem memberTokens_eq_map (members : List (String × Json)) :
    memberTokens members =
      members.map fun member => .quoted member.1 :: .colon :: member.2.tokens := by
  induction members with
  | nil => rfl
  | cons member rest ih => rw [memberTokens, ih, List.map_cons]

theorem Spells.append {front back : List Char} {first second : List Token}
    (hfront : Spells front first) (hback : Spells back second) :
    Spells (front ++ back) (first ++ second) := by
  induction hfront with
  | nil => exact hback
  | space hc _ ih => exact .space hc ih
  | mark hc _ ih => exact .mark hc ih
  | quoted hs _ ih =>
    have h := Spells.quoted hs ih
    simpa only [List.cons_append, List.append_assoc] using h

theorem spells_lineBreak (depth : Nat) : Spells (lineBreak depth) [] := by
  unfold lineBreak
  refine .space rfl ?_
  induction 2 * depth with
  | zero => exact .nil
  | succ n ih => exact .space rfl ih

theorem spells_intercalate {separator : List Char} (hs : Spells separator [.comma])
    {texts : List (List Char)} {parts : List (List Token)} (h : List.Forall₂ Spells texts parts) :
    Spells (separator.intercalate texts) ([Token.comma].intercalate parts) := by
  induction h with
  | nil => exact .nil
  | @cons text part texts parts hfirst hrest ih =>
    cases hrest with
    | nil => simpa using hfirst
    | cons _ _ =>
      rw [List.intercalate_cons_cons, List.intercalate_cons_cons]
      exact (hfirst.append hs).append ih

theorem spells_bracketed {opening closing : Char} {first last : Token}
    (hopening : Token.ofMark? opening = some first) (hclosing : Token.ofMark? closing = some last)
    (depth : Nat) {texts : List (List Char)} {parts : List (List Token)}
    (h : List.Forall₂ Spells texts parts) :
    Spells (bracketed opening closing depth texts)
      (first :: [Token.comma].intercalate parts ++ [last]) := by
  have hend : Spells [closing] [last] := .mark hclosing .nil
  unfold bracketed
  split
  next hnone =>
    subst hnone
    cases h
    exact .mark hopening hend
  next =>
    have hseparator : Spells (',' :: lineBreak (depth + 1)) [.comma] :=
      .mark rfl (spells_lineBreak (depth + 1))
    have hitems := (spells_lineBreak (depth + 1)).append (spells_intercalate hseparator h)
    have hbody := (hitems.append (spells_lineBreak depth)).append hend
    simpa using Spells.mark hopening hbody

theorem unit?_control : ∀ n < 0x20,
    unit? ['0', '0', hexDigit (n / 16), hexDigit (n % 16)] = some n := by
  decide

theorem spellsChar_escapeChar (c : Char) : SpellsChar (escapeChar c) c := by
  unfold escapeChar
  split_ifs with hquote hescape h8 h9 ha hc hd hcontrol
  · rw [hquote]
    exact .escaped rfl
  · rw [hescape]
    exact .escaped rfl
  · rw [h8]
    exact .escaped rfl
  · rw [h9]
    exact .escaped rfl
  · rw [ha]
    exact .escaped rfl
  · rw [hc]
    exact .escaped rfl
  · rw [hd]
    exact .escaped rfl
  · exact .unit (unit?_control c.toNat hcontrol)
  · exact .plain (Nat.le_of_not_lt hcontrol) hquote hescape

theorem spells_quote (s : String) : Spells (quote s) [.quoted s] := by
  have hs : List.Forall₂ SpellsChar (s.toList.map escapeChar) s.toList := by
    rw [List.forall₂_map_left_iff, List.forall₂_same]
    exact fun c _ => spellsChar_escapeChar c
  exact .quoted hs .nil

theorem spells_textAt (json : Json) (depth : Nat) : Spells (textAt depth json) json.tokens := by
  induction json using induction_nested generalizing depth with
  | string s => exact spells_quote s
  | array items ih =>
    rw [textAt, tokens, itemTexts_eq_map, itemTokens_eq_map]
    refine spells_bracketed rfl rfl depth ?_
    rw [List.forall₂_map_left_iff, List.forall₂_map_right_iff, List.forall₂_same]
    exact fun item hitem => ih item hitem (depth + 1)
  | object members ih =>
    rw [textAt, tokens, memberTexts_eq_map, memberTokens_eq_map]
    refine spells_bracketed rfl rfl depth ?_
    rw [List.forall₂_map_left_iff, List.forall₂_map_right_iff, List.forall₂_same]
    intro member hmember
    have hvalue : Spells (':' :: ' ' :: textAt (depth + 1) member.2) (.colon :: member.2.tokens) :=
      .mark rfl (.space rfl (ih member hmember (depth + 1)))
    exact (spells_quote member.1).append hvalue

theorem isText_text (json : Json) : json.IsText json.text := by
  unfold IsText text
  rw [String.toList_ofList]
  exact spells_textAt json 0

end BuildOrder.Json
