import BuildOrder.Proofs.Json.Spelling

/-! A reader of JSON documents: a scanner that finds the tokens of a text, character by character,
and a parser that goes over the tokens with a stack of what is still open. Each text of a document
is read as this document, so a text has one document at most. -/
namespace BuildOrder.Json

/-- Where a scanner stands: between tokens, or in a string of which it has read `s`. A code unit
that needs a second one is kept as `high` until that is read. -/
inductive Place where
  | between
  | inside (s : List Char) (high : Option Nat)
  | escape (s : List Char) (high : Option Nat)
  | digits (s : List Char) (high : Option Nat) (digits : List Char)
  deriving DecidableEq

structure Scan where
  tokens : List Token
  place : Place

/-- The place after a code unit. -/
def Place.afterUnit? (s : List Char) (high : Option Nat) (unit : Nat) : Option Place :=
  match high with
  | none =>
    if IsHighUnit unit then some (.inside s (some unit))
    else if unit.isValidChar then some (.inside (s ++ [Char.ofNat unit]) none)
    else none
  | some high =>
    if IsLowUnit unit then some (.inside (s ++ [Char.ofNat (joinUnits high unit)]) none) else none

def Scan.step (scan : Scan) (c : Char) : Option Scan :=
  match scan.place with
  | .between =>
    if isSpace c then some scan
    else if c = '"' then some { scan with place := .inside [] none }
    else (Token.ofMark? c).map fun token => { scan with tokens := scan.tokens ++ [token] }
  | .inside s high =>
    if c = '\\' then some { scan with place := .escape s high }
    else if high ≠ none ∨ c.toNat < 0x20 then none
    else if c = '"' then some ⟨scan.tokens ++ [.quoted (String.ofList s)], .between⟩
    else some { scan with place := .inside (s ++ [c]) none }
  | .escape s high =>
    if c = 'u' then some { scan with place := .digits s high [] }
    else if high ≠ none then none
    else (unescape? c).map fun c => { scan with place := .inside (s ++ [c]) none }
  | .digits s high digits =>
    if digits.length < 3 then some { scan with place := .digits s high (digits ++ [c]) }
    else ((unit? (digits ++ [c])).bind (Place.afterUnit? s high)).map fun place =>
      { scan with place }

def scan? (text : List Char) : Option (List Token) := do
  let scan ← text.foldlM Scan.step ⟨[], .between⟩
  if scan.place = .between then some scan.tokens else none

/-- An array or an object that is still open, with what has been read of it. -/
inductive Frame where
  | items (read : List Json)
  | members (read : List (String × Json)) (name : String)

/-- What a parser waits for. -/
inductive Parse where
  | value (stack : List Frame)
  /-- The first item of an array or its end. -/
  | items (stack : List Frame)
  /-- The first key of an object or its end. -/
  | members (stack : List Frame)
  | key (read : List (String × Json)) (stack : List Frame)
  | colon (read : List (String × Json)) (name : String) (stack : List Frame)
  /-- What may come after a whole document. -/
  | more (json : Json) (stack : List Frame)

/-- A document begins. -/
def Parse.start (stack : List Frame) : Token → Option Parse
  | .quoted s => some (.more (.string s) stack)
  | .openArray => some (.items stack)
  | .openObject => some (.members stack)
  | _ => none

/-- A document that is part of another has ended. -/
def Parse.goOn (json : Json) : List Frame → Token → Option Parse
  | .items read :: stack, .comma => some (.value (.items (read ++ [json]) :: stack))
  | .items read :: stack, .closeArray => some (.more (.array (read ++ [json])) stack)
  | .members read name :: stack, .comma => some (.key (read ++ [(name, json)]) stack)
  | .members read name :: stack, .closeObject =>
    some (.more (.object (read ++ [(name, json)])) stack)
  | _, _ => none

def Parse.step : Parse → Token → Option Parse
  | .value stack, token => start stack token
  | .items stack, .closeArray => some (.more (.array []) stack)
  | .items stack, token => start (.items [] :: stack) token
  | .members stack, .closeObject => some (.more (.object []) stack)
  | .members stack, .quoted name => some (.colon [] name stack)
  | .key read stack, .quoted name => some (.colon read name stack)
  | .colon read name stack, .colon => some (.value (.members read name :: stack))
  | .more json stack, token => goOn json stack token
  | _, _ => none

def parse? (tokens : List Token) : Option Json :=
  match tokens.foldlM Parse.step (.value []) with
  | some (.more json []) => some json
  | _ => none

def read? (text : String) : Option Json :=
  (scan? text.toList).bind parse?

theorem Place.afterUnit?_toNat (s : List Char) (c : Char) :
    Place.afterUnit? s none c.toNat = some (.inside (s ++ [c]) none) := by
  have hvalid : c.toNat.isValidChar := c.valid
  have hhigh : ¬ IsHighUnit c.toNat := by
    unfold IsHighUnit
    unfold Nat.isValidChar at hvalid
    omega
  rw [Place.afterUnit?, if_neg hhigh, if_pos hvalid, Char.ofNat_toNat]

theorem foldlM_step_digits (ts : List Token) (s : List Char) (high : Option Nat)
    {digits : List Char} {unit : Nat} (h : unit? digits = some unit) :
    digits.foldlM Scan.step ⟨ts, .digits s high []⟩ =
      (Place.afterUnit? s high unit).map fun place => ⟨ts, place⟩ := by
  have hlength : digits.length = 4 := by
    unfold unit? at h
    by_contra hne
    simp [hne] at h
  obtain ⟨a, b, c, d, rfl⟩ : ∃ a b c d, digits = [a, b, c, d] := List.length_eq_four.mp hlength
  simp [Scan.step, h]

/-- Each way to write a character is read as this character. -/
theorem foldlM_step_char (ts : List Token) (s : List Char) {piece : List Char} {c : Char}
    (h : SpellsChar piece c) :
    piece.foldlM Scan.step ⟨ts, .inside s none⟩ = some ⟨ts, .inside (s ++ [c]) none⟩ := by
  have hunit : ∀ high rest, ('\\' :: 'u' :: rest).foldlM Scan.step ⟨ts, .inside s high⟩ =
      rest.foldlM Scan.step ⟨ts, .digits s high []⟩ := by
    intro high rest
    simp [Scan.step]
  cases h with
  | plain hc hquote hescape =>
    have hnot : ¬ c.toNat < 0x20 := Nat.not_lt.mpr hc
    simp [Scan.step, hquote, hescape, hnot]
  | @escaped e _ hc =>
    have hu : e ≠ 'u' := by
      intro heq
      subst heq
      cases hc
    simp [Scan.step, hu, hc]
  | unit hc =>
    rw [hunit, foldlM_step_digits ts s none hc, Place.afterUnit?_toNat]
    rfl
  | @units front back high low _ hfront hhigh hback hlow hc =>
    have hplace : Place.afterUnit? s none high = some (.inside s (some high)) := if_pos hhigh
    have hpair : Place.afterUnit? s (some high) low = some (.inside (s ++ [c]) none) := by
      rw [Place.afterUnit?, if_pos hlow, ← hc, Char.ofNat_toNat]
    rw [List.cons_append, List.cons_append, hunit, List.foldlM_append,
      foldlM_step_digits ts s none hfront, hplace]
    simp only [Option.map_some, Option.bind_eq_bind, Option.bind_some]
    rw [hunit, foldlM_step_digits ts s (some high) hback, hpair]
    rfl

theorem foldlM_step_chars (ts : List Token) {pieces : List (List Char)} {chars : List Char}
    (h : List.Forall₂ SpellsChar pieces chars) (s : List Char) :
    pieces.flatten.foldlM Scan.step ⟨ts, .inside s none⟩ =
      some ⟨ts, .inside (s ++ chars) none⟩ := by
  induction h generalizing s with
  | nil => simp
  | cons hc _ ih =>
    rw [List.flatten_cons, List.foldlM_append, foldlM_step_char ts s hc]
    simp [ih]

theorem foldlM_step_spells {text : List Char} {tokens : List Token} (h : Spells text tokens)
    (ts : List Token) :
    text.foldlM Scan.step ⟨ts, .between⟩ = some ⟨ts ++ tokens, .between⟩ := by
  induction h generalizing ts with
  | nil => simp
  | space hc _ ih => simp [Scan.step, hc, ih]
  | @mark c token _ _ hc _ ih =>
    have hspace : isSpace c = false := by
      by_contra hblank
      simp only [isSpace, Bool.not_eq_false, Bool.or_eq_true, decide_eq_true_eq] at hblank
      rcases hblank with ((rfl | rfl) | rfl) | rfl <;> cases hc
    have hquote : c ≠ '"' := by
      intro heq
      subst heq
      cases hc
    simp [Scan.step, hspace, hquote, hc, ih]
  | @quoted pieces s text tokens hs _ ih =>
    have hopen : Scan.step ⟨ts, .between⟩ '"' = some ⟨ts, .inside [] none⟩ := rfl
    have hclose : Scan.step ⟨ts, .inside s.toList none⟩ '"' = some ⟨ts ++ [.quoted s], .between⟩ := by
      simp [Scan.step]
    rw [List.cons_append, List.foldlM_cons, hopen]
    simp only [Option.bind_eq_bind, Option.bind_some]
    rw [List.foldlM_append, foldlM_step_chars ts hs, List.nil_append]
    simp only [Option.bind_eq_bind, Option.bind_some]
    rw [List.foldlM_cons, hclose]
    simp [ih]

theorem scan?_of_spells {text : List Char} {tokens : List Token} (h : Spells text tokens) :
    scan? text = some tokens := by
  rw [scan?, foldlM_step_spells h []]
  rfl

/-- Parts with commas between them and a closing token, where `more read part` is the state behind
`part` and `read` are the parts before it. A comma leads to `next`, the closing token to `whole`. -/
theorem foldlM_step_parts {α : Type} {tokensOf : α → List Token} (closing : Token)
    (next whole : List α → Parse) (more : List α → α → Parse)
    (hcomma : ∀ read part, (more read part).step .comma = some (next (read ++ [part])))
    (hclosing : ∀ read part, (more read part).step closing = some (whole (read ++ [part])))
    {part : α} {rest read : List α} {begun : Parse}
    (hpart : (tokensOf part).foldlM Parse.step begun = some (more read part))
    (hrest : ∀ later ∈ rest, ∀ read,
      (tokensOf later).foldlM Parse.step (next read) = some (more read later)) :
    ([Token.comma].intercalate ((part :: rest).map tokensOf) ++ [closing]).foldlM Parse.step begun =
      some (whole (read ++ part :: rest)) := by
  induction rest generalizing part read begun with
  | nil =>
    rw [List.map_singleton, List.intercalate_singleton, List.foldlM_append, hpart]
    simp [hclosing]
  | cons later rest ih =>
    have hlater := hrest later List.mem_cons_self (read ++ [part])
    have ih := ih hlater fun last hlast => hrest last (List.mem_cons_of_mem later hlast)
    have hsplit : [Token.comma].intercalate ((part :: later :: rest).map tokensOf) ++ [closing] =
        tokensOf part ++ .comma ::
          ([Token.comma].intercalate ((later :: rest).map tokensOf) ++ [closing]) := by
      simp [List.intercalate_cons_cons]
    rw [hsplit, List.foldlM_append, hpart]
    simp only [Option.bind_eq_bind, Option.bind_some, List.foldlM_cons, hcomma]
    rw [ih, List.append_assoc, List.singleton_append]

/-- Whether the tokens of a document are read as this document, whatever is still open. -/
def Reads (json : Json) : Prop :=
  ∀ stack, json.tokens.foldlM Parse.step (.value stack) = some (.more json stack)

/-- An array may begin with any document. -/
theorem Reads.first {json : Json} (h : json.Reads) (stack : List Frame) :
    json.tokens.foldlM Parse.step (.items stack) = some (.more json (.items [] :: stack)) := by
  -- No document begins with the token that ends an empty array.
  refine Eq.trans ?_ (h (.items [] :: stack))
  cases json with
  | string s => rfl
  | array items => rfl
  | object members => rfl

theorem Reads.array {items : List Json} (h : ∀ item ∈ items, item.Reads) :
    (Json.array items).Reads := by
  intro stack
  cases items with
  | nil => rfl
  | cons item rest =>
    obtain ⟨hitem, hrest⟩ := List.forall_mem_cons.mp h
    rw [tokens, itemTokens_eq_map]
    refine foldlM_step_parts .closeArray (fun read => .value (.items read :: stack))
      (fun read => .more (.array read) stack) (fun read item => .more item (.items read :: stack))
      (fun _ _ => rfl) (fun _ _ => rfl) (hitem.first stack) fun later hlater read => ?_
    exact hrest later hlater (.items read :: stack)

theorem Reads.object {members : List (String × Json)} (h : ∀ member ∈ members, member.2.Reads) :
    (Json.object members).Reads := by
  intro stack
  cases members with
  | nil => rfl
  | cons member rest =>
    obtain ⟨hmember, hrest⟩ := List.forall_mem_cons.mp h
    rw [tokens, memberTokens_eq_map]
    change ([Token.comma].intercalate ((member :: rest).map _) ++ [Token.closeObject]).foldlM
      Parse.step (.members stack) = some (.more (.object ([] ++ member :: rest)) stack)
    refine foldlM_step_parts .closeObject (fun read => .key read stack)
      (fun read => .more (.object read) stack)
      (fun read member => .more member.2 (.members read member.1 :: stack))
      (fun _ _ => rfl) (fun _ _ => rfl) ?_ fun later hlater read => ?_
    · exact hmember (.members [] member.1 :: stack)
    · exact hrest later hlater (.members read later.1 :: stack)

theorem reads (json : Json) : json.Reads := by
  induction json using induction_nested with
  | string s => exact fun _ => rfl
  | array items ih => exact .array ih
  | object members ih => exact .object ih

theorem parse?_tokens (json : Json) : parse? json.tokens = some json := by
  rw [parse?, reads json []]

theorem read?_of_isText {json : Json} {text : String} (h : json.IsText text) :
    read? text = some json := by
  rw [read?, scan?_of_spells h, Option.bind_some, parse?_tokens]

example : read? " [\"\\ud83d\\ude00\\/\\u0041\" ,\t\x7b\x7d] " =
    some (.array [.string "😀/A", .object []]) := rfl

/-- A text has one document at most. -/
theorem IsText.unique {json other : Json} {text : String} (h : json.IsText text)
    (hother : other.IsText text) : json = other :=
  Option.some.inj ((read?_of_isText h).symm.trans (read?_of_isText hother))

/-- What is written of a document is a text of that one only. -/
theorem isText_text_iff {json other : Json} : other.IsText json.text ↔ other = json := by
  constructor
  · intro h
    exact h.unique (isText_text json)
  · intro h
    rw [h]
    exact isText_text json

end BuildOrder.Json
