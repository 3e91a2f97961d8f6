/-! TOML values and the growth of tables. -/
namespace BuildOrder.Toml

/-- How a table came to be, which decides what may still extend it. -/
inductive Origin where
  /-- Written between braces: closed. -/
  | inline
  /-- Named by a header. -/
  | header
  /-- On the way to a header; a header of its own may still name it. -/
  | implied
  /-- On the way to a dotted key. -/
  | dotted
  deriving DecidableEq

inductive Value where
  | string (s : String)
  | integer (n : Int)
  /-- A number as it is written. -/
  | float (text : List Char)
  | boolean (b : Bool)
  /-- A date, a time or both as they are written. -/
  | moment (text : List Char)
  | array (items : List Value)
  | table (origin : Origin) (entries : List (String × Value))
  /-- The tables of repeated double-bracket headers. -/
  | tables (elements : List (List (String × Value)))

abbrev Entries := List (String × Value)

namespace Entries

/-- Gives a key that is there a new value. -/
def replace (entries : Entries) (key : String) (value : Value) : Entries :=
  entries.map fun (k, v) => if k = key then (k, value) else (k, v)

def replaceLast (elements : List Entries) (last : Entries) : Value :=
  .tables (elements.dropLast ++ [last])

/-- Adds a value under a dotted key, with the tables on the way. The key must be new, and the table
that takes it must not have been made by a header. -/
def insert (entries : Entries) : List String → Value → Option Entries
  | [], _ => none
  | [key], value =>
    if (entries.lookup key).isSome then none else some (entries ++ [(key, value)])
  | key :: next :: rest, value =>
    match entries.lookup key with
    | none => do
      let inner ← insert [] (next :: rest) value
      return entries ++ [(key, .table .dotted inner)]
    | some (.table origin inner) =>
      if origin = .dotted ∨ (origin = .implied ∧ rest ≠ []) then do
        let inner ← insert inner (next :: rest) value
        return entries.replace key (.table origin inner)
      else none
    | some (.tables elements) =>
      if rest ≠ [] then do
        let last ← insert (elements.getLast?.getD []) (next :: rest) value
        return entries.replace key (replaceLast elements last)
      else none
    | some _ => none

/-- Changes the table at a path of header names: of repeated tables the last one. Tables that are
missing on the way are implied. -/
def modifyAt (change : Entries → Option Entries) (entries : Entries) :
    List String → Option Entries
  | [] => change entries
  | key :: rest =>
    match entries.lookup key with
    | none => do
      let inner ← modifyAt change [] rest
      return entries ++ [(key, .table .implied inner)]
    | some (.table .inline _) => none
    | some (.table origin inner) => do
      let inner ← modifyAt change inner rest
      return entries.replace key (.table origin inner)
    | some (.tables elements) => do
      let last ← modifyAt change (elements.getLast?.getD []) rest
      return entries.replace key (replaceLast elements last)
    | some _ => none

/-- Makes room for a table with a header: it is new or implied so far. -/
def openTable (key : String) (entries : Entries) : Option Entries :=
  match entries.lookup key with
  | none => some (entries ++ [(key, .table .header [])])
  | some (.table .implied inner) => some (entries.replace key (.table .header inner))
  | some _ => none

/-- Makes room for one more of the repeated tables with a header. -/
def openElement (key : String) (entries : Entries) : Option Entries :=
  match entries.lookup key with
  | none => some (entries ++ [(key, .tables [[]])])
  | some (.tables elements) => some (entries.replace key (.tables (elements ++ [[]])))
  | some _ => none

end Entries
end BuildOrder.Toml
