import BuildOrder.Toml.Number

/-! TOML dates and times. -/
namespace BuildOrder.Toml

/-- A number of exactly `count` digits between `low` and `high`. -/
def digitsBetween (count low high : Nat) : Reader Nat := fun cs =>
  let ds := cs.take count
  let n := naturalOf 10 ds
  if ds.length = count ∧ ds.all Char.isDigit ∧ low ≤ n ∧ n ≤ high then some (n, cs.drop count)
  else none

def isLeapYear (year : Nat) : Bool :=
  year % 4 = 0 && (year % 100 ≠ 0 || year % 400 = 0)

def daysInMonth (year month : Nat) : Nat :=
  if month = 2 then if isLeapYear year then 29 else 28
  else if month ∈ [4, 6, 9, 11] then 30
  else 31

/-- The rest after a date. -/
def date? (cs : List Char) : Option (List Char) := do
  let (year, rest) ← digitsBetween 4 0 9999 cs
  let (month, rest) ← digitsBetween 2 1 12 (← after? "-" rest)
  let (_, rest) ← digitsBetween 2 1 (daysInMonth year month) (← after? "-" rest)
  return rest

/-- The rest after a time, with an optional fraction of a second. A leap second is a second. -/
def time? (cs : List Char) : Option (List Char) := do
  let (_, rest) ← digitsBetween 2 0 23 cs
  let (_, rest) ← digitsBetween 2 0 59 (← after? ":" rest)
  let (_, rest) ← digitsBetween 2 0 60 (← after? ":" rest)
  match rest with
  | '.' :: c :: more => if c.isDigit then some (more.dropWhile Char.isDigit) else some rest
  | _ => some rest

/-- The rest after an offset from universal time. -/
def offset? : List Char → Option (List Char)
  | c :: rest => do
    if c = 'Z' ∨ c = 'z' then some rest
    else if c = '+' ∨ c = '-' then do
      let (_, rest) ← digitsBetween 2 0 23 rest
      let (_, rest) ← digitsBetween 2 0 59 (← after? ":" rest)
      return rest
    else none
  | [] => none

/-- The rest after a time that follows a date. -/
def timeOfDay? : List Char → Option (List Char)
  | c :: rest =>
    if c = 'T' ∨ c = 't' ∨ c = ' ' then (time? rest).map fun rest => (offset? rest).getD rest
    else none
  | [] => none

def moment : Reader Value := fun cs => do
  let rest ← match date? cs with
    | some rest => some ((timeOfDay? rest).getD rest)
    | none => time? cs
  return (.moment (cs.take (cs.length - rest.length)), rest)

end BuildOrder.Toml
