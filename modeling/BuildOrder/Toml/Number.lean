import BuildOrder.Toml.Text
import BuildOrder.Toml.Value

/-! TOML integers and floats. -/
namespace BuildOrder.Toml

/-- The digits after a first one. An underscore may stand before each. -/
def moreDigits (isDigit : Char → Bool) : List Char → List Char × List Char
  | [] => ([], [])
  | '_' :: c :: rest =>
    if isDigit c then
      let (digits, rest) := moreDigits isDigit rest
      (c :: digits, rest)
    else ([], '_' :: c :: rest)
  | c :: rest =>
    if isDigit c then
      let (digits, rest) := moreDigits isDigit rest
      (c :: digits, rest)
    else ([], c :: rest)

def digits (isDigit : Char → Bool) : Reader (List Char)
  | c :: rest =>
    if isDigit c then
      let (more, rest) := moreDigits isDigit rest
      some (c :: more, rest)
    else none
  | [] => none

def naturalOf (base : Nat) (digits : List Char) : Nat :=
  digits.foldl (fun n c => base * n + (hexValue? c).getD 0) 0

/-- Whether a number has a minus sign, and what follows its sign. -/
def sign : List Char → Bool × List Char
  | '-' :: rest => (true, rest)
  | '+' :: rest => (false, rest)
  | cs => (false, cs)

/-- Decimal digits without a leading zero. -/
def decimalDigits : Reader (List Char)
  | '0' :: rest => some (['0'], rest)
  | cs => digits Char.isDigit cs

def decimalInteger : Reader Int := fun cs => do
  let (isNegative, cs) := sign cs
  let (ds, rest) ← decimalDigits cs
  let n := naturalOf 10 ds
  return (if isNegative then -n else n, rest)

/-- An integer in a base that its beginning tells; only decimal ones have signs. -/
def integerOfAnySize : Reader Int := fun cs =>
  let inBase (base : Nat) (isDigit : Char → Bool) (cs : List Char) : Option (Int × List Char) :=
    (digits isDigit cs).map fun (ds, rest) => ((naturalOf base ds : Int), rest)
  match cs with
  | '0' :: 'x' :: rest => inBase 16 (fun c => (hexValue? c).isSome) rest
  | '0' :: 'o' :: rest => inBase 8 (fun c => '0' ≤ c && c ≤ '7') rest
  | '0' :: 'b' :: rest => inBase 2 (fun c => c = '0' || c = '1') rest
  | _ => decimalInteger cs

/-- Integers have 64 bits. -/
def integer : Reader Value := fun cs => do
  let (n, rest) ← integerOfAnySize cs
  if -0x8000000000000000 ≤ n ∧ n < 0x8000000000000000 then some (.integer n, rest) else none

/-- Whether `mantissa * 10 ^ exponent` is rounded to more than the largest finite double. -/
def overflows (mantissa : Nat) (exponent : Int) : Bool :=
  let magnitude : Int := (Nat.toDigits 10 mantissa).length + exponent
  let limit := Nat.pow 2 1024 - Nat.pow 2 970
  if mantissa = 0 ∨ magnitude < 300 then false
  else if 320 < magnitude then true
  else limit * Nat.pow 10 (-exponent).toNat ≤ mantissa * Nat.pow 10 exponent.toNat

def exponent : Reader Int
  | c :: cs => do
    if c ≠ 'e' ∧ c ≠ 'E' then none
    else
      let (isNegative, cs) := sign cs
      let (ds, rest) ← digits Char.isDigit cs
      return (if isNegative then -(naturalOf 10 ds : Int) else naturalOf 10 ds, rest)
  | [] => none

/-- The digits after a point; none without a point. -/
def fraction : Reader (List Char)
  | '.' :: rest => digits Char.isDigit rest
  | cs => some ([], cs)

/-- A float with a fraction, an exponent or both. A positive one must not overflow. -/
def finiteFloat : Reader Value := fun cs => do
  let (isNegative, unsigned) := sign cs
  let (whole, afterWhole) ← decimalDigits unsigned
  let (places, afterPlaces) ← fraction afterWhole
  let (scale, rest) ←
    if places = [] then exponent afterPlaces
    else some ((exponent afterPlaces).getD (0, afterPlaces))
  if !isNegative && overflows (naturalOf 10 (whole ++ places)) (scale - places.length) then none
  else some (.float (cs.take (cs.length - rest.length)), rest)

/-- An infinity or no number at all. -/
def specialFloat : Reader Value := fun cs => do
  let (_, unsigned) := sign cs
  let rest ← (after? "inf" unsigned).or (after? "nan" unsigned)
  return (.float (cs.take (cs.length - rest.length)), rest)

def number : Reader Value := fun cs =>
  (finiteFloat cs).or <| (specialFloat cs).or (integer cs)

end BuildOrder.Toml
