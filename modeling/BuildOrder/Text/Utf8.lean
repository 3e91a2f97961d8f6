/-! UTF-8 decoding, one byte at a time. -/
namespace BuildOrder.Text.Utf8

/-- Where a decoder stands between two bytes. -/
inductive State where
  | start
  /-- Inside a character with the bits `code` so far: the next byte must lie between `low` and
  `high`, and `more` continuation bytes follow it. -/
  | within (low high : UInt8) (more : Nat) (code : Nat)
  deriving DecidableEq

/-- A character, or `none` for a longest stretch of bytes that begin one without ending it. -/
abbrev Piece := Option Char

/-- The pieces that a byte completes where a character may begin, and the state after it. -/
def first (b : UInt8) : List Piece × State :=
  let n := b.toNat
  if n < 0x80 then ([some (Char.ofNat n)], .start)
  else if n < 0xC2 then ([none], .start)
  else if n < 0xE0 then ([], .within 0x80 0xBF 0 (n - 0xC0))
  else if n = 0xE0 then ([], .within 0xA0 0xBF 1 0)
  else if n = 0xED then ([], .within 0x80 0x9F 1 0xD)
  else if n < 0xF0 then ([], .within 0x80 0xBF 1 (n - 0xE0))
  else if n = 0xF0 then ([], .within 0x90 0xBF 2 0)
  else if n < 0xF4 then ([], .within 0x80 0xBF 2 (n - 0xF0))
  else if n = 0xF4 then ([], .within 0x80 0x8F 2 4)
  else ([none], .start)

def step : State → UInt8 → List Piece × State
  | .start, b => first b
  | .within low high more code, b =>
    if low ≤ b ∧ b ≤ high then
      let code := code * 64 + (b.toNat - 0x80)
      match more with
      | 0 => ([some (Char.ofNat code)], .start)
      | more + 1 => ([], .within 0x80 0xBF more code)
    else
      let (pieces, state) := first b
      (none :: pieces, state)

def piecesFrom : State → List UInt8 → List Piece
  | .start, [] => []
  | .within .., [] => [none]
  | state, b :: rest => (step state b).1 ++ piecesFrom (step state b).2 rest

def pieces (bytes : List UInt8) : List Piece :=
  piecesFrom .start bytes

/-- The text of the bytes with U+FFFD for each malformed stretch. -/
def decodeLossy (bytes : List UInt8) : List Char :=
  (pieces bytes).map fun piece => piece.getD '\uFFFD'

/-- What is said of malformed bytes where text is asked for. -/
def malformedMessage : String := "stream did not contain valid UTF-8"

/-- The text of well-formed bytes. -/
def decode? (bytes : List UInt8) : Option (List Char) :=
  (pieces bytes).mapM id

end BuildOrder.Text.Utf8
