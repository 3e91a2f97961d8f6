/-! Patterns over bytes. -/
namespace BuildOrder.Ignore

inductive ByteSet where
  | any
  | single (b : UInt8)
  /-- The bytes in some of the closed ranges, or all the others. -/
  | ranges (negated : Bool) (ranges : List (UInt8 × UInt8))
  deriving DecidableEq

namespace ByteSet

def contains : ByteSet → UInt8 → Bool
  | any, _ => true
  | single b, c => b = c
  | ranges negated rs, c => (rs.any fun (low, high) => low ≤ c && c ≤ high) != negated

def slash : ByteSet := single '/'.toUInt8

def exceptSlash : ByteSet := ranges true [('/'.toUInt8, '/'.toUInt8)]

end ByteSet

inductive Pattern where
  | empty
  | one (set : ByteSet)
  /-- At most one byte of a set. -/
  | optional (set : ByteSet)
  /-- Any number of bytes of a set. -/
  | many (set : ByteSet)
  | seq (p q : Pattern)
  | either (p q : Pattern)
  | group (p : Pattern)
  deriving DecidableEq

/-- Marks at the places before each of some bytes and after the last one. -/
abbrev Marks := List Bool

namespace Marks

/-- The places one byte of a set further. -/
def next (set : ByteSet) (bytes : List UInt8) (marks : Marks) : Marks :=
  false :: List.zipWith (fun mark b => mark && set.contains b) marks bytes

/-- The places that any number of bytes of a set leads to; `carried` tells whether such bytes
lead to the first place from outside. -/
def spread (set : ByteSet) (carried : Bool) : List UInt8 → Marks → Marks
  | _, [] => []
  | [], mark :: _ => [mark || carried]
  | b :: bytes, mark :: marks =>
    (mark || carried) :: spread set ((mark || carried) && set.contains b) bytes marks

def union (marks others : Marks) : Marks :=
  List.zipWith or marks others

end Marks

namespace Pattern

/-- The places where matches end that begin at marked places. -/
def ends (bytes : List UInt8) : Pattern → Marks → Marks
  | empty, marks => marks
  | one set, marks => marks.next set bytes
  | optional set, marks => marks.union (marks.next set bytes)
  | many set, marks => marks.spread set false bytes
  | seq p q, marks =>
    let middle := p.ends bytes marks
    if middle.any id then q.ends bytes middle else middle
  | either p q, marks => (p.ends bytes marks).union (q.ends bytes marks)
  | group p, marks => p.ends bytes marks

/-- Whether the pattern matches all the bytes. -/
def accepts (p : Pattern) (bytes : List UInt8) : Bool :=
  (p.ends bytes (true :: bytes.map fun _ => false)).getLast? = some true

/-- One pattern after the other; `empty` is left out. -/
def append : Pattern → Pattern → Pattern
  | empty, q => q
  | p, empty => p
  | p, q => seq p q

def concat (ps : List Pattern) : Pattern :=
  ps.foldr append empty

/-- Any of the patterns that are not `empty`; `empty` if there are none. -/
def alternatives (ps : List Pattern) : Pattern :=
  match ps.filter (· ≠ empty) with
  | [] => empty
  | p :: more => group (more.foldl either p)

def ofBytes (bytes : List UInt8) : Pattern :=
  concat (bytes.map fun b => one (.single b))

end Pattern
end BuildOrder.Ignore
