import InputChords.Decimal.Shortest

/-! Numbers handed in by a host: whole numbers of any size, or reals. A whole number and a real
compare by their exact values; arithmetic between them is done on reals. -/

namespace InputChords

inductive Number where
  | whole (n : Int)
  | real (x : Float)
  deriving DecidableEq, Repr

namespace Number

inductive Overflow where
  | tooLarge
  deriving DecidableEq, Repr

def ofWhole (n : Int) : Except Overflow Float :=
  let x := Float.ofInt n
  match Decimal.parts x with
  | .infinite _ => .error .tooLarge
  | _ => .ok x

def toReal : Number → Except Overflow Float
  | .whole n => ofWhole n
  | .real x => .ok x

/-- The exact order of a whole number and a real; nothing compares with NaN. -/
def compareWhole (n : Int) (x : Float) : Option Ordering :=
  match Decimal.parts x with
  | .nan => none
  | .infinite negative => some (if negative then .gt else .lt)
  | .finite negative mantissa exponent =>
    let m : Int := if negative then -(mantissa : Int) else mantissa
    some (compare (n * Int.pow 2 (-exponent).toNat) (m * Int.pow 2 exponent.toNat))

def lt : Number → Number → Bool
  | .whole a, .whole b => a < b
  | .real a, .real b => a < b
  | .whole a, .real b => compareWhole a b == some .lt
  | .real a, .whole b => compareWhole b a == some .gt

def eq : Number → Number → Bool
  | .whole a, .whole b => a == b
  | .real a, .real b => a == b
  | .whole a, .real b => compareWhole a b == some .eq
  | .real a, .whole b => compareWhole b a == some .eq

def le (a b : Number) : Bool := a.lt b || a.eq b

def neg : Number → Number
  | .whole n => .whole (-n)
  | .real x => .real (-x)

def abs : Number → Number
  | .whole n => .whole n.natAbs
  | .real x => .real x.abs

def sub : Number → Number → Except Overflow Number
  | .whole a, .whole b => .ok (.whole (a - b))
  | a, b => do
    let x ← a.toReal
    let y ← b.toReal
    return .real (x - y)

def zero : Number := .whole 0

end Number

end InputChords
