import InputChords.Atom
import InputChords.Number

/-! Directions of pointer and wheel movement: negative is left or up, positive is right or down. -/

namespace InputChords

structure Bearing where
  horizontal : Option Direction
  vertical : Option Direction
  deriving DecidableEq, Repr

namespace Motion

/-- The side on which `delta` lies strictly beyond the threshold. -/
def sideOf (negative positive : Direction) (threshold delta : Number) : Option Direction :=
  if delta.lt threshold.neg then some negative
  else if threshold.lt delta then some positive
  else none

def bearing (threshold dx dy : Number) : Bearing :=
  ⟨sideOf .left .right threshold dx, sideOf .up .down threshold dy⟩

def directions (b : Bearing) : List Direction := b.horizontal.toList ++ b.vertical.toList

def pointerAtom (d : Direction) : Atom := .movement (.toward d)

def wheelAtom (d : Direction) : Atom := .wheel (.toward d)

end Motion

def movementOf (threshold dx dy : Number) : Bearing := Motion.bearing threshold dx dy

def wheelOf (dx dy : Number) : Bearing := Motion.bearing .zero dx dy

end InputChords
