import InputChords.Chord.Agree
import InputChords.Value

/-! Equality of host values: numbers by what they are worth, dictionaries without regard to
order. -/

namespace InputChords.Value

def number? : Value → Option Number
  | bool b => some (.whole b.toNat)
  | number n => some n
  | _ => none

mutual

def equals : Value → Value → Bool
  | null, null => true
  | text s, text t => s == t
  | bytes s, bytes t => s == t
  | list xs, list ys => equalsList xs ys
  | dict xs, dict ys => xs.length == ys.length && equalsEntries xs ys
  | atom a, atom b => a == b
  | tree t, tree u => equalsChord t u
  | bool b, v => v.number?.any fun n => n.eq (.whole b.toNat)
  | number m, v => v.number?.any fun n => m.eq n
  | _, _ => false

def equalsList : List Value → List Value → Bool
  | [], [] => true
  | v :: vs, w :: ws => equals v w && equalsList vs ws
  | _, _ => false

def equalsEntries : List (String × Value) → List (String × Value) → Bool
  | [], _ => true
  | (key, v) :: rest, others =>
    (match others.lookup key with
      | some w => equals v w
      | none => false) && equalsEntries rest others

/-- Stray values must be of one type as well. -/
def equalsChord : Chord Value → Chord Value → Bool
  | .atom a, .atom b => a == b
  | .not t, .not u => equalsChord t u
  | .join c l r, .join d l' r' => c == d && equalsChord l l' && equalsChord r r'
  | .stray v, .stray w => v.kindName == w.kindName && equals v w
  | _, _ => false

end

def sameStray (v w : Value) : Bool := v.kindName == w.kindName && v.equals w

/-- Lists and dictionaries cannot be members of a set, nor can chords with a stray value. -/
def hashable : Value → Except Fault Unit
  | list _ => .error (.unhashable "list")
  | dict _ => .error (.unhashable "dict")
  | tree t => do
    let _ ← sound t.depth
    return ()
  | _ => .ok ()

/-- Equality of two values; chords may hold one and the same object at the places that `shared`
marks. -/
def agrees (shared : Chord.Place → Bool) : Value → Value → Bool
  | tree t, tree u => t.agree shared sameStray u
  | v, w => v.equals w

def countDistinct (shared : Chord.Place → Bool) (v w : Value) : Except Fault Nat := do
  v.hashable
  w.hashable
  return if v.agrees shared w then 1 else 2

end InputChords.Value
