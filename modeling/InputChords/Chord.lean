import InputChords.AtomSet

/-! Chords: boolean conditions on the set of active atoms. A host may put a value of its own where
a chord belongs; such a stray value is kept until a walk over the chord meets it. -/

namespace InputChords

inductive Connective where
  | and | or
  deriving DecidableEq, Repr

/-- `σ` is the type of the stray values. -/
inductive Chord (σ : Type) where
  | atom (a : Atom)
  | not (operand : Chord σ)
  | join (c : Connective) (left right : Chord σ)
  | stray (value : σ)
  deriving DecidableEq, Repr

namespace Chord

variable {σ : Type}

def size : Chord σ → Nat
  | atom _ => 1
  | not t => t.size + 1
  | join _ l r => l.size + r.size + 1
  | stray _ => 1

def Sound : Chord σ → Prop
  | atom _ => True
  | not t => t.Sound
  | join _ l r => l.Sound ∧ r.Sound
  | stray _ => False

def ofAtom (a : Atom) : Chord σ :=
  match a.parts with
  | none => atom a
  | some (first, second) => join .or (atom first) (atom second)

def category? : Chord σ → Option Category
  | atom a => some a.category
  | _ => none

theorem ofAtom_sound (a : Atom) : (ofAtom a : Chord σ).Sound := by
  unfold ofAtom
  split <;> simp [Sound]

end Chord

end InputChords
