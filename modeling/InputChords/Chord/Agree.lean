import InputChords.Chord

/-! Equality of chords, node by node. -/

namespace InputChords.Chord

variable {σ : Type}

inductive Turn where
  | operand | left | right
  deriving DecidableEq, Repr

abbrev Place := List Turn

structure Pair (σ : Type) where
  place : Place
  first : Chord σ
  second : Chord σ

/-- `shared` marks the places where both chords hold one and the same object; nothing is compared
there. `same` compares stray values. -/
def agreeAll (shared : Place → Bool) (same : σ → σ → Bool) (pending : List (Pair σ)) : Bool :=
  match pending with
  | [] => true
  | ⟨place, first, second⟩ :: rest =>
    if shared place then agreeAll shared same rest
    else match first, second with
      | .atom a, .atom b => a == b && agreeAll shared same rest
      | .not t, .not u => agreeAll shared same (⟨.operand :: place, t, u⟩ :: rest)
      | .join c l r, .join d l' r' =>
        c == d && agreeAll shared same (⟨.left :: place, l, l'⟩ :: ⟨.right :: place, r, r'⟩ :: rest)
      | .stray v, .stray w => same v w && agreeAll shared same rest
      | _, _ => false
termination_by (pending.map fun pair => 2 * pair.first.size + 1).foldr (· + ·) 0
decreasing_by
  all_goals simp [size]
  all_goals omega

def agree (shared : Place → Bool) (same : σ → σ → Bool) (first second : Chord σ) : Bool :=
  agreeAll shared same [⟨[], first, second⟩]

end InputChords.Chord
