import InputChords.Chord.Agree
import InputChords.Chord.Fold

/-! Hashes of chords, and the set of two chords. -/

namespace InputChords.Chord

variable {σ η : Type}

structure Mixing (η : Type) where
  atom : Atom → η
  not : η → η
  join : Connective → η → η → η

def hash (mixing : Mixing η) (t : Chord σ) : Except σ η :=
  t.fold ⟨mixing.atom, fun _ x => mixing.not x, fun c _ _ x y => mixing.join c x y⟩

/-- The number of members of the set of two chords. The second one is a member of its own unless it
has the hash of the first one and agrees with it. -/
def countDistinct [DecidableEq η] (mixing : Mixing η) (shared : Place → Bool) (same : σ → σ → Bool)
    (first second : Chord σ) : Except σ Nat := do
  let x ← first.hash mixing
  let y ← second.hash mixing
  return if x = y ∧ first.agree shared same second then 1 else 2

end InputChords.Chord
