import InputChords.Chord

/-! The atoms that a chord refers to. -/

namespace InputChords.Chord

variable {σ : Type}

/-- Takes the parts of a connective from the right, and stops at the first stray value. -/
def collect (found : List Atom) (pending : List (Chord σ)) : Except σ (List Atom) :=
  match pending with
  | [] => .ok found
  | .atom a :: rest => collect (a :: found) rest
  | .not t :: rest => collect found (t :: rest)
  | .join _ l r :: rest => collect found (r :: l :: rest)
  | .stray v :: _ => .error v
termination_by (pending.map size).foldr (· + ·) 0
decreasing_by
  all_goals simp [size]
  all_goals omega

def atoms (t : Chord σ) : Except σ AtomSet := (collect [] [t]).map AtomSet.ofList

end InputChords.Chord
