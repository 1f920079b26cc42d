import InputChords.Catalog.Resolve
import InputChords.Chord.Fold

/-! Chords written as expressions. -/

namespace InputChords.Chord

variable {σ : Type}

/-- Two negations in a row need parentheses to be read back. -/
def renderNot : Chord σ → String → String
  | .not _, operand => "!(" ++ operand ++ ")"
  | _, operand => "!" ++ operand

def Connective.symbol : Connective → String
  | .and => "+"
  | .or => "|"

def render (t : Chord σ) : Except σ String :=
  t.fold ⟨Atom.displayName, renderNot, fun c _ _ l r =>
    "(" ++ l ++ " " ++ Connective.symbol c ++ " " ++ r ++ ")"⟩

def renderOptional : Option (Chord σ) → Except σ String
  | none => .ok ""
  | some t => t.render

end InputChords.Chord
