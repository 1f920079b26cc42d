import InputChords.Parse

/-! The grammar of expressions. A phrase is a derivation: it keeps every token it is made of, in
the order of the expression, and is read as a chord by recursion on its shape. -/

namespace InputChords

namespace Token

def isUnknown (t : Token) : Bool := t.kind == .keyword && (resolveAtom t.text).isNone

/-- The chord of a keyword, or the keyword itself if it stands for no atom. -/
def leaf {σ : Type} (t : Token) : Except Token (Chord σ) :=
  match resolveAtom t.text with
  | some a => .ok (.ofAtom a)
  | none => .error t

end Token

def Atom.holds (active : AtomSet) (a : Atom) : Bool :=
  match a.parts with
  | none => decide (a ∈ active)
  | some (first, second) => decide (first ∈ active) || decide (second ∈ active)

namespace Connective

def apply : Connective → Bool → Bool → Bool
  | and, x, y => x && y
  | or, x, y => x || y

end Connective

namespace Grammar

inductive Part where
  | run (c : Connective)
  | term
  | operand
  deriving DecidableEq, Repr

/-- What the signs of a run stand between: `|` between runs of `+`, and `+` between terms. -/
def Part.item : Connective → Part
  | .or => .run .and
  | .and => .term

/-- The derivations of `or := and ('|' and)*`, which is `run .or`, of `and := not ('+' not)*`, which
is `run .and`, of `not := '!' prim | prim` and of `prim := '(' or ')' | KEYWORD`. The repetitions of
a run are taken one by one, the last one outermost. -/
inductive Phrase : Part → Type where
  | one {c : Connective} (first : Phrase (Part.item c)) : Phrase (.run c)
  | more {c : Connective} (run : Phrase (.run c)) (sign : Token) (isSign : sign.kind = .join c)
      (next : Phrase (Part.item c)) : Phrase (.run c)
  | plain (operand : Phrase .operand) : Phrase .term
  | negated (sign : Token) (isSign : sign.kind = .not) (operand : Phrase .operand) : Phrase .term
  | keyword (name : Token) (isName : name.kind = .keyword) : Phrase .operand
  | group (opening : Token) (isOpening : opening.kind = .opening) (inner : Phrase (.run .or))
      (closing : Token) (isClosing : closing.kind = .closing) : Phrase .operand

abbrev Derivation := Phrase (.run .or)

namespace Phrase

variable {σ : Type} {p : Part}

def tokens {p : Part} : Phrase p → List Token
  | one first => first.tokens
  | more run sign _ next => run.tokens ++ sign :: next.tokens
  | plain operand => operand.tokens
  | negated sign _ operand => sign :: operand.tokens
  | keyword name _ => [name]
  | group opening _ inner closing _ => opening :: (inner.tokens ++ [closing])

def polish {p : Part} : Phrase p → List Token
  | one first => first.polish
  | more run sign _ next => run.polish ++ next.polish ++ [sign]
  | plain operand => operand.polish
  | negated sign _ operand => operand.polish ++ [sign]
  | keyword name _ => [name]
  | group _ _ inner _ _ => inner.polish

/-- The chord that a phrase is read as, or its leftmost unknown keyword. Runs are folded to the
left. -/
def chord {p : Part} : Phrase p → Except Token (Chord σ)
  | one first => first.chord
  | more (c := c) run _ _ next => do return .join c (← run.chord) (← next.chord)
  | plain operand => operand.chord
  | negated _ _ operand => do return .not (← operand.chord)
  | keyword name _ => name.leaf
  | group _ _ inner _ _ => inner.chord

/-- What a phrase means while the atoms of `active` are active. Unknown keywords mean nothing. -/
def holds (active : AtomSet) {p : Part} : Phrase p → Bool
  | one first => first.holds active
  | more (c := c) run _ _ next => c.apply (run.holds active) (next.holds active)
  | plain operand => operand.holds active
  | negated _ _ operand => !operand.holds active
  | keyword name _ => (resolveAtom name.text).any (·.holds active)
  | group _ _ inner _ _ => inner.holds active

end Phrase

end Grammar

end InputChords
