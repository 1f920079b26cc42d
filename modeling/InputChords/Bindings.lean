import InputChords.Chord.Atoms
import InputChords.Named
import InputChords.Parse.Compilation

/-! Bindings from actions to chords. Actions keep the order in which they were first bound. -/

namespace InputChords

/-- What is logged of the key of an action, unless it cannot be written. -/
class Quotable (κ : Type) where
  quoted : κ → Except Fault String

instance : Quotable String := ⟨fun action => .ok (Text.quote action)⟩

variable {κ : Type}

/-- With `trace` every expression that is read is logged. -/
structure Bindings (κ : Type) where
  trace : Bool
  entries : Named κ (Chord Value)

namespace Bindings

def empty (trace : Bool) : Bindings κ := ⟨trace, []⟩

def actions (b : Bindings κ) : List κ := b.entries.names

def size (b : Bindings κ) : Nat := b.entries.length

def activeAmong (active : AtomSet) : Named κ (Chord Value) → Except Value (List κ)
  | [] => .ok []
  | (action, t) :: rest => do
    let holds ← t.eval active
    let others ← activeAmong active rest
    return if holds then action :: others else others

/-- The actions whose chords hold. One ill-formed chord spoils the whole answer. -/
def activeActions (b : Bindings κ) (active : AtomSet) : Except Fault (List κ) :=
  Value.sound (activeAmong active b.entries)

def atomsAmong : Named κ (Chord Value) → Except Value AtomSet
  | [] => .ok ∅
  | (_, t) :: rest => do
    let first ← t.atoms
    let others ← atomsAmong rest
    return first ∪ others

def relevantAtoms (b : Bindings κ) : Except Fault AtomSet := Value.sound (atomsAmong b.entries)

def logger : String := "chordbind.runtime.bindings"

/-- A message that cannot be formed leaves no record. -/
def noted (message : Except Fault String) : List Log.Record :=
  (message.toOption.map (Log.debug logger)).toList

def boundRecords [Quotable κ] (action : κ) (t : Chord Value) : List Log.Record :=
  noted do
    return "action_bound action=" ++ (← Quotable.quoted action) ++ " chord="
      ++ (t.render.toOption).getD ""

def unboundRecords [Quotable κ] (action : κ) : List Log.Record :=
  noted do return "action_unbound action=" ++ (← Quotable.quoted action)

structure Step (κ α : Type) where
  records : List Log.Record
  outcome : Except Fault (Bindings κ × α)

variable [DecidableEq κ]

def get? (b : Bindings κ) (action : κ) : Option (Chord Value) := b.entries.get? action

def contains (b : Bindings κ) (action : κ) : Bool := (b.get? action).isSome

/-- A bound action keeps its place. -/
def put (b : Bindings κ) (action : κ) (t : Chord Value) : Bindings κ :=
  { b with entries := b.entries.put action t }

def erase (b : Bindings κ) (action : κ) : Bindings κ :=
  { b with entries := b.entries.erase action }

theorem get?_put (b : Bindings κ) (action : κ) (t : Chord Value) (other : κ) :
    (b.put action t).get? other = if other = action then some t else b.get? other :=
  Named.get?_put action t b.entries other

theorem get?_erase (b : Bindings κ) (action other : κ) :
    (b.erase action).get? other = if other = action then none else b.get? other :=
  Named.get?_erase b.entries action other

def isActive (b : Bindings κ) (action : κ) (active : AtomSet) : Except Fault Bool :=
  match b.get? action with
  | none => .ok false
  | some t => Value.sound (t.eval active)

/-- Only the root of the chord is looked at. -/
def bindChord (b : Bindings κ) (action : κ) : Value → Step κ Unit
  | .tree (.stray v) => ⟨[], .error (.notATree v.kindName)⟩
  | .tree t => ⟨[], .ok (b.put action t, ())⟩
  | v => ⟨[], .error (.notATree v.kindName)⟩

variable [Quotable κ]

def unbind (b : Bindings κ) (action : κ) : Step κ Unit :=
  if b.contains action then ⟨unboundRecords action, .ok (b.erase action, ())⟩
  else ⟨[], .ok (b, ())⟩

/-- An expression without a chord removes the binding; one that cannot be read changes nothing. -/
def bind (b : Bindings κ) (action : κ) (expression : Value) : Step κ (Option (Chord Value)) :=
  let compiled := Compilation.ofValue b.trace expression
  match compiled.outcome with
  | .error e => ⟨compiled.records, .error e⟩
  | .ok none =>
    let removal := b.unbind action
    ⟨compiled.records ++ removal.records, removal.outcome.map fun (b, _) => (b, none)⟩
  | .ok (some t) =>
    ⟨compiled.records ++ boundRecords action t, .ok (b.put action t, some t)⟩

def bindAll (b : Bindings κ) : List (κ × Value) → Step κ Unit
  | [] => ⟨[], .ok (b, ())⟩
  | (action, expression) :: rest =>
    let first := b.bind action expression
    match first.outcome with
    | .error e => ⟨first.records, .error e⟩
    | .ok (b, _) =>
      let later := b.bindAll rest
      ⟨first.records ++ later.records, later.outcome⟩

end Bindings

end InputChords
