import InputChords.Bindings
import InputChords.Motion
import InputChords.Settings
import InputChords.Snapshot

/-! The atoms that are active in the frame in progress. Keys and buttons are held until they are
released; movement, wheel, drag and double click last for the frame in which they are seen. -/

namespace InputChords

structure Travel where
  dx : Float
  dy : Float
  deriving DecidableEq, Repr

def Travel.none : Travel := ⟨0.0, 0.0⟩

def Travel.bearing (threshold : Number) (t : Travel) : Bearing :=
  movementOf threshold (.real t.dx) (.real t.dy)

structure Tracker (κ : Type) where
  settings : Settings
  bindings : Option (Bindings κ)
  clock : Number
  held : AtomSet
  pressed : AtomSet
  released : AtomSet
  motion : Travel
  wheel : Travel
  dragged : Bool
  doubleClicked : Bool
  /-- when the left button went down, unless that press was the second of two -/
  lastLeftPress : Option Number
  pointer : Option (Float × Float)
  /-- the actions that held in the last frame with bindings -/
  activeActions : List κ

variable {κ : Type}

namespace Tracker

def start (settings : Settings) (bindings : Option (Bindings κ)) : Tracker κ :=
  ⟨settings, bindings, .real 0.0, ∅, ∅, ∅, .none, .none, false, false, none, none, []⟩

def leftClick : Atom := .click .left

def interval (t : Tracker κ) : Except Number.Overflow Number := do
  return .real ((← t.settings.doubleClickMs.toReal) / 1000.0)

/-- A press soon enough after the last one makes a double click, and the press after that starts
anew. -/
def leftPress (t : Tracker κ) : Except Number.Overflow (Tracker κ) := do
  let interval ← t.interval
  match t.lastLeftPress with
  | none => return { t with lastLeftPress := some t.clock }
  | some previous =>
    let elapsed ← t.clock.sub previous
    if elapsed.le interval then return { t with doubleClicked := true, lastLeftPress := none }
    else return { t with lastLeftPress := some t.clock }

def hold (t : Tracker κ) (a : Atom) : Tracker κ :=
  { t with held := t.held.insert a, pressed := t.pressed.insert a }

def letGo (t : Tracker κ) (a : Atom) : Tracker κ :=
  { t with held := t.held.erase a, released := t.released.insert a }

theorem mem_held_hold (t : Tracker κ) (a b : Atom) : b ∈ (t.hold a).held ↔ b = a ∨ b ∈ t.held :=
  AtomSet.mem_insert t.held a b

theorem mem_held_letGo (t : Tracker κ) (a b : Atom) : b ∈ (t.letGo a).held ↔ b ≠ a ∧ b ∈ t.held :=
  AtomSet.mem_erase t.held a b

def derived (t : Tracker κ) : AtomSet :=
  .ofList (
    (Motion.directions (t.motion.bearing t.settings.movementThreshold)).map Motion.pointerAtom
      ++ (Motion.directions (t.wheel.bearing .zero)).map Motion.wheelAtom
      ++ (if t.dragged then [.drag] else [])
      ++ (if t.doubleClicked then [.click .double] else []))

def active (t : Tracker κ) : AtomSet := t.held ∪ t.pressed ∪ t.derived

def nextFrame (t : Tracker κ) : Tracker κ :=
  { t with
    pressed := ∅
    released := ∅
    motion := .none
    wheel := .none
    dragged := false
    doubleClicked := false }

/-- Without bindings no action is reported, and the remembered ones stay. -/
def snapshot [DecidableEq κ] (t : Tracker κ) (frame : Int) :
    Except Fault (Snapshot κ × Tracker κ) := do
  match t.bindings with
  | none => return (⟨frame, t.active, t.pressed, t.released, .none⟩, t.nextFrame)
  | some b =>
    let now ← b.activeActions t.active
    return (⟨frame, t.active, t.pressed, t.released, .between t.activeActions now⟩,
      { t.nextFrame with activeActions := now })

end Tracker

end InputChords
