import InputChords.InputEvent
import InputChords.KeyName
import InputChords.Log.Template
import InputChords.Tracker

/-! Operations on a tracker as they come from outside: values of any kind go in, records are
logged, and a fault leaves what was done before it. -/

namespace InputChords

/-- A tracker and its log. Without listeners there is no log, and messages are not even formed. -/
structure Session (κ : Type) where
  tracker : Tracker κ
  log : Option (List Log.Record)

abbrev Act (κ : Type) := EStateM Fault (Session κ)

variable {κ : Type}

namespace Act

def demand {α : Type} : Except Fault α → Act κ α
  | .ok x => return x
  | .error e => throw e

def update (f : Tracker κ → Tracker κ) :
    Act κ Unit := modify fun s => { s with tracker := f s.tracker }

def append (records : List Log.Record) : Act κ Unit :=
  modify fun s => { s with log := s.log.map (· ++ records) }

/-- A message that cannot be formed is lost, and the operation goes on. -/
def write (logger : String) : Except Fault String → Act κ Unit
  | .ok text => append [Log.debug logger text]
  | .error _ => return ()

def logger : String := "chordbind.input.state_tracker"

def trace (message : Except Fault String) : Act κ Unit := do
  if (← get).tracker.settings.inputTrace then write logger message

def press (a : Atom) : Act κ Unit := do
  let t := (← get).tracker
  if a ∈ t.held then return ()
  if a = Tracker.leftClick then
    let t ← demand (Value.realOverflow t.leftPress)
    update fun _ => t
  update (·.hold a)
  trace (.ok ("input_pressed atom=" ++ a.name))

def release (a : Atom) : Act κ Unit := do
  if a ∉ (← get).tracker.held then return ()
  update (·.letGo a)
  trace (.ok ("input_released atom=" ++ a.name))

def atomOf : Value → Act κ Atom
  | .atom a => return a
  | v => throw (v.blame .notAnAtom)

def pressValue (v : Value) : Act κ Unit := do press (← atomOf v)

def releaseValue (v : Value) : Act κ Unit := do release (← atomOf v)

def releaseEach : List Atom → Act κ Unit
  | [] => return ()
  | a :: rest => do
    release a
    releaseEach rest

def releaseAll : Act κ Unit := do releaseEach (← get).tracker.held.members

/-- Whether one of the two distances is beyond the threshold; the second is only asked for if the
first is not. -/
def exceeds (threshold : Number) (dx dy : Value) : Except Fault Bool := do
  if threshold.lt (← dx.magnitude) then return true
  return threshold.lt (← dy.magnitude)

def addMotion (dx dy : Value) : Act κ Unit := do
  let x ← demand dx.toReal
  update fun t => { t with motion := { t.motion with dx := t.motion.dx + x } }
  let y ← demand dy.toReal
  update fun t => { t with motion := { t.motion with dy := t.motion.dy + y } }
  let t := (← get).tracker
  if (← demand (exceeds t.settings.movementThreshold dx dy)) && decide (Tracker.leftClick ∈ t.held)
    then update fun t => { t with dragged := true }

/-- The first position that is ever seen is where movement starts from. -/
def moveTo (x y : Value) : Act κ Unit := do
  let x ← demand x.toReal
  let y ← demand y.toReal
  let previous := (← get).tracker.pointer
  update fun t => { t with pointer := some (x, y) }
  match previous with
  | none => return ()
  | some (x₀, y₀) => addMotion (.real (x - x₀)) (.real (y - y₀))

def addWheel (dx dy : Value) : Act κ Unit := do
  let x ← demand dx.toReal
  update fun t => { t with wheel := { t.wheel with dx := t.wheel.dx + x } }
  let y ← demand dy.toReal
  update fun t => { t with wheel := { t.wheel with dy := t.wheel.dy + y } }

/-- The position of an event with an unknown button is not looked at. -/
def pointer (action : PointerAction) (x y button : Value) : Act κ Unit := do
  match action with
  | .move => moveTo x y
  | .down =>
    match ← demand (Button.ofValue button) with
    | none => ignored
    | some c => do
      moveTo x y
      press (.click c)
  | .up =>
    match ← demand (Button.ofValue button) with
    | none => ignored
    | some c => do
      moveTo x y
      release (.click c)
where
  ignored : Act κ Unit :=
    trace (do return "input_pointer_ignored button=" ++ (← Log.Template.wholeText button))

def key (pressed : Bool) (name : Value) : Act κ Unit := do
  match ← demand (KeyName.ofValue name) with
  | none => trace (do return "input_key_unmapped key=" ++ (← name.described))
  | some k => if pressed then press (.key k) else release (.key k)

def consume : InputEvent → Act κ Unit
  | .pointer action x y button => pointer action x y button
  | .key pressed name => key pressed name
  | .wheel dx dy => addWheel dx dy
  | .foreign v => throw (v.blame .notAnEvent)

def consumeAll : List InputEvent → Act κ Unit
  | [] => return ()
  | event :: rest => do
    consume event
    consumeAll rest

def snapshot [DecidableEq κ] (frame : Int) : Act κ (Snapshot κ) := do
  let (taken, t) ← demand ((← get).tracker.snapshot frame)
  update fun _ => t
  return taken

def setClock (now : Number) : Act κ Unit := update fun t => { t with clock := now }

def attach (bindings : Option (Bindings κ)) :
    Act κ Unit := update fun t => { t with bindings := bindings }

def stepOn {α : Type} (step : Bindings.Step κ α) : Act κ α := do
  append step.records
  let (b, result) ← demand step.outcome
  attach (some b)
  return result

def attachAll [DecidableEq κ] [Quotable κ] (trace : Bool) (entries : List (κ × Value)) :
    Act κ Unit :=
  stepOn ((Bindings.empty trace).bindAll entries)

def bindings (operation : String) : Act κ (Bindings κ) := do
  match (← get).tracker.bindings with
  | some b => return b
  | none => throw (.noBindings operation)

def bind [DecidableEq κ] [Quotable κ] (action : κ) (expression : Value) :
    Act κ (Option (Chord Value)) := do
  stepOn ((← bindings "bind").bind action expression)

def unbind [DecidableEq κ] [Quotable κ] (action : κ) :
    Act κ Unit := do stepOn ((← bindings "unbind").unbind action)

end Act

end InputChords
