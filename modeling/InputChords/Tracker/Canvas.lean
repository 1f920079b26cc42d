import InputChords.Tracker.Act

/-! A canvas that calls handlers with event dictionaries. Events of the wrong shape are passed
over. -/

namespace InputChords

inductive CanvasHandler where
  | pointer | key | wheel
  deriving DecidableEq, Repr

abbrev Canvas := List (String × CanvasHandler)

/-- The fields of an event; one that is missing reads as null. -/
abbrev CanvasEvent := Named String Value

namespace CanvasEvent

def field (event : CanvasEvent) (name : String) : Value := (Named.get? event name).getD .null

def typeAmong {α : Type} (known : String → Option α) (event : CanvasEvent) :
    Except Fault (Option α) := do
  let type := event.field "event_type"
  type.hashable
  match type with
  | .text name => return known name
  | _ => return none

/-- A number as it stands; texts of numbers do not count. -/
def real? (v : Value) :
    Option (Except Fault Float) := v.number?.map fun n => Value.realOverflow n.toReal

def reals? (v w : Value) : Except Fault (Option (Float × Float)) :=
  match real? v, real? w with
  | some x, some y => do return some (← x, ← y)
  | _, _ => .ok none

def button (event : CanvasEvent) : Value :=
  match event.field "button" with
  | .bool b => .bool b
  | .number (.whole n) => .whole n
  | _ => .whole 0

def asPointer (event : CanvasEvent) : Except Fault (Option InputEvent) := do
  match ← event.typeAmong PointerAction.ofName? with
  | none => return none
  | some action =>
    match ← reals? (event.field "x") (event.field "y") with
    | none => return none
    | some (x, y) => return some (.pointer action (.real x) (.real y) event.button)

def asKey (event : CanvasEvent) : Except Fault (Option InputEvent) := do
  match ← event.typeAmong KeyAction.ofName?, event.field "key" with
  | some pressed, .text name => return some (.key pressed (.text name))
  | _, _ => return none

def asWheel (event : CanvasEvent) : Except Fault (Option InputEvent) := do
  match event.field "event_type" with
  | .text "wheel" =>
    let distance (name : String) := (Named.get? event name).getD (.real 0.0)
    match ← reals? (distance "dx") (distance "dy") with
    | none => return none
    | some (x, y) => return some (.wheel (.real x) (.real y))
  | _ => return none

end CanvasEvent

namespace CanvasHandler

def read (h : CanvasHandler) (event : CanvasEvent) : Except Fault (Option InputEvent) :=
  match h with
  | pointer => event.asPointer
  | key => event.asKey
  | wheel => event.asWheel

def run {κ : Type} (h : CanvasHandler) (event : CanvasEvent) : Act κ Unit := do
  match ← Act.demand (h.read event) with
  | none => return ()
  | some e => Act.consume e

end CanvasHandler

namespace Canvas

def handlers : Canvas :=
  [("pointer_down", .pointer),
    ("pointer_move", .pointer),
    ("pointer_up", .pointer),
    ("key_down", .key),
    ("key_up", .key),
    ("wheel", .wheel)]

def register (canvas : Canvas) (takesHandlers : Bool) : Except Fault Canvas :=
  if takesHandlers then .ok (canvas ++ handlers) else .error .noEventHandlers

def names (canvas : Canvas) : List String := canvas.map (·.1)

def runEach {κ : Type} (event : CanvasEvent) : List CanvasHandler → Act κ Unit
  | [] => return ()
  | h :: rest => do
    h.run event
    runEach event rest

def deliver {κ : Type} (canvas : Canvas) (name : String) (event : CanvasEvent) : Act κ Unit :=
  runEach event ((canvas.filter fun entry => entry.1 == name).map (·.2))

end Canvas

end InputChords
