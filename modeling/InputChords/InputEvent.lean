import InputChords.Value.Equal

/-! Input events of a host that knows no window system. Their coordinates, names and buttons are
taken as they come. -/

namespace InputChords

inductive PointerAction where
  | down | up | move
  deriving DecidableEq, Repr

def PointerAction.ofName? (name : String) : Option PointerAction :=
  if name = "pointer_down" then some .down
  else if name = "pointer_up" then some .up
  else if name = "pointer_move" then some .move
  else none

def KeyAction.ofName? (name : String) : Option Bool :=
  if name = "key_down" then some true else if name = "key_up" then some false else none

/-- A `foreign` value is no event at all. -/
inductive InputEvent where
  | pointer (action : PointerAction) (x y button : Value)
  | key (pressed : Bool) (name : Value)
  | wheel (dx dy : Value)
  | foreign (v : Value)

namespace InputEvent

/-- Looks a type up in a set of names: a value that cannot be a member of a set is a fault. -/
def typed {α : Type} (known : String → Option α) (unknown : String → Fault) (type : Value) :
    Except Fault α := do
  type.hashable
  match type with
  | .text name =>
    match known name with
    | some action => return action
    | none => .error (type.blame unknown)
  | _ => .error (type.blame unknown)

def ofPointer (type x y button : Value) : Except Fault InputEvent := do
  return .pointer (← typed PointerAction.ofName? .unknownPointerEvent type) x y button

def ofKey (type name : Value) : Except Fault InputEvent := do
  return .key (← typed KeyAction.ofName? .unknownKeyEvent type) name

def pressed? : InputEvent → Option Bool
  | key pressed _ => some pressed
  | _ => none

end InputEvent

end InputChords
