import InputChords.KeyCode
import InputChords.Tracker.Act

/-! Callbacks of a window backend. It reports codes instead of names, and a wheel that turns up as
a positive distance. -/

namespace InputChords.Window

variable {κ : Type}

def logger : String := "chordbind.window.glfw_codes"

inductive CodeAction where
  | press | release
  deriving DecidableEq, Repr

/-- Any number that equals the code will do; a repeated press is neither. -/
def actionOf (b : Backend) (v : Value) : Option CodeAction :=
  if v.equals (.whole b.press) then some .press
  else if v.equals (.whole b.release) then some .release
  else none

def apply (b : Backend) (a : Atom) (action : Value) : Act κ Unit :=
  match actionOf b action with
  | some .press => Act.press a
  | some .release => Act.release a
  | none => return ()

def onKey (b : Backend) (key scancode action : Value) : Act κ Unit := do
  match ← Act.demand (b.keyOf key) with
  | some k => apply b (.key k) action
  | none => Act.write logger do
    return "glfw_key_unmapped key=" ++ (← Log.Template.wholeText key)
      ++ " scancode=" ++ (← Log.Template.wholeText scancode)

def onButton (b : Backend) (button action : Value) : Act κ Unit := do
  match ← Act.demand (b.clickOf button) with
  | some c => apply b (.click c) action
  | none => Act.write logger do
    return "glfw_button_unmapped button=" ++ (← Log.Template.wholeText button)

def onPosition (x y : Value) : Act κ Unit := Act.moveTo x y

def onScroll (dx dy : Value) : Act κ Unit := do
  let x ← Act.demand dx.toReal
  let y ← Act.demand dy.toReal
  Act.addWheel (.real x) (.real (-y))

def onFocus (focused : Value) : Act κ Unit := do
  if !focused.truthy then Act.releaseAll

end InputChords.Window
