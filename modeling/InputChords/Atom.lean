/-! The atomic inputs a chord is made of: keys, clicks, pointer movement, wheel movement and the
drag, each with its canonical name. -/

namespace InputChords

inductive Category where
  | keyboard | mouseClick | mouseMovement | mouseWheel | mouseDrag
  deriving DecidableEq, Repr

namespace Category

def all : List Category := [keyboard, mouseClick, mouseMovement, mouseWheel, mouseDrag]

def name : Category → String
  | keyboard => "Keyboard"
  | mouseClick => "MouseClick"
  | mouseMovement => "MouseMovement"
  | mouseWheel => "MouseWheel"
  | mouseDrag => "MouseDrag"

def typeName (c : Category) : String := c.name ++ "Input"

theorem mem_all (c : Category) : c ∈ all := by cases c <;> decide

end Category

inductive Side where
  | left | right
  deriving DecidableEq, Repr

inductive Modifier where
  | ctrl | shift | alt | win
  deriving DecidableEq, Repr

inductive Direction where
  | up | down | left | right
  deriving DecidableEq, Repr

inductive Axis where
  | vertical | horizontal
  deriving DecidableEq, Repr

inductive Course where
  | toward (d : Direction)
  | along (a : Axis)
  deriving DecidableEq, Repr

inductive Click where
  | left | middle | right | double
  deriving DecidableEq, Repr

/-- A modifier without a side stands for both of its keys. -/
inductive Key where
  | modifier (m : Modifier) (side : Option Side)
  | tab | caps
  | digit (d : Fin 10)
  | letter (n : Fin 26)
  | esc
  | function (n : Fin 24)
  | prtScr | scrollLock | numLock | pause | insert | home | delete | ending | pageDown | pageUp
  | arrow (d : Direction)
  | backspace | enter | space | compose
  | numpad (d : Fin 10)
  | grave | minus | equals | backslash | semicolon | apostrophe | comma | period | slash
  deriving DecidableEq, Repr

inductive Atom where
  | key (k : Key)
  | click (c : Click)
  | movement (c : Course)
  | wheel (c : Course)
  | drag
  deriving DecidableEq, Repr

def Modifier.name : Modifier → String
  | ctrl => "Ctrl"
  | shift => "Shift"
  | alt => "Alt"
  | win => "Win"

def Side.mark : Side → String
  | left => "L"
  | right => "R"

def Direction.name : Direction → String
  | up => "Up"
  | down => "Down"
  | left => "Left"
  | right => "Right"

def Axis.name : Axis → String
  | vertical => "Vertical"
  | horizontal => "Horizontal"

def Course.name : Course → String
  | toward d => d.name
  | along a => a.name

def digitName (d : Fin 10) : String := String.singleton (Char.ofNat (48 + d))

def letterName (n : Fin 26) : String := String.singleton (Char.ofNat (65 + n))

namespace Key

def name : Key → String
  | modifier m none => m.name
  | modifier m (some side) => side.mark ++ m.name
  | tab => "Tab"
  | caps => "Caps"
  | digit d => "Key" ++ digitName d
  | letter n => letterName n
  | esc => "Esc"
  | function n => "F" ++ toString (n.val + 1)
  | prtScr => "PrtScr"
  | scrollLock => "ScrollLock"
  | numLock => "NumLock"
  | pause => "Pause"
  | insert => "Insert"
  | home => "Home"
  | delete => "Delete"
  | ending => "End"
  | pageDown => "PageDown"
  | pageUp => "PageUp"
  | arrow d => d.name
  | backspace => "Backspace"
  | enter => "Return"
  | space => "Space"
  | compose => "Compose"
  | numpad d => "Numpad" ++ digitName d
  | grave => "Grave"
  | minus => "Minus"
  | equals => "Equals"
  | backslash => "Backslash"
  | semicolon => "Semicolon"
  | apostrophe => "Apostrophe"
  | comma => "Comma"
  | period => "Period"
  | slash => "Slash"

def identifier : Key → String
  | scrollLock => "SCROLL_LOCK"
  | numLock => "NUM_LOCK"
  | pageDown => "PAGE_DOWN"
  | pageUp => "PAGE_UP"
  | k => k.name.toUpper

def modifiers : List Key :=
  [Modifier.ctrl, .shift, .alt, .win].flatMap fun m =>
    [modifier m none, modifier m (some .left), modifier m (some .right)]

def all : List Key :=
  modifiers ++ [tab, caps] ++ (List.finRange 10).map digit ++ (List.finRange 26).map letter
    ++ [esc] ++ (List.finRange 24).map function
    ++ [prtScr, scrollLock, numLock, pause, insert, home, delete, ending, pageDown, pageUp]
    ++ [Direction.up, .left, .down, .right].map arrow
    ++ [backspace, enter, space, compose] ++ (List.finRange 10).map numpad
    ++ [grave, minus, equals, backslash, semicolon, apostrophe, comma, period, slash]

theorem mem_all (k : Key) : k ∈ all := by
  cases k with
  | modifier m side => cases m <;> rcases side with _ | _ | _ <;> decide
  | digit d => simp [all]
  | letter n => simp [all]
  | function n => simp [all]
  | numpad d => simp [all]
  | arrow d => cases d <;> decide
  | _ => decide

end Key

namespace Click

def all : List Click := [left, middle, right, double]

def name : Click → String
  | left => "LeftClick"
  | middle => "MiddleClick"
  | right => "RightClick"
  | double => "DoubleClick"

def identifier : Click → String
  | left => "LEFT_CLICK"
  | middle => "MIDDLE_CLICK"
  | right => "RIGHT_CLICK"
  | double => "DOUBLE_CLICK"

theorem mem_all (c : Click) : c ∈ all := by cases c <;> decide

end Click

namespace Course

def all : List Course :=
  [toward .up, toward .down, toward .left, toward .right, along .vertical, along .horizontal]

theorem mem_all (c : Course) : c ∈ all := by
  rcases c with d | a
  · cases d <;> decide
  · cases a <;> decide

def parts : Course → Option (Course × Course)
  | toward _ => none
  | along .vertical => some (toward .up, toward .down)
  | along .horizontal => some (toward .left, toward .right)

end Course

namespace Atom

def category : Atom → Category
  | key _ => .keyboard
  | click _ => .mouseClick
  | movement _ => .mouseMovement
  | wheel _ => .mouseWheel
  | drag => .mouseDrag

def name : Atom → String
  | key k => k.name
  | click c => c.name
  | movement c => "Mouse" ++ c.name
  | wheel c => "Wheel" ++ c.name
  | drag => "MouseDrag"

def identifier : Atom → String
  | key k => k.identifier
  | click c => c.identifier
  | movement c => "MOUSE_" ++ c.name.toUpper
  | wheel c => "WHEEL_" ++ c.name.toUpper
  | drag => "MOUSE_DRAG"

def qualified (a : Atom) : String := a.category.name ++ "." ++ a.name

/-- The atom as a host inspects it. Canonical names hold nothing that needs an escape. -/
def described (a : Atom) : String :=
  "<" ++ a.category.typeName ++ "." ++ a.identifier ++ ": '" ++ a.name ++ "'>"

def all : List Atom :=
  Key.all.map key ++ Click.all.map click ++ Course.all.map movement ++ Course.all.map wheel
    ++ [drag]

theorem mem_all (a : Atom) : a ∈ all := by
  cases a with
  | key k => simp [all, Key.mem_all]
  | click c => simp [all, Click.mem_all]
  | movement c => simp [all, Course.mem_all]
  | wheel c => simp [all, Course.mem_all]
  | drag => simp [all]

def ofCategory (c : Category) : List Atom := all.filter fun a => a.category == c

/-- The two leaves that a composite atom stands for. -/
def parts : Atom → Option (Atom × Atom)
  | key (.modifier m none) => some (key (.modifier m (some .left)), key (.modifier m (some .right)))
  | movement c => c.parts.map fun (first, second) => (movement first, movement second)
  | wheel c => c.parts.map fun (first, second) => (wheel first, wheel second)
  | _ => none

def isComposite (a : Atom) : Bool := a.parts.isSome

theorem parts_of_part {a first second : Atom} (h : a.parts = some (first, second)) :
    first.parts = none ∧ second.parts = none := by
  rcases a with (⟨m, _ | side⟩ | _) | _ | (_ | _ | _) | (_ | _ | _) | _ <;>
    simp_all [parts, Course.parts] <;> obtain ⟨rfl, rfl⟩ := h <;> simp

end Atom

end InputChords
