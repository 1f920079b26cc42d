import InputChords.Atom

/-! The names that atoms go by besides their canonical ones, in the order in which they are
preferred for display. -/

namespace InputChords

def Modifier.aliases : Modifier → List String
  | .ctrl => ["control"]
  | .shift => ["shft"]
  | .alt => ["opt", "option"]
  | .win => ["windows", "cmd", "command"]

def Key.aliases : Key → List String
  | modifier m none => m.aliases
  | modifier m (some .left) => m.aliases.map ("l" ++ ·)
  | modifier m (some .right) => m.aliases.map ("r" ++ ·)
  | caps => ["capslock"]
  | digit d => [digitName d]
  | esc => ["escape"]
  | prtScr => ["prtsc", "sysreq", "screenshot"]
  | scrollLock => ["scroll"]
  | pause => ["break"]
  | insert => ["ins"]
  | delete => ["del"]
  | pageDown => ["pgdown", "paged"]
  | pageUp => ["pgup", "pageu"]
  | arrow .up => ["uparrow"]
  | arrow .left => ["leftarrow"]
  | arrow .down => ["downarrow"]
  | arrow .right => ["rightarrow"]
  | backspace => ["back"]
  | enter => ["enter"]
  | space => ["spacebar"]
  | numpad d => ["num" ++ digitName d]
  | grave => ["backtik", "backtick", "`"]
  | minus => ["-"]
  | equals => ["eq", "="]
  | backslash => ["\\"]
  | semicolon => [";"]
  | apostrophe => ["'"]
  | comma => [","]
  | period => ["fullstop", "."]
  | slash => ["forwardslash", "/"]
  | _ => []

def Click.aliases : Click → List String
  | left => ["MouseLeft", "MouseClick", "Click"]
  | middle => ["MouseMiddle"]
  | right => ["MouseRight"]
  | double => ["MouseDouble"]

namespace Atom

def aliases : Atom → List String
  | key k => k.aliases
  | click c => c.aliases
  | movement c => ["MouseMove" ++ c.name, "MouseMovement" ++ c.name]
  | wheel c => ["MouseWheel" ++ c.name, "Scroll" ++ c.name, "MouseScroll" ++ c.name]
  | drag => []

def names (a : Atom) : List String := a.name :: a.aliases

end Atom

end InputChords
