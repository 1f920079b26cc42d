import InputChords.Catalog.Resolve
import InputChords.Text.Blank
import InputChords.Value.Numeric

/-! Key names and pointer buttons as hosts report them. -/

namespace InputChords

namespace KeyName

/-- Names that the catalog does not know or reads otherwise. Without a side a modifier is the left
one. -/
def hostKeys : List (String × Key) :=
  [("control", .modifier .ctrl (some .left)),
    ("shift", .modifier .shift (some .left)),
    ("alt", .modifier .alt (some .left)),
    ("altgraph", .modifier .alt (some .right)),
    ("meta", .modifier .win (some .left)),
    ("os", .modifier .win (some .left)),
    ("super", .modifier .win (some .left)),
    ("arrowup", .arrow .up),
    ("arrowdown", .arrow .down),
    ("arrowleft", .arrow .left),
    ("arrowright", .arrow .right),
    ("printscreen", .prtScr),
    (" ", .space),
    ("-", .minus)]

def leftmost (k : Key) : Key :=
  match k with
  | .modifier m none => .modifier m (some .left)
  | k => k

/-- Names that only stand for a part of the mouse name no key. -/
def key? (name : String) : Option Key :=
  let folded := Text.lower name
  match hostKeys.lookup folded with
  | some k => some k
  | none =>
    match resolveAtom (Text.strip folded) with
    | some (.key k) => some (leftmost k)
    | _ => none

def ofValue (v : Value) : Except Fault (Option Key) :=
  match v with
  | .text name => .ok (key? name)
  | .bytes _ => .error .bytesAsName
  | v => .error (.noLowerCase v.kindName)

end KeyName

namespace Button

def click? (n : Int) : Option Click :=
  if n = 1 then some .left else if n = 2 then some .right else if n = 3 then some .middle else none

def ofValue (v : Value) : Except Fault (Option Click) := do return click? (← v.toWhole)

end Button

end InputChords
