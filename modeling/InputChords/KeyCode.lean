import InputChords.Value.Numeric

/-! Key and button codes of window backends. -/

namespace InputChords

namespace KeyCode

def special : List (Int × Key) :=
  [(341, .modifier .ctrl (some .left)),
    (345, .modifier .ctrl (some .right)),
    (340, .modifier .shift (some .left)),
    (344, .modifier .shift (some .right)),
    (342, .modifier .alt (some .left)),
    (346, .modifier .alt (some .right)),
    (343, .modifier .win (some .left)),
    (347, .modifier .win (some .right)),
    (258, .tab),
    (280, .caps),
    (256, .esc),
    (283, .prtScr),
    (281, .scrollLock),
    (282, .numLock),
    (284, .pause),
    (260, .insert),
    (268, .home),
    (261, .delete),
    (269, .ending),
    (267, .pageDown),
    (266, .pageUp),
    (265, .arrow .up),
    (263, .arrow .left),
    (264, .arrow .down),
    (262, .arrow .right),
    (259, .backspace),
    (257, .enter),
    (32, .space),
    (96, .grave),
    (45, .minus),
    (61, .equals),
    (92, .backslash),
    (59, .semicolon),
    (39, .apostrophe),
    (44, .comma),
    (46, .period),
    (47, .slash)]

def table : List (Int × Key) :=
  special
    ++ (List.finRange 10).map (fun d => (48 + (d.val : Int), Key.digit d))
    ++ (List.finRange 10).map (fun d => (320 + (d.val : Int), Key.numpad d))
    ++ (List.finRange 26).map (fun n => (65 + (n.val : Int), Key.letter n))
    ++ (List.finRange 24).map (fun n => (290 + (n.val : Int), Key.function n))

def coded : List Key := table.map (·.2)

end KeyCode

/-- The codes of a window backend. All backends have codes for the same keys and buttons, and no two
of a kind share one. -/
structure Backend where
  keys : List (Int × Key)
  clicks : List (Int × Click)
  press : Int
  release : Int
  again : Int
  keys_coded : keys.map (·.2) = KeyCode.coded
  clicks_coded : clicks.map (·.2) = [.left, .right, .middle]
  keys_nodup : (keys.map (·.1)).Nodup
  clicks_nodup : (clicks.map (·.1)).Nodup
  press_ne_release : press ≠ release
  again_ne_release : again ≠ release

namespace Backend

def standard : Backend where
  keys := KeyCode.table
  clicks := [(0, .left), (1, .right), (2, .middle)]
  press := 1
  release := 0
  again := 2
  keys_coded := rfl
  clicks_coded := rfl
  keys_nodup := by decide +kernel
  clicks_nodup := by decide
  press_ne_release := by decide
  again_ne_release := by decide

def key? (b : Backend) (code : Int) : Option Key := b.keys.lookup code

def click? (b : Backend) (code : Int) : Option Click := b.clicks.lookup code

def keyOf (b : Backend) (v : Value) : Except Fault (Option Key) := do return b.key? (← v.toWhole)

def clickOf (b : Backend) (v : Value) : Except Fault (Option Click) := do
  return b.click? (← v.toWhole)

end Backend

namespace KeyCode

def keyOfValue (backend : Bool) (v : Value) : Except Fault (Option Key) :=
  if backend then Backend.standard.keyOf v else .error .noBackend

def clickOfValue (backend : Bool) (v : Value) : Except Fault (Option Click) :=
  if backend then Backend.standard.clickOf v else .error .noBackend

end KeyCode

end InputChords
