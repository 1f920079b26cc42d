import InputChords.Json
import InputChords.Value

/-! Host values as JSON. -/

namespace InputChords.Value

mutual

/-- Values without a JSON form are written as a host prints them. A whole number without a numeral
is written in no way. -/
def toJson : Value → Except Fault Json
  | null => .ok .null
  | bool b => .ok (.bool b)
  | number (.whole n) => (written n).map .whole
  | number (.real x) => .ok (.real x)
  | text s => .ok (.text s)
  | list items => do return .list (← toJsonList items)
  | dict entries => do return .object (← toJsonEntries entries)
  | v => do return .text (← v.printed)

def toJsonList : List Value → Except Fault (List Json)
  | [] => .ok []
  | v :: rest => do return (← toJson v) :: (← toJsonList rest)

def toJsonEntries : List (String × Value) → Except Fault (List (String × Json))
  | [] => .ok []
  | (name, v) :: rest => do return (name, ← toJson v) :: (← toJsonEntries rest)

end

end InputChords.Value
