import InputChords.Catalog.Resolve
import InputChords.Chord.Render
import InputChords.Fault
import InputChords.Number

/-! The values that a host hands in, each of which may turn up where another kind is expected. -/

namespace InputChords

inductive Value where
  | null
  | bool (b : Bool)
  | number (n : Number)
  | text (s : String)
  | bytes (data : List UInt8)
  | list (items : List Value)
  | dict (entries : List (String × Value))
  | atom (a : Atom)
  | tree (t : Chord Value)

instance : Inhabited Value := ⟨.null⟩

namespace Value

def whole (n : Int) : Value := .number (.whole n)

def real (x : Float) : Value := .number (.real x)

def ofChord : Chord Value → Value
  | .stray v => v
  | t => .tree t

def asChord : Value → Chord Value
  | tree t => t
  | v => .stray v

def kindName : Value → String
  | null => "NoneType"
  | bool _ => "bool"
  | number (.whole _) => "int"
  | number (.real _) => "float"
  | text _ => "str"
  | bytes _ => "bytes"
  | list _ => "list"
  | dict _ => "dict"
  | atom a => a.category.typeName
  | tree (.atom _) => "AtomNode"
  | tree (.not _) => "NotNode"
  | tree (.join .and _ _) => "AndNode"
  | tree (.join .or _ _) => "OrNode"
  | tree (.stray v) => v.kindName

def written (n : Int) : Except Fault Decimal.Whole :=
  match Decimal.Whole.of? n with
  | some w => .ok w
  | none => .error .wholeNotWritable

mutual

/-- The value as a host inspects it; fails on a chord with a stray value, the leftmost one, and on
a whole number without a numeral. -/
def described : Value → Except Fault String
  | null => .ok "None"
  | bool b => .ok (if b then "True" else "False")
  | number (.whole n) => (written n).map Decimal.Whole.text
  | number (.real x) => .ok (Decimal.realText x)
  | text s => .ok (Text.quote s)
  | bytes data => .ok (Text.quoteBytes data)
  | list items => do return "[" ++ ", ".intercalate (← describedList items) ++ "]"
  | dict entries => do return "\x7b" ++ ", ".intercalate (← describedEntries entries) ++ "\x7d"
  | atom a => .ok a.described
  | tree t => describedChord t

def describedList : List Value → Except Fault (List String)
  | [] => .ok []
  | v :: rest => do return (← described v) :: (← describedList rest)

def describedEntries : List (String × Value) → Except Fault (List String)
  | [] => .ok []
  | (key, v) :: rest => do
    return (Text.quote key ++ ": " ++ (← described v)) :: (← describedEntries rest)

def describedChord : Chord Value → Except Fault String
  | .atom a => .ok ("AtomNode(atom=" ++ a.described ++ ")")
  | .not t => do return "NotNode(operand=" ++ (← describedChord t) ++ ")"
  | .join .and l r => do
    return "AndNode(left=" ++ (← describedChord l) ++ ", right=" ++ (← describedChord r) ++ ")"
  | .join .or l r => do
    return "OrNode(left=" ++ (← describedChord l) ++ ", right=" ++ (← describedChord r) ++ ")"
  | .stray v => do .error (.notAChord (← described v))

end

/-- Cites a value in a fault, unless the value itself cannot be inspected. -/
def blame (fault : String → Fault) (v : Value) : Fault :=
  match v.described with
  | .ok s => fault s
  | .error inner => inner

def sound {α : Type} : Except Value α → Except Fault α
  | .ok x => .ok x
  | .error v => .error (v.blame .notAChord)

def printed : Value → Except Fault String
  | text s => .ok s
  | atom a => .ok a.name
  | tree t => sound t.render
  | v => v.described

def truthy : Value → Bool
  | null => false
  | bool b => b
  | number n => !n.eq .zero
  | text s => !s.isEmpty
  | bytes data => !data.isEmpty
  | list items => !items.isEmpty
  | dict entries => !entries.isEmpty
  | _ => true

def isAtom : Value → Bool
  | atom _ => true
  | _ => false

end Value

end InputChords
