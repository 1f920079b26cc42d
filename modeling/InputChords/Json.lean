import InputChords.Decimal.Shortest
import InputChords.Decimal.Whole
import InputChords.Text.Quoted

/-! JSON values and their text on one line, in printable ASCII only. -/

namespace InputChords

inductive Json where
  | null
  | bool (b : Bool)
  | whole (n : Decimal.Whole)
  | real (x : Float)
  | text (s : String)
  | list (items : List Json)
  | object (fields : List (String × Json))

instance : Inhabited Json := ⟨.null⟩

namespace Json

def escapeUnit (unit : Nat) : List Char := '\\' :: 'u' :: Text.hex 4 unit

def escapeCode (code : Nat) : List Char :=
  if code < 0x10000 then escapeUnit code
  else
    escapeUnit (0xd800 + (code - 0x10000) / 0x400) ++ escapeUnit (0xdc00 + (code - 0x10000) % 0x400)

def escapeChar (c : Char) : List Char :=
  if c = '\x22' then ['\\', '\x22']
  else if c = '\\' then ['\\', '\\']
  else if c = '\n' then ['\\', 'n']
  else if c = '\r' then ['\\', 'r']
  else if c = '\t' then ['\\', 't']
  else if c.toNat = 8 then ['\\', 'b']
  else if c.toNat = 12 then ['\\', 'f']
  else if 32 ≤ c.toNat && c.toNat < 127 then [c]
  else escapeCode c.toNat

def quote (s : String) : String :=
  String.ofList ('\x22' :: (s.toList.flatMap escapeChar ++ ['\x22']))

/-- Reals that JSON has no numeral for are spelt out. -/
def realText (x : Float) : String :=
  match Decimal.parts x with
  | .nan => "NaN"
  | .infinite negative => if negative then "-Infinity" else "Infinity"
  | .finite _ _ _ => Decimal.realText x

mutual

def render : Json → String
  | null => "null"
  | bool b => if b then "true" else "false"
  | whole n => n.text
  | real x => realText x
  | text s => quote s
  | list items => "[" ++ ", ".intercalate (renderList items) ++ "]"
  | object fields => "\x7b" ++ ", ".intercalate (renderFields fields) ++ "\x7d"

def renderList : List Json → List String
  | [] => []
  | item :: rest => render item :: renderList rest

def renderFields : List (String × Json) → List String
  | [] => []
  | (name, item) :: rest => (quote name ++ ": " ++ render item) :: renderFields rest

end

end Json

end InputChords
