import InputChords.Value.Equal

/-! Host values read as numbers. -/

namespace InputChords.Value

/-- Bytes are read as the text of their ASCII characters; no other byte occurs in a numeral. -/
def numeralChars (data : List UInt8) : List Char :=
  data.map fun byte => if byte < 128 then Char.ofNat byte.toNat else '?'

def realOverflow {α : Type} : Except Number.Overflow α → Except Fault α
  | .ok x => .ok x
  | .error .tooLarge => .error .realOverflow

def readReal (v : Value) (cs : List Char) : Except Fault Float :=
  match Decimal.readReal cs with
  | some x => .ok x
  | none => .error (v.blame .unreadableReal)

def toReal (v : Value) : Except Fault Float :=
  match v with
  | .text s => readReal v s.toList
  | .bytes data => readReal v (numeralChars data)
  | v =>
    match v.number? with
    | some n => realOverflow n.toReal
    | none => .error (.notAReal v.kindName)

def readWhole (v : Value) (cs : List Char) : Except Fault Int :=
  match Decimal.readWhole cs with
  | .ok n => .ok n
  | .error .malformed => .error (v.blame .unreadableWhole)
  | .error (.tooLong digits) => .error (.wholeTooLong digits)

def truncate (x : Float) : Except Fault Int :=
  match Decimal.parts x with
  | .nan => .error .nanToWhole
  | .infinite _ => .error .infinityToWhole
  | .finite negative mantissa exponent =>
    let size : Int := mantissa * Int.pow 2 exponent.toNat / Int.pow 2 (-exponent).toNat
    .ok (if negative then -size else size)

def toWhole (v : Value) : Except Fault Int :=
  match v with
  | .text s => readWhole v s.toList
  | .bytes data => readWhole (.bytes (data.take Fault.citedLength)) (numeralChars data)
  | v =>
    match v.number? with
    | some (.whole n) => .ok n
    | some (.real x) => truncate x
    | none => .error (.notAWhole v.kindName)

/-- Numbers without their sign; a text is not a number here. -/
def magnitude (v : Value) : Except Fault Number :=
  match v.number? with
  | some n => .ok n.abs
  | none => .error (.noMagnitude v.kindName)

end InputChords.Value
