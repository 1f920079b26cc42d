import InputChords.Decimal.Places
import InputChords.Value.Numeric

/-! Single conversions of a message template: what stands between a percent sign and the letter of
the conversion, and the text that a value becomes. -/

namespace InputChords.Log

structure Layout where
  left : Bool
  plus : Bool
  blank : Bool
  full : Bool
  zeros : Bool
  width : Nat
  precision : Option Nat
  deriving DecidableEq, Repr

namespace Layout

def plain : Layout := ⟨false, false, false, false, false, 0, none⟩

def flag? (l : Layout) (c : Char) : Option Layout :=
  match c with
  | '-' => some { l with left := true }
  | '+' => some { l with plus := true }
  | ' ' => some { l with blank := true }
  | '#' => some { l with full := true }
  | '0' => some { l with zeros := true }
  | _ => none

def padded (l : Layout) (text : List Char) : List Char :=
  let pad := List.replicate (l.width - text.length) ' '
  if l.left then text ++ pad else pad ++ text

/-- A precision is the most characters that are shown of a text. -/
def ofText (l : Layout) (text : List Char) : List Char :=
  l.padded (match l.precision with
    | some most => text.take most
    | none => text)

def sign (l : Layout) (negative : Bool) : List Char :=
  if negative then ['-'] else if l.plus then ['+'] else if l.blank then [' '] else []

/-- `mark` is the mark of a base. Zeros fill the width behind it. -/
def ofNumber (l : Layout) (negative : Bool) (mark digits : List Char) : List Char :=
  let front := l.sign negative ++ mark
  if l.zeros && !l.left then
    front ++ List.replicate (l.width - front.length - digits.length) '0' ++ digits
  else l.padded (front ++ digits)

end Layout

namespace Conversion

/-- The bounds of the two sizes on a host of 64 bits. -/
def widthLimit : Nat := 0x8000000000000000

def precisionLimit : Nat := 0x80000000

def whole (letter : Char) (v : Value) : Except Fault Int :=
  match v.number? with
  | some (.whole n) => .ok n
  | some (.real x) => Value.truncate x
  | none => .error (.notPrintableAsNumber letter v.kindName)

def integer (letter : Char) (v : Value) : Except Fault Int :=
  match v.number? with
  | some (.whole n) => .ok n
  | _ => .error (.notPrintableAsInteger letter v.kindName)

def real (v : Value) : Except Fault Float :=
  match v.number? with
  | some n => Value.realOverflow n.toReal
  | none => .error (.notPrintableAsReal v.kindName)

def char (v : Value) : Except Fault Char :=
  match v, v.number? with
  | .text s, _ =>
    match s.toList with
    | [c] => .ok c
    | _ => .error .notPrintableAsChar
  | _, some (.whole n) =>
    if n < 0 || 0x110000 ≤ n then .error .charOutOfRange
    else if n.toNat.isValidChar then .ok (Char.ofNat n.toNat)
    else .error .surrogate
  | _, _ => .error .notPrintableAsChar

/-- A precision is the fewest digits of a whole number. -/
def fewest (l : Layout) : Except Fault Nat :=
  let fewest := l.precision.getD 0
  if fewest + 3 < precisionLimit then .ok fewest else .error .precisionTooLarge

def inBase (l : Layout) (mark : List Char) (n : Int) (digits : Except Fault (List Char)) :
    Except Fault (List Char) := do
  let fewest ← fewest l
  let digits ← digits
  return l.ofNumber (n < 0) mark (List.replicate (fewest - digits.length) '0' ++ digits)

def places (l : Layout) (letter : Char) (x : Float) : List Char :=
  let places := l.precision.getD 6
  match Decimal.parts x with
  | .nan => l.ofNumber false [] "nan".toList
  | .infinite negative => l.ofNumber negative [] "inf".toList
  | .finite negative mantissa exponent =>
    let num := mantissa * Nat.pow 2 exponent.toNat
    let den := Nat.pow 2 (-exponent).toNat
    l.ofNumber negative []
      (if letter = 'f' then Decimal.fixed l.full places num den
      else if letter = 'e' then Decimal.scientific l.full places num den
      else Decimal.general l.full places num den)

def upper (text : List Char) : List Char := text.map Char.toUpper

def ascii (text : List Char) : List Char :=
  text.flatMap fun c => if c.toNat < 128 then [c] else Text.escapeCode c.toNat

def convert (l : Layout) (letter : Char) (index : Nat) (v : Value) : Except Fault (List Char) :=
  match letter with
  | 's' => do return l.ofText (← v.printed).toList
  | 'r' => do return l.ofText (← v.described).toList
  | 'a' => do return l.ofText (ascii (← v.described).toList)
  | 'c' => do return l.padded [← char v]
  | 'd' | 'i' | 'u' => do
    let n ← whole letter v
    inBase l [] n ((Value.written n).map Decimal.Whole.digits)
  | 'o' => do
    let n ← integer letter v
    inBase l (if l.full then "0o".toList else []) n (.ok (Nat.toDigits 8 n.natAbs))
  | 'x' => do
    let n ← integer letter v
    inBase l (if l.full then "0x".toList else []) n (.ok (Nat.toDigits 16 n.natAbs))
  | 'X' => do
    let n ← integer letter v
    inBase l (if l.full then "0X".toList else []) n (.ok (upper (Nat.toDigits 16 n.natAbs)))
  | 'e' | 'f' | 'g' => do return places l letter (← real v)
  | 'E' | 'F' | 'G' => do return upper (places l letter.toLower (← real v))
  | c => .error (.unknownConversion c index)

end Conversion

inductive Phase where
  | start
  | flags
  | width
  | wide
  | point
  | precision
  | precise
  | size
  deriving DecidableEq, Repr

structure Conversion where
  layout : Layout
  phase : Phase
  deriving DecidableEq, Repr

namespace Conversion

def opened : Conversion := ⟨.plain, .start⟩

def digit? (c : Char) : Option Nat := if c.isDigit then some (c.toNat - '0'.toNat) else none

def widened (l : Layout) (n : Nat) : Except Fault Conversion :=
  if n < widthLimit then .ok ⟨{ l with width := n }, .width⟩ else .error (.widthTooBig "width")

def refined (l : Layout) (n : Nat) : Except Fault Conversion :=
  if n < precisionLimit then .ok ⟨{ l with precision := some n }, .precision⟩
  else .error (.widthTooBig "precision")

def sizeFrom (limit : Nat) (kind : String) : List Value → Except Fault (Int × List Value)
  | [] => .error .fewArguments
  | v :: more =>
    match v.number? with
    | some (.whole n) =>
      if -(limit : Int) ≤ n ∧ n < limit then .ok (n, more) else .error (.widthOverflow kind)
    | _ => .error .widthNotWhole

def wideFrom (l : Layout) (pending : List Value) : Except Fault (Conversion × List Value) := do
  let (n, more) ← sizeFrom widthLimit "ssize_t" pending
  return (⟨{ l with left := l.left || n < 0, width := n.natAbs }, .wide⟩, more)

def preciseFrom (l : Layout) (pending : List Value) : Except Fault (Conversion × List Value) := do
  let (n, more) ← sizeFrom precisionLimit "int" pending
  return (⟨{ l with precision := some n.toNat }, .precise⟩, more)

def sized (l : Layout) (c : Char) : Option Conversion :=
  if c = 'h' || c = 'l' || c = 'L' then some ⟨l, .size⟩ else none

def dotted (l : Layout) (c : Char) : Option Conversion :=
  if c = '.' then some ⟨{ l with precision := some 0 }, .point⟩ else sized l c

def read (conv : Conversion) (c : Char) (pending : List Value) :
    Except Fault (Option Conversion × List Value) :=
  let l := conv.layout
  match conv.phase with
  | .start | .flags =>
    match l.flag? c, digit? c with
    | some l, _ => .ok (some ⟨l, .flags⟩, pending)
    | none, some d => do return (← widened l d, pending)
    | none, none =>
      if c = '*' then do
        let (next, more) ← wideFrom l pending
        return (next, more)
      else .ok (dotted l c, pending)
  | .width =>
    match digit? c with
    | some d => do return (← widened l (l.width * 10 + d), pending)
    | none => .ok (dotted l c, pending)
  | .wide => .ok (dotted l c, pending)
  | .point =>
    match digit? c with
    | some d => do return (← refined l d, pending)
    | none =>
      if c = '*' then do
        let (next, more) ← preciseFrom l pending
        return (next, more)
      else .ok (sized l c, pending)
  | .precision =>
    match digit? c with
    | some d => do return (← refined l (l.precision.getD 0 * 10 + d), pending)
    | none => .ok (sized l c, pending)
  | .precise => .ok (sized l c, pending)
  | .size => .ok (none, pending)

end Conversion

end InputChords.Log
