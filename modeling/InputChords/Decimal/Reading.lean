import InputChords.Decimal.Whole
import InputChords.Text.Blank
import InputChords.Text.Digit

/-! Whole and real numbers read from decimal text: blanks around, one underscore between two
digits, digits of any script. -/

namespace InputChords.Decimal

open Text (isBlank digitValue? stripWith)

/-- Digits and blanks beyond ASCII are read as their ASCII counterparts; no other character
beyond ASCII occurs in a numeral. -/
def plainChar (c : Char) : Char :=
  if c.toNat < 128 then c
  else if isBlank c then ' '
  else match digitValue? c with
    | some d => Char.ofNat (48 + d)
    | none => '?'

def isPadding (c : Char) : Bool := c = ' ' || (9 ≤ c.toNat && c.toNat ≤ 13)

def numeral (cs : List Char) : List Char := stripWith isPadding (cs.map plainChar)

def joinGroups (afterDigit : Bool) : List Char → Option (List Char)
  | [] => some []
  | '_' :: c :: rest =>
    if afterDigit && c.isDigit then (joinGroups true rest).map (c :: ·) else none
  | c :: rest => if c = '_' then none else (joinGroups c.isDigit rest).map (c :: ·)

def digitsValue (ds : List Char) : Nat := ds.foldl (fun n d => 10 * n + (d.toNat - 48)) 0

def signOf : List Char → Bool × List Char
  | '-' :: rest => (true, rest)
  | '+' :: rest => (false, rest)
  | cs => (false, cs)

inductive WholeFault where
  | malformed
  | tooLong (digits : Nat)
  deriving DecidableEq, Repr

def wholeDigits (afterDigit : Bool) : List Char → List Char × List Char
  | '_' :: c :: rest =>
    if afterDigit && c.isDigit then
      let (ds, tail) := wholeDigits true rest
      (c :: ds, tail)
    else ([], '_' :: c :: rest)
  | c :: rest =>
    if c.isDigit then
      let (ds, tail) := wholeDigits true rest
      (c :: ds, tail)
    else ([], c :: rest)
  | [] => ([], [])

def readWhole (cs : List Char) : Except WholeFault Int :=
  let (negative, body) := signOf (numeral cs)
  let (ds, tail) := wholeDigits false body
  if wholeDigitLimit < ds.length then .error (.tooLong ds.length)
  else if ds.isEmpty || !tail.isEmpty then .error .malformed
  else
    let n : Int := digitsValue ds
    .ok (if negative then -n else n)

/-- `digits · 10 ^ scale`, rounded once. Scales beyond the range of the type are cut off before
the power of ten is formed. -/
def realOf (digits : Nat) (scale : Int) : Float :=
  let size : Int := (Nat.toDigits 10 digits).length
  if digits = 0 || size + scale < -330 then 0.0
  else if 310 < size + scale then 1.0 / 0.0
  else if scale < 0 then Float.ofScientific digits true scale.natAbs
  else Float.ofScientific digits false scale.natAbs

def exponentOf : List Char → Option Int
  | [] => some 0
  | e :: rest =>
    if e = 'e' || e = 'E' then
      let (negative, ds) := signOf rest
      if ds.isEmpty || !ds.all (·.isDigit) then none
      else some (if negative then -(digitsValue ds : Int) else digitsValue ds)
    else none

def fractionOf : List Char → List Char × List Char
  | '.' :: rest => (rest.takeWhile (·.isDigit), rest.dropWhile (·.isDigit))
  | cs => ([], cs)

def unsignedReal (cs : List Char) : Option Float :=
  let word := cs.map (·.toLower)
  if word = "inf".toList || word = "infinity".toList then some (1.0 / 0.0)
  else if word = "nan".toList then some (0.0 / 0.0)
  else
    let whole := cs.takeWhile (·.isDigit)
    let (fraction, tail) := fractionOf (cs.dropWhile (·.isDigit))
    if whole.isEmpty && fraction.isEmpty then none
    else (exponentOf tail).map fun e =>
      realOf (digitsValue (whole ++ fraction)) (e - fraction.length)

def readReal (cs : List Char) : Option Float := do
  let (negative, body) := signOf (← joinGroups false (numeral cs))
  let x ← unsignedReal body
  return if negative then -x else x

end InputChords.Decimal
