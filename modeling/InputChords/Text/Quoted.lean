import InputChords.Text.PrintableTable

/-! Texts and bytes in quotes, with everything that has no printed form escaped. -/

namespace InputChords.Text

def isPrintable (c : Char) : Bool :=
  if c.toNat < 128 then 32 ≤ c.toNat && c.toNat < 127 else !within unprintableRanges c.toNat

def hex (width n : Nat) : List Char :=
  let digits := Nat.toDigits 16 n
  List.replicate (width - digits.length) '0' ++ digits

def escapeCode (code : Nat) : List Char :=
  if code < 0x100 then '\\' :: 'x' :: hex 2 code
  else if code < 0x10000 then '\\' :: 'u' :: hex 4 code
  else '\\' :: 'U' :: hex 8 code

def quoteMark (holds : Char → Bool) : Char :=
  if holds '\x27' && !holds '\x22' then '\x22' else '\x27'

def escapeChar (mark c : Char) : List Char :=
  if c = mark || c = '\\' then ['\\', c]
  else if c = '\t' then ['\\', 't']
  else if c = '\n' then ['\\', 'n']
  else if c = '\r' then ['\\', 'r']
  else if isPrintable c then [c]
  else escapeCode c.toNat

def quote (s : String) : String :=
  let mark := quoteMark (s.toList.contains ·)
  String.ofList (mark :: (s.toList.flatMap (escapeChar mark) ++ [mark]))

/-- Bytes are quoted like ASCII text after a `b`; a byte beyond ASCII is always escaped. -/
def quoteBytes (bytes : List UInt8) : String :=
  let mark := quoteMark fun c => bytes.any (·.toNat == c.toNat)
  let escapeByte (byte : UInt8) :=
    if byte < 128 then escapeChar mark (Char.ofNat byte.toNat) else escapeCode byte.toNat
  String.ofList ('b' :: mark :: (bytes.flatMap escapeByte ++ [mark]))

end InputChords.Text
