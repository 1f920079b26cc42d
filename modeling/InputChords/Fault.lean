import InputChords.Decimal.Reading
import InputChords.Token.Polish

/-! What goes wrong with the values that a host hands in. A fault cites the value as the host
inspects it, or only names its kind. -/

namespace InputChords

inductive Fault where
  | notAChord (described : String)
  | notAnAtom (described : String)
  | notAnEvent (described : String)
  | unknownPointerEvent (described : String)
  | unknownKeyEvent (described : String)
  | notAnExpression (kind : String)
  | notATree (kind : String)
  | unhashable (kind : String)
  | notAReal (kind : String)
  | unreadableReal (described : String)
  | realOverflow
  | notAWhole (kind : String)
  | unreadableWhole (described : String)
  | wholeTooLong (digits : Nat)
  | wholeNotWritable
  | nanToWhole
  | infinityToWhole
  | noMagnitude (kind : String)
  | noLowerCase (kind : String)
  | bytesAsName
  | noAttribute (kind name : String)
  | notCallable (kind : String)
  | notSubscriptable (kind : String)
  | indexOutOfRange (indexed : String)
  | textAsIndex (indexed : String)
  | missingKey (key : String)
  | missingIndex (index : Nat)
  | notPrintableAsNumber (conversion : Char) (kind : String)
  | notPrintableAsInteger (conversion : Char) (kind : String)
  | notPrintableAsReal (kind : String)
  | notPrintableAsChar
  | charOutOfRange
  | surrogate
  | widthNotWhole
  | widthOverflow (kind : String)
  | widthTooBig (what : String)
  | precisionTooLarge
  | fewArguments
  | manyArguments
  | cutTemplate
  | cutTemplateKey
  | unknownConversion (c : Char) (index : Nat)
  | notAMapping
  | noEventHandlers
  | noBindings (operation : String)
  | noBackend
  | compile (e : CompileError)
  deriving DecidableEq, Repr

namespace Fault

/-- Of a text that is no whole number only so many characters are cited. -/
def citedLength : Nat := 200

def wholeLimit : String := "Exceeds the limit (" ++ toString Decimal.wholeDigitLimit
  ++ " digits) for integer string conversion"

def wholeAdvice : String := "; use sys.set_int_max_str_digits() to increase the limit"

def message : Fault → String
  | notAChord described => "not an expression node: " ++ described
  | notAnAtom described => "expected an input atom, got " ++ described
  | notAnEvent described => "unsupported input event: " ++ described
  | unknownPointerEvent described => "unknown pointer event type: " ++ described
  | unknownKeyEvent described => "unknown key event type: " ++ described
  | notAnExpression kind => "expression must be str, got " ++ kind
  | notATree kind => "tree must be an expression node, got " ++ kind
  | unhashable kind => "unhashable type: '" ++ kind ++ "'"
  | notAReal kind => "float() argument must be a string or a real number, not '" ++ kind ++ "'"
  | unreadableReal described => "could not convert string to float: " ++ described
  | realOverflow => "int too large to convert to float"
  | notAWhole kind =>
    "int() argument must be a string, a bytes-like object or a real number, not '" ++ kind ++ "'"
  | unreadableWhole described =>
    "invalid literal for int() with base 10: " ++ String.ofList (described.toList.take citedLength)
  | wholeTooLong digits =>
    wholeLimit ++ ": value has " ++ toString digits ++ " digits" ++ wholeAdvice
  | wholeNotWritable => wholeLimit ++ wholeAdvice
  | nanToWhole => "cannot convert float NaN to integer"
  | infinityToWhole => "cannot convert float infinity to integer"
  | noMagnitude kind => "bad operand type for abs(): '" ++ kind ++ "'"
  | noLowerCase kind => "'" ++ kind ++ "' object has no attribute 'lower'"
  | bytesAsName => "a bytes-like object is required, not 'dict'"
  | noAttribute kind name => "'" ++ kind ++ "' object has no attribute '" ++ name ++ "'"
  | notCallable kind => "'" ++ kind ++ "' object is not callable"
  | notSubscriptable kind => "'" ++ kind ++ "' object is not subscriptable"
  | indexOutOfRange indexed => indexed ++ "index out of range"
  | textAsIndex indexed => indexed ++ " indices must be integers or slices, not str"
  | missingKey key => Text.quote key
  | missingIndex index => toString index
  | notPrintableAsNumber conversion kind =>
    "%" ++ String.singleton conversion ++ " format: a real number is required, not " ++ kind
  | notPrintableAsInteger conversion kind =>
    "%" ++ String.singleton conversion ++ " format: an integer is required, not " ++ kind
  | notPrintableAsReal kind => "must be real number, not " ++ kind
  | notPrintableAsChar => "%c requires int or char"
  | charOutOfRange => "%c arg not in range(0x110000)"
  | surrogate => "surrogates not allowed"
  | widthNotWhole => "* wants int"
  | widthOverflow kind => "Python int too large to convert to C " ++ kind
  | widthTooBig what => what ++ " too big"
  | precisionTooLarge => "precision too large"
  | fewArguments => "not enough arguments for format string"
  | manyArguments => "not all arguments converted during string formatting"
  | cutTemplate => "incomplete format"
  | cutTemplateKey => "incomplete format key"
  | unknownConversion c index => "unsupported format character '"
    ++ String.singleton (if 31 ≤ c.toNat && c.toNat < 127 then c else '?')
    ++ "' (0x" ++ String.ofList (Nat.toDigits 16 c.toNat) ++ ") at index " ++ toString index
  | notAMapping => "format requires a mapping"
  | noEventHandlers => "Canvas does not support event handlers."
  | noBindings operation => "'NoneType' object has no attribute '" ++ operation ++ "'"
  | noBackend =>
    "GLFW backend unavailable. Install the 'glfw' package and a GLFW shared library."
  | compile e => e.message

end Fault

end InputChords
