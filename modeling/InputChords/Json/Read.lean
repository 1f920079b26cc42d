import InputChords.Decimal.Reading
import InputChords.Json
import InputChords.Named

/-! JSON texts read back. A text is first cut into tokens and these are then put together, each in
one pass over what is there. All of JSON is read, and nothing beyond it: no spelt-out reals, no
control characters in a text, nothing behind the value. -/

namespace InputChords.Json

inductive Token where
  | openList | closeList | openObject | closeObject | comma | colon
  | text (s : String)
  | scalar (value : Json)

def Token.ofMark? (c : Char) : Option Token :=
  if c = '[' then some openList
  else if c = ']' then some closeList
  else if c = '\x7b' then some openObject
  else if c = '\x7d' then some closeObject
  else if c = ',' then some comma
  else if c = ':' then some colon
  else none

def isSpace (c : Char) : Bool := c = ' ' || c = '\t' || c = '\n' || c = '\r'

def isBreak (c : Char) : Bool := isSpace c || c = '\x22' || (Token.ofMark? c).isSome

/-! ## Scalars -/

def isDigits (cs : List Char) : Bool := !cs.isEmpty && cs.all (·.isDigit)

def isExponent : List Char → Bool
  | [] => true
  | e :: rest => (e = 'e' || e = 'E') && isDigits (Decimal.signOf rest).2

def isScale : List Char → Bool
  | '.' :: rest => !(rest.takeWhile (·.isDigit)).isEmpty && isExponent (rest.dropWhile (·.isDigit))
  | cs => isExponent cs

def unsigned? (negative : Bool) (cs : List Char) : Option Json :=
  let digits := cs.takeWhile (·.isDigit)
  let scale := cs.dropWhile (·.isDigit)
  if digits.isEmpty || (digits.head? = some '0' && digits != ['0']) then none
  else if scale.isEmpty then
    let n : Int := Nat.ofDigitChars 10 digits 0
    (Decimal.Whole.of? (if negative then -n else n)).map .whole
  else if isScale scale then
    (Decimal.readReal cs).map fun x => Json.real (if negative then -x else x)
  else none

def number? : List Char → Option Json
  | '-' :: rest => unsigned? true rest
  | cs => unsigned? false cs

def scalar? (cs : List Char) : Option Json :=
  if cs = ['n', 'u', 'l', 'l'] then some .null
  else if cs = ['t', 'r', 'u', 'e'] then some (.bool true)
  else if cs = ['f', 'a', 'l', 's', 'e'] then some (.bool false)
  else number? cs

/-! ## Texts -/

def hexDigit? (c : Char) : Option Nat :=
  if '0' ≤ c && c ≤ '9' then some (c.toNat - 48)
  else if 'a' ≤ c && c ≤ 'f' then some (c.toNat - 87)
  else if 'A' ≤ c && c ≤ 'F' then some (c.toNat - 55)
  else none

def escaped? (c : Char) : Option Char :=
  if c = '\x22' || c = '\\' || c = '/' then some c
  else if c = 'b' then some '\x08'
  else if c = 'f' then some '\x0c'
  else if c = 'n' then some '\n'
  else if c = 'r' then some '\r'
  else if c = 't' then some '\t'
  else none

def isHigh (unit : Nat) : Bool := 0xd800 ≤ unit && unit < 0xdc00

def isLow (unit : Nat) : Bool := 0xdc00 ≤ unit && unit < 0xe000

def paired (high low : Nat) : Nat := 0x10000 + (high - 0xd800) * 0x400 + (low - 0xdc00)

inductive Spot where
  | plain
  | backslash
  | unit (high : Option Nat) (left value : Nat)
  | high (unit : Nat)
  | highBackslash (unit : Nat)

inductive Mode where
  | between
  | scalar (read : List Char)
  | text (read : List Char) (spot : Spot)

def Mode.unit (read : List Char) (high : Option Nat) (unit : Nat) : Option Mode :=
  match high with
  | some first =>
    if isLow unit then some (text (Char.ofNat (paired first unit) :: read) .plain) else none
  | none =>
    if isHigh unit then some (text read (.high unit))
    else if isLow unit then none
    else some (text (Char.ofNat unit :: read) .plain)

def Spot.step (read : List Char) (c : Char) : Spot → Option Mode
  | plain =>
    if c = '\\' then some (.text read backslash)
    else if c.toNat < 32 then none
    else some (.text (c :: read) plain)
  | backslash =>
    if c = 'u' then some (.text read (unit none 4 0))
    else (escaped? c).map fun meant => .text (meant :: read) plain
  | unit first left value => do
    let value := 16 * value + (← hexDigit? c)
    if left = 1 then Mode.unit read first value else some (.text read (unit first (left - 1) value))
  | high first => if c = '\\' then some (.text read (highBackslash first)) else none
  | highBackslash first => if c = 'u' then some (.text read (unit (some first) 4 0)) else none

/-! ## Tokens -/

def Mode.start (c : Char) : List Token × Mode :=
  if isSpace c then ([], between)
  else if c = '\x22' then ([], text [] .plain)
  else match Token.ofMark? c with
    | some token => ([token], between)
    | none => ([], scalar [c])

def Mode.step (c : Char) : Mode → Option (List Token × Mode)
  | between => some (start c)
  | scalar read =>
    if isBreak c then do
      let value ← scalar? read.reverse
      return (.scalar value :: (start c).1, (start c).2)
    else some ([], scalar (c :: read))
  | text read .plain =>
    if c = '\x22' then some ([.text (String.ofList read.reverse)], between)
    else (Spot.plain.step read c).map fun next => ([], next)
  | text read spot => (spot.step read c).map fun next => ([], next)

def Mode.finish : Mode → Option (List Token)
  | between => some []
  | scalar read => (scalar? read.reverse).map fun value => [.scalar value]
  | text _ _ => none

def tokensFrom (mode : Mode) : List Char → Option (List Token)
  | [] => mode.finish
  | c :: rest => do
    let (tokens, next) ← mode.step c
    return tokens ++ (← tokensFrom next rest)

/-! ## Values -/

inductive Frame where
  | list (items : List Json)
  | field (fields : Named String Json) (name : String)

inductive Stage where
  | value
  | firstItem
  | name (fields : Named String Json)
  | firstName
  | named (fields : Named String Json) (name : String)
  | behind (value : Json)

structure Reader where
  stage : Stage
  frames : List Frame

namespace Reader

def start : Reader := ⟨.value, []⟩

def value (frames : List Frame) : Token → Option Reader
  | .text s => some ⟨.behind (.text s), frames⟩
  | .scalar v => some ⟨.behind v, frames⟩
  | .openList => some ⟨.firstItem, .list [] :: frames⟩
  | .openObject => some ⟨.firstName, frames⟩
  | _ => none

/-- Of several fields of one name the last one stays. -/
def step (r : Reader) (token : Token) : Option Reader :=
  match r.stage, r.frames, token with
  | .value, frames, token => value frames token
  | .firstItem, .list items :: frames, .closeList => some ⟨.behind (.list items), frames⟩
  | .firstItem, frames, token => value frames token
  | .name fields, frames, .text s => some ⟨.named fields s, frames⟩
  | .firstName, frames, .text s => some ⟨.named [] s, frames⟩
  | .firstName, frames, .closeObject => some ⟨.behind (.object []), frames⟩
  | .named fields name, frames, .colon => some ⟨.value, .field fields name :: frames⟩
  | .behind v, .list items :: frames, .comma => some ⟨.value, .list (items ++ [v]) :: frames⟩
  | .behind v, .list items :: frames, .closeList => some ⟨.behind (.list (items ++ [v])), frames⟩
  | .behind v, .field fields name :: frames, .comma => some ⟨.name (fields.put name v), frames⟩
  | .behind v, .field fields name :: frames, .closeObject =>
    some ⟨.behind (.object (fields.put name v)), frames⟩
  | _, _, _ => none

def result? (r : Reader) : Option Json :=
  match r.stage, r.frames with
  | .behind v, [] => some v
  | _, _ => none

end Reader

def read (line : String) : Option Json := do
  let tokens ← tokensFrom .between line.toList
  (← tokens.foldlM Reader.step .start).result?

end InputChords.Json
