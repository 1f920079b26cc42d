import InputChords.Named
import InputChords.Value.Numeric

/-! Settings read from environment variables. A variable that cannot be read leaves the default. -/

namespace InputChords

abbrev Environment := Named String Value

def Environment.read (env : Environment) (name : String) : Except Fault (Option String) :=
  match Named.get? env name with
  | none => .ok none
  | some .null => .ok none
  | some v => do return some (← v.printed)

structure Settings where
  parseTrace : Bool
  inputTrace : Bool
  doubleClickMs : Number
  movementThreshold : Number
  logLevel : String
  deriving DecidableEq, Repr

namespace Settings

def standard : Settings := ⟨false, false, .real 500.0, .real 0.0, "INFO"⟩

def flagOf (raw : Option String) (fallback : Bool) : Bool :=
  match raw with
  | none => fallback
  | some text =>
    let word := Text.lower (Text.strip text)
    if ["1", "true", "yes", "on"].contains word then true
    else if ["0", "false", "no", "off"].contains word then false
    else fallback

/-- Zero takes the place of everything that is not above it, NaN included. -/
def clampReal (x : Float) : Float := if 0.0 < x then x else 0.0

def realOf (raw : Option String) (fallback : Float) : Float :=
  match raw with
  | none => clampReal fallback
  | some text => clampReal ((Decimal.readReal (Text.strip text).toList).getD fallback)

/-- The first of the two variables that is set, unless it is blank. -/
def levelNameOf (specific general : Option String) (fallback : String) : String :=
  let chosen :=
    match specific.or general with
    | none => fallback
    | some text => if (Text.strip text).isEmpty then fallback else text
  Text.upper (Text.strip chosen)

def levelName (env : Environment) (fallback : String) : Except Fault String := do
  let specific ← env.read "CHORDBIND_LOG_LEVEL"
  let general ← if specific.isNone then env.read "LOG_LEVEL" else .ok none
  return levelNameOf specific general fallback

def load (env : Environment) : Except Fault Settings := do
  let parseTrace := flagOf (← env.read "CHORDBIND_PARSE_TRACE") standard.parseTrace
  let inputTrace := flagOf (← env.read "CHORDBIND_INPUT_TRACE") standard.inputTrace
  let doubleClickMs := realOf (← env.read "CHORDBIND_DOUBLE_CLICK_MS") 500.0
  let movementThreshold := realOf (← env.read "CHORDBIND_MOVEMENT_THRESHOLD") 0.0
  let logLevel ← levelName env standard.logLevel
  return ⟨parseTrace, inputTrace, .real doubleClickMs, .real movementThreshold, logLevel⟩

end Settings

end InputChords
