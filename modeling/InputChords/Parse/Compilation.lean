import InputChords.Parse
import InputChords.Value

/-! Expressions read from host values. -/

namespace InputChords

structure Compilation where
  records : List Log.Record
  outcome : Except Fault (Option (Chord Value))

def Compilation.ofValue (trace : Bool) : Value → Compilation
  | .text expression =>
    let parsing : Parsing Value := .run trace expression
    ⟨parsing.records, parsing.outcome.mapError .compile⟩
  | v => ⟨[], .error (.notAnExpression v.kindName)⟩

end InputChords
