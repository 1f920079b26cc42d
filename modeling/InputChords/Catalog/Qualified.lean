import InputChords.Atom
import InputChords.Text.Quoted

/-! Atoms found by category and canonical name. -/

namespace InputChords

inductive QualifiedError where
  | unknownCategory (text : String)
  | unknownAtom (text : String) (c : Category)
  deriving DecidableEq, Repr

def QualifiedError.message : QualifiedError → String
  | unknownCategory text => Text.quote text ++ " is not a valid InputCategory"
  | unknownAtom text c => Text.quote text ++ " is not a valid " ++ c.typeName

def Category.ofName (text : String) : Except QualifiedError Category :=
  match Category.all.find? fun c => c.name = text with
  | some c => .ok c
  | none => .error (.unknownCategory text)

def Atom.ofQualified (text : String) : Except QualifiedError Atom := do
  let cs := text.toList
  let c ← Category.ofName (String.ofList (cs.takeWhile (· != '.')))
  let name := String.ofList ((cs.dropWhile (· != '.')).drop 1)
  match Atom.all.find? fun a => a.category = c && a.name = name with
  | some a => return a
  | none => .error (.unknownAtom name c)

end InputChords
