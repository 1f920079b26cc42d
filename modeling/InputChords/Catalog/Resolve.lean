import InputChords.Catalog.Table
import InputChords.Chord

/-! Keywords resolved to atoms. -/

namespace InputChords

def normalizeKeyword (keyword : String) : String :=
  String.ofList (keyword.toList.filter fun c => c != '_' && c != '-')

def resolveAtom (keyword : String) : Option Atom :=
  let name := normalizeKeyword keyword
  if name.isEmpty then none else AliasTable.builtin.findSome? (·.lookup name)

def resolveKeyword {σ : Type} (keyword : String) : Option (Chord σ) :=
  (resolveAtom keyword).map Chord.ofAtom

/-- The first name of an atom that resolves back to it: canonical names win unless an earlier
category knows them too. -/
def Atom.displayName (a : Atom) : String :=
  (a.names.find? fun name => resolveAtom name = some a).getD a.name

end InputChords
