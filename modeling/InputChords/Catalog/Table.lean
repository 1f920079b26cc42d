import InputChords.Catalog.Alias
import InputChords.Named
import InputChords.Text.Case
import InputChords.Text.Quoted

/-! Tables from names to the atoms of one category. Names are told apart without regard to case,
and no name may stand for two atoms. -/

namespace InputChords

inductive CatalogError where
  | foreign (a : Atom) (c : Category)
  | emptyAlias (a : Atom)
  | clash (name : String) (first second : Atom)
  deriving DecidableEq, Repr

def CatalogError.message : CatalogError → String
  | foreign a c => a.described ++ " does not belong to category " ++ c.name
  | emptyAlias a => "empty alias declared for " ++ a.qualified
  | clash name first second =>
    "alias " ++ Text.quote name ++ " maps to both " ++ first.name ++ " and " ++ second.name
      ++ " in category " ++ second.category.name

abbrev Aliases := List (Atom × List String)

/-- Of several lists for one atom the last one counts, at the place of the first. -/
def Aliases.ofList (declared : List (Atom × List String)) : Aliases :=
  declared.foldl (fun known entry =>
    if (known.lookup entry.1).isSome then
      known.map fun old => if old.1 = entry.1 then entry else old
    else known ++ [entry]) []

/-- The entries hold lower-case names, in the order of their declaration. -/
structure AliasTable where
  category : Category
  entries : List (String × Atom)
  deriving DecidableEq, Repr

namespace AliasTable

def names (t : AliasTable) : List String := t.entries.map (·.1)

def lookup (t : AliasTable) (name : String) : Option Atom := t.entries.lookup (Text.lower name)

def contains (t : AliasTable) (name : String) : Bool := t.names.contains (Text.lower name)

/-- A name that is declared twice for one atom keeps its first place. -/
def declare (a : Atom) (entries : List (String × Atom)) (name : String) :
    Except CatalogError (List (String × Atom)) :=
  if name.isEmpty then .error (.emptyAlias a)
  else
    let key := Text.lower name
    match entries.lookup key with
    | none => .ok (entries ++ [(key, a)])
    | some first => if first = a then .ok entries else .error (.clash name first a)

def declareAll (declared : Aliases) (entries : List (String × Atom)) (a : Atom) :
    Except CatalogError (List (String × Atom)) :=
  (a.name :: (declared.lookup a).getD []).foldlM (declare a) entries

def build (c : Category) (declared : Aliases) : Except CatalogError AliasTable :=
  match declared.find? fun entry => entry.1.category != c with
  | some (a, _) => .error (.foreign a c)
  | none => do return ⟨c, ← (Atom.ofCategory c).foldlM (declareAll declared) []⟩

def buildAll (catalog : Category → Aliases) : Except CatalogError (List AliasTable) :=
  Category.all.mapM fun c => build c (catalog c)

def builtinAliases (c : Category) : Aliases := (Atom.ofCategory c).map fun a => (a, a.aliases)

def builtin : List AliasTable := (buildAll builtinAliases).toOption.getD []

def note (c : Category) (seen : Named String (List Category)) (name : String) :
    Named String (List Category) :=
  seen.put name ((seen.get? name).getD [] ++ [c])

def grouped (tables : List AliasTable) : Named String (List Category) :=
  tables.foldl (fun seen t => t.names.foldl (note t.category) seen) []

end AliasTable

/-- Names that are found in more than one table, in code point order, each with the categories
that know it. A lookup picks the first of them. -/
def ambiguities (tables : List AliasTable) : Named String (List Category) :=
  ((AliasTable.grouped tables).mergeSort fun a b => !decide (b.1 < a.1)).filter
    fun entry => 1 < entry.2.length

end InputChords
