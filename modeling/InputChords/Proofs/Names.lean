import Mathlib.Data.List.Find
import Mathlib.Data.List.Pairwise
import InputChords.Proofs.AliasTable

/-! The names of the catalog. No two atoms of one category share a name, so each of the built-in
tables finds the owner of a name, and the first category that knows a name decides. -/

namespace InputChords

namespace Atom

def keys (a : Atom) : List String := a.names.map Text.lower

theorem mem_ofCategory (a : Atom) (c : Category) : a ∈ ofCategory c ↔ a.category = c := by
  simp [ofCategory, mem_all]

/-- Letters as one number, since numbers are compared faster. -/
def number (letters : List Char) : Nat := letters.foldl (fun n c => n * 0x110000 + c.toNat) 0

def numbers (a : Atom) : List Nat :=
  a.names.map fun name => number (Text.lowerFrom false name.toList)

theorem number_mem (a : Atom) (name : String) (known : Text.lower name ∈ a.keys) :
    number (Text.lowerFrom false name.toList) ∈ a.numbers := by
  obtain ⟨other, named, same⟩ := List.mem_map.mp known
  rw [Text.lower, Text.lower] at same
  rw [← String.ofList_injective same]
  exact List.mem_map.mpr ⟨other, named, rfl⟩

theorem numbers_nodup (c : Category) : ((ofCategory c).flatMap numbers).Nodup := by
  cases c <;> decide +kernel

theorem keys_nodup (c : Category) : ((ofCategory c).flatMap keys).Nodup := by
  have letters : (((ofCategory c).flatMap fun a => a.names.map fun name =>
      Text.lowerFrom false name.toList).map number).Nodup := by
    simp only [List.map_flatMap, List.map_map]
    exact numbers_nodup c
  have whole := letters.of_map.map (f := String.ofList) fun _ _ same => String.ofList_injective same
  simp only [List.map_flatMap, List.map_map] at whole
  exact whole

theorem owner_unique (a b : Atom) (same : a.category = b.category) (key : String)
    (first : key ∈ a.keys) (second : key ∈ b.keys) : a = b := by
  by_contra different
  have apart := (List.nodup_flatMap.mp (keys_nodup a.category)).2
  have symmetric : Std.Symm (Function.onFun List.Disjoint keys) :=
    ⟨fun _ _ disjoint => List.disjoint_symm disjoint⟩
  have disjoint := apart.forall ((mem_ofCategory a _).mpr rfl) ((mem_ofCategory b _).mpr same.symm)
    different
  exact disjoint first second

theorem names_filled (a : Atom) : ∀ name ∈ a.names, name.isEmpty = false := by
  have filled : ∀ b ∈ all, ∀ name ∈ b.names, name.isEmpty = false := by decide +kernel
  exact filled a (mem_all a)

theorem keys_filled (a : Atom) : "" ∉ a.keys := by
  have filled : ∀ b ∈ all, [] ∉ b.names.map fun name => Text.lowerFrom false name.toList := by
    decide +kernel
  intro known
  obtain ⟨name, named, nothing⟩ := List.mem_map.mp known
  have letters : Text.lowerFrom false name.toList = [] := String.ofList_injective nothing
  exact filled a (mem_all a) (List.mem_map.mpr ⟨name, named, letters⟩)

end Atom

def Category.owner (c : Category) (key : String) : Option Atom :=
  (Atom.ofCategory c).find? fun a => decide (key ∈ a.keys)

theorem Category.owner_eq_some_iff (c : Category) (key : String) (a : Atom) :
    c.owner key = some a ↔ a.category = c ∧ key ∈ a.keys := by
  constructor
  · intro found
    have member := List.mem_of_find?_eq_some found
    have known := List.find?_some found
    exact ⟨(Atom.mem_ofCategory a c).mp member, of_decide_eq_true known⟩
  · rintro ⟨rfl, known⟩
    cases found : a.category.owner key with
    | none =>
        have missing := List.find?_eq_none.mp found a ((Atom.mem_ofCategory a _).mpr rfl)
        exact absurd (decide_eq_true known) missing
    | some b =>
        have member := List.mem_of_find?_eq_some found
        have knownToo : key ∈ b.keys := by
          rw [owner] at found
          simpa using List.find?_some found
        rw [Atom.owner_unique a b ((Atom.mem_ofCategory b _).mp member).symm key known knownToo]

namespace AliasTable

theorem lookup_aliases (atoms : List Atom) (a : Atom) (member : a ∈ atoms) :
    (atoms.map fun b => (b, b.aliases)).lookup a = some a.aliases := by
  induction atoms with
  | nil => cases member
  | cons b rest ih =>
      rw [List.map_cons, List.lookup_cons]
      by_cases same : a = b
      · rw [same, beq_self_eq_true]
      · have different : (a == b) = false := by simp [same]
        rw [different]
        exact ih ((List.mem_cons.mp member).resolve_left same)

theorem declaredNames_builtin (c : Category) (a : Atom) (member : a ∈ Atom.ofCategory c) :
    declaredNames (builtinAliases c) a = a.names := by
  rw [declaredNames, builtinAliases, lookup_aliases _ a member]
  rfl

theorem declaredKeys_builtin (c : Category) (a : Atom) (member : a ∈ Atom.ofCategory c) :
    declaredKeys (builtinAliases c) a = a.keys := by
  rw [declaredKeys, declaredNames_builtin c a member, Atom.keys]

theorem build_builtin (c : Category) : ∃ t, build c (builtinAliases c) = .ok t := by
  apply build_ok
  · intro entry member
    obtain ⟨a, inside, rfl⟩ := List.mem_map.mp member
    exact (Atom.mem_ofCategory a c).mp inside
  · intro a member name named
    rw [declaredNames_builtin c a member] at named
    exact Atom.names_filled a name named
  · have apart := (List.nodup_flatMap.mp (Atom.keys_nodup c)).2
    refine apart.imp_of_mem ?_
    intro a b left right disjoint
    rw [declaredKeys_builtin c a left, declaredKeys_builtin c b right]
    exact disjoint

theorem lookup_builtin (c : Category) (t : AliasTable) (done : build c (builtinAliases c) = .ok t)
    (name : String) : t.lookup name = c.owner (Text.lower name) := by
  rw [lookup_build c _ t done, Category.owner]
  apply List.find?_congr
  intro a member
  rw [declaredKeys_builtin c a member]

theorem buildAll_ok (catalog : Category → Aliases) (table : Category → AliasTable)
    (built : ∀ c, build c (catalog c) = .ok (table c)) :
    buildAll catalog = .ok (Category.all.map table) := by
  rw [buildAll]
  induction Category.all with
  | nil => rfl
  | cons c cs ih =>
      rw [List.mapM_cons, built c, ih]
      rfl

theorem builtin_eq_map (table : Category → AliasTable)
    (built : ∀ c, build c (builtinAliases c) = .ok (table c)) :
    builtin = Category.all.map table := by
  rw [builtin, buildAll_ok builtinAliases table built]
  rfl

theorem findSome?_builtin (name : String) :
    builtin.findSome? (·.lookup name) = Category.all.findSome? (·.owner (Text.lower name)) := by
  choose table built using build_builtin
  have probed : (fun t : AliasTable => t.lookup name) ∘ table =
      fun c : Category => c.owner (Text.lower name) :=
    funext fun c => lookup_builtin c (table c) (built c) name
  rw [builtin_eq_map table built, List.findSome?_map, probed]

end AliasTable

theorem resolveAtom_eq_owner (keyword : String)
    (filled : (normalizeKeyword keyword).isEmpty = false) :
    resolveAtom keyword =
      Category.all.findSome? (·.owner (Text.lower (normalizeKeyword keyword))) := by
  rw [resolveAtom, if_neg (by simp [filled]), AliasTable.findSome?_builtin]

def Category.earlier (c : Category) : List Category := all.takeWhile (· != c)

theorem Category.all_eq (c : Category) : ∃ later, all = c.earlier ++ c :: later := by
  cases c <;> exact ⟨_, rfl⟩

/-- The text is a name of the atom, in any spelling. -/
def Atom.GoesBy (a : Atom) (name : String) : Prop := Text.lower (normalizeKeyword name) ∈ a.keys

instance (a : Atom) (name : String) : Decidable (a.GoesBy name) :=
  inferInstanceAs (Decidable (Text.lower (normalizeKeyword name) ∈ a.keys))

theorem Atom.GoesBy.filled {a : Atom} {name : String} (known : a.GoesBy name) :
    (normalizeKeyword name).isEmpty = false := by
  by_contra empty
  have nothing : normalizeKeyword name = "" := by simpa using empty
  rw [GoesBy, nothing] at known
  exact a.keys_filled known

theorem resolveAtom_of_goesBy (a : Atom) (name : String) (known : a.GoesBy name)
    (unshadowed : ∀ c ∈ a.category.earlier, ∀ b ∈ Atom.ofCategory c, ¬ b.GoesBy name) :
    resolveAtom name = some a := by
  have owned : a.category.owner (Text.lower (normalizeKeyword name)) = some a :=
    (Category.owner_eq_some_iff _ _ _).mpr ⟨rfl, known⟩
  have disowned : ∀ c ∈ a.category.earlier,
      c.owner (Text.lower (normalizeKeyword name)) = none := by
    intro c member
    apply List.find?_eq_none.mpr
    intro b inside known
    exact unshadowed c member b inside (of_decide_eq_true known)
  obtain ⟨later, order⟩ := a.category.all_eq
  rw [resolveAtom_eq_owner name known.filled, List.findSome?_eq_some_iff]
  exact ⟨a.category.earlier, a.category, later, order, owned, disowned⟩

theorem resolveAtom_of_unshadowed (a : Atom) (name : String) (named : name ∈ a.names)
    (plain : normalizeKeyword name = name)
    (unshadowed : ∀ c ∈ a.category.earlier, ∀ b ∈ Atom.ofCategory c, Text.lower name ∉ b.keys) :
    resolveAtom name = some a := by
  rw [← plain] at unshadowed
  apply resolveAtom_of_goesBy a name _ unshadowed
  rw [Atom.GoesBy, plain]
  exact List.mem_map.mpr ⟨name, named, rfl⟩

theorem Key.name_plain (k : Key) : normalizeKeyword k.name = k.name := by
  have plain : ∀ key ∈ Key.all, normalizeKeyword key.name = key.name := by decide +kernel
  exact plain k (Key.mem_all k)

theorem resolveAtom_key (k : Key) : resolveAtom k.name = some (.key k) := by
  apply resolveAtom_of_unshadowed (.key k) k.name (List.mem_cons_self ..) k.name_plain
  intro c member
  cases member

def Atom.mouse : List Atom :=
  Click.all.map click ++ Course.all.map movement ++ Course.all.map wheel ++ [drag]

theorem Atom.mem_mouse (a : Atom) (isMouse : a.category ≠ .keyboard) : a ∈ mouse := by
  cases a with
  | key k => exact absurd rfl isMouse
  | click c => simp [mouse, Click.mem_all]
  | movement c => simp [mouse, Course.mem_all]
  | wheel c => simp [mouse, Course.mem_all]
  | drag => simp [mouse]

theorem exists_resolving_name (a : Atom) : ∃ name ∈ a.names, resolveAtom name = some a := by
  have shown : ∀ b ∈ Atom.mouse, ∃ name ∈ b.names, normalizeKeyword name = name ∧
      ∀ c ∈ b.category.earlier, ∀ other ∈ Atom.ofCategory c,
        Atom.number (Text.lowerFrom false name.toList) ∉ other.numbers := by decide +kernel
  have mouse (b : Atom) (isMouse : b.category ≠ .keyboard) :
      ∃ name ∈ b.names, resolveAtom name = some b := by
    obtain ⟨name, named, plain, unshadowed⟩ := shown b (b.mem_mouse isMouse)
    refine ⟨name, named, resolveAtom_of_unshadowed b name named plain ?_⟩
    intro c earlier other inside known
    exact unshadowed c earlier other inside (Atom.number_mem other name known)
  cases a with
  | key k => exact ⟨k.name, List.mem_cons_self .., resolveAtom_key k⟩
  | click c => exact mouse _ (by simp [Atom.category])
  | movement c => exact mouse _ (by simp [Atom.category])
  | wheel c => exact mouse _ (by simp [Atom.category])
  | drag => exact mouse _ (by simp [Atom.category])

theorem displayName_mem (a : Atom) : a.displayName ∈ a.names := by
  rw [Atom.displayName]
  cases found : a.names.find? fun name => resolveAtom name = some a with
  | none => exact List.mem_cons_self ..
  | some name => exact List.mem_of_find?_eq_some found

theorem displayName_key (k : Key) : (Atom.key k).displayName = k.name := by
  have first : (Atom.key k).names = k.name :: (Atom.key k).aliases := rfl
  rw [Atom.displayName, first, List.find?_cons_of_pos (by simp [resolveAtom_key k])]
  rfl

theorem resolveAtom_displayName (a : Atom) : resolveAtom a.displayName = some a := by
  obtain ⟨name, named, resolves⟩ := exists_resolving_name a
  rw [Atom.displayName]
  cases found : a.names.find? fun name => resolveAtom name = some a with
  | none =>
      have missing := List.find?_eq_none.mp found name named
      exact absurd (decide_eq_true resolves) missing
  | some first => simpa using List.find?_some found

end InputChords
