import Mathlib.Data.List.Nodup
import InputChords.Catalog.Resolve
import InputChords.Proofs.Outcome

/-! A table that could be built knows the names that were declared for its atoms, and nothing
else. -/

namespace InputChords

namespace AliasTable

theorem mem_names_iff_lookup (t : AliasTable) (key : String) :
    key ∈ t.names ↔ (t.entries.lookup key).isSome := by
  rw [names, List.mem_map, List.lookup_isSome_iff]
  exact exists_congr fun entry => and_congr_right fun _ => by rw [beq_iff_eq, eq_comm]

theorem contains_eq (t : AliasTable) (name : String) :
    t.contains name = (t.lookup name).isSome := by
  rw [Bool.eq_iff_iff, contains, List.contains_iff_mem, mem_names_iff_lookup]
  rfl

def declaredNames (declared : Aliases) (a : Atom) : List String :=
  a.name :: (declared.lookup a).getD []

def declaredKeys (declared : Aliases) (a : Atom) : List String :=
  (declaredNames declared a).map Text.lower

theorem declareAll_eq (declared : Aliases) (entries : List (String × Atom)) (a : Atom) :
    declareAll declared entries a = (declaredNames declared a).foldlM (declare a) entries := rfl

theorem lookup_declare (a : Atom) (entries declaredEntries : List (String × Atom)) (name : String)
    (done : declare a entries name = .ok declaredEntries) (key : String) :
    declaredEntries.lookup key =
      (entries.lookup key).or (if key = Text.lower name then some a else none) := by
  unfold declare at done
  split at done
  · cases done
  · cases known : entries.lookup (Text.lower name) with
    | none =>
        simp only [known] at done
        cases done
        rw [List.lookup_append, List.lookup_cons, List.lookup_nil]
        by_cases same : key = Text.lower name
        · simp [same]
        · have different : (key == Text.lower name) = false := by simp [same]
          rw [different, if_neg same]
    | some first =>
        simp only [known] at done
        split at done
        · rename_i sameAtom
          cases done
          by_cases same : key = Text.lower name
          · rw [same, known, sameAtom]
            rfl
          · simp [same]
        · cases done

theorem lookup_declareNames (a : Atom) (names : List String)
    (entries declaredEntries : List (String × Atom))
    (done : names.foldlM (declare a) entries = .ok declaredEntries) (key : String) :
    declaredEntries.lookup key =
      (entries.lookup key).or (if key ∈ names.map Text.lower then some a else none) := by
  induction names generalizing entries with
  | nil =>
      cases done
      simp
  | cons name names ih =>
      rw [List.foldlM_cons] at done
      obtain ⟨next, first, later⟩ := bind_eq_ok done
      rw [ih next later, lookup_declare a entries next name first, Option.or_assoc]
      by_cases here : key = Text.lower name
      · simp [here]
      · simp only [here, if_false, Option.none_or, List.map_cons, List.mem_cons, false_or]

theorem lookup_declareAtoms (declared : Aliases) (atoms : List Atom)
    (entries declaredEntries : List (String × Atom))
    (done : atoms.foldlM (declareAll declared) entries = .ok declaredEntries) (key : String) :
    declaredEntries.lookup key =
      (entries.lookup key).or (atoms.find? fun a => decide (key ∈ declaredKeys declared a)) := by
  induction atoms generalizing entries with
  | nil =>
      cases done
      simp
  | cons a atoms ih =>
      rw [List.foldlM_cons] at done
      obtain ⟨next, first, later⟩ := bind_eq_ok done
      rw [ih next later, lookup_declareNames a (declaredNames declared a) entries next first,
        Option.or_assoc, List.find?_cons]
      by_cases here : key ∈ declaredKeys declared a
      · have found : key ∈ (declaredNames declared a).map Text.lower := here
        simp [here, found]
      · have missing : key ∉ (declaredNames declared a).map Text.lower := here
        simp [here, missing]

theorem lookup_build (c : Category) (declared : Aliases) (t : AliasTable)
    (done : build c declared = .ok t) (name : String) :
    t.lookup name =
      (Atom.ofCategory c).find? fun a => decide (Text.lower name ∈ declaredKeys declared a) := by
  unfold build at done
  split at done
  · cases done
  · obtain ⟨entries, made, done⟩ := bind_eq_ok done
    cases done
    exact lookup_declareAtoms declared _ _ _ made _

theorem declareNames_ok (a : Atom) (names : List String) (entries : List (String × Atom))
    (named : ∀ name ∈ names, name.isEmpty = false)
    (own : ∀ key ∈ names.map Text.lower, ∀ b, entries.lookup key = some b → b = a) :
    ∃ declaredEntries, names.foldlM (declare a) entries = .ok declaredEntries := by
  induction names generalizing entries with
  | nil => exact ⟨entries, rfl⟩
  | cons name names ih =>
      have first : ∃ next, declare a entries name = .ok next := by
        have filled : ¬ name.isEmpty = true := by simp [named name (by simp)]
        unfold declare
        rw [if_neg filled]
        cases known : entries.lookup (Text.lower name) with
        | none =>
            refine ⟨entries ++ [(Text.lower name, a)], ?_⟩
            simp only [known]
        | some b =>
            have sameAtom : b = a := own _ (by simp) b known
            refine ⟨entries, ?_⟩
            simp only [known, sameAtom, if_true]
      obtain ⟨next, first⟩ := first
      have kept : ∀ key ∈ names.map Text.lower, ∀ b, next.lookup key = some b → b = a := by
        intro key member b found
        rw [lookup_declare a entries next name first] at found
        rcases Option.or_eq_some_iff.mp found with old | ⟨_, new⟩
        · exact own key (List.mem_cons_of_mem _ member) b old
        · split at new
          · exact (Option.some.inj new).symm
          · cases new
      have namedLater : ∀ other ∈ names, other.isEmpty = false :=
        fun other member => named other (List.mem_cons_of_mem _ member)
      obtain ⟨final, later⟩ := ih next namedLater kept
      refine ⟨final, ?_⟩
      rw [List.foldlM_cons, first]
      exact later

theorem declareAtoms_ok (declared : Aliases) (atoms : List Atom) (entries : List (String × Atom))
    (named : ∀ a ∈ atoms, ∀ name ∈ declaredNames declared a, name.isEmpty = false)
    (apart : atoms.Pairwise fun a b =>
      List.Disjoint (declaredKeys declared a) (declaredKeys declared b))
    (fresh : ∀ a ∈ atoms, ∀ key ∈ declaredKeys declared a, entries.lookup key = none) :
    ∃ declaredEntries, atoms.foldlM (declareAll declared) entries = .ok declaredEntries := by
  induction atoms generalizing entries with
  | nil => exact ⟨entries, rfl⟩
  | cons a atoms ih =>
      obtain ⟨alone, apart⟩ := List.pairwise_cons.mp apart
      have own : ∀ key ∈ declaredKeys declared a, ∀ b, entries.lookup key = some b → b = a := by
        intro key member b found
        rw [fresh a (by simp) key member] at found
        cases found
      obtain ⟨next, first⟩ := declareNames_ok a _ entries (named a (by simp)) own
      have stillFresh : ∀ b ∈ atoms, ∀ key ∈ declaredKeys declared b, next.lookup key = none := by
        intro b member key keyOfB
        have foreign : key ∉ (declaredNames declared a).map Text.lower :=
          fun keyOfA => alone b member keyOfA keyOfB
        rw [lookup_declareNames a _ entries next first, if_neg foreign, Option.or_none]
        exact fresh b (List.mem_cons_of_mem _ member) key keyOfB
      have namedLater : ∀ b ∈ atoms, ∀ name ∈ declaredNames declared b, name.isEmpty = false :=
        fun b member => named b (List.mem_cons_of_mem _ member)
      obtain ⟨final, later⟩ := ih next namedLater apart
        stillFresh
      refine ⟨final, ?_⟩
      rw [List.foldlM_cons, declareAll_eq, first]
      exact later

theorem build_ok (c : Category) (declared : Aliases)
    (own : ∀ entry ∈ declared, entry.1.category = c)
    (named : ∀ a ∈ Atom.ofCategory c, ∀ name ∈ declaredNames declared a, name.isEmpty = false)
    (apart : (Atom.ofCategory c).Pairwise fun a b =>
      List.Disjoint (declaredKeys declared a) (declaredKeys declared b)) :
    ∃ t, build c declared = .ok t := by
  have noForeign : declared.find? (fun entry => entry.1.category != c) = none := by
    rw [List.find?_eq_none]
    intro entry member
    simp [own entry member]
  obtain ⟨entries, made⟩ := declareAtoms_ok declared (Atom.ofCategory c) [] named apart (by simp)
  refine ⟨⟨c, entries⟩, ?_⟩
  unfold build
  rw [noForeign]
  show (List.foldlM (declareAll declared) [] (Atom.ofCategory c)).bind _ = _
  rw [made]
  rfl

end AliasTable

end InputChords
