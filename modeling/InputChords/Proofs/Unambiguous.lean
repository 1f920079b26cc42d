import Mathlib.Data.Finset.Card
import Mathlib.Data.Finset.Dedup
import InputChords.Proofs.Names

/-! Tables whose names are unambiguous. The names are declared one after the other, and each is only
compared with those before it; yet the table is built exactly if no two atoms of the category share
a name, and then it knows each name once. -/

namespace InputChords

theorem Atom.ofCategory_nodup (c : Category) : (ofCategory c).Nodup := by
  have apart := (List.nodup_flatMap.mp (keys_nodup c)).2
  apply apart.imp
  intro a b disjoint same
  have known : Text.lower a.name ∈ a.keys := List.mem_cons_self
  rw [← same] at disjoint
  exact disjoint known known

section Fold

variable {ε α β : Type} {step : β → α → Except ε β}

theorem foldlM_invariant (Holds : β → Prop) (each : ∀ s t x, step s x = .ok t → Holds s → Holds t)
    (xs : List α) (s final : β) (done : xs.foldlM step s = .ok final) (start : Holds s) :
    Holds final := by
  induction xs generalizing s with
  | nil =>
      cases done
      exact start
  | cons x xs ih =>
      rw [List.foldlM_cons] at done
      obtain ⟨t, first, later⟩ := bind_eq_ok done
      exact ih t later (each s t x first start)

theorem foldlM_forall (Fact : α → β → Prop) (made : ∀ s t x, step s x = .ok t → Fact x t)
    (kept : ∀ x s t y, step s y = .ok t → Fact x s → Fact x t) (xs : List α) (s final : β)
    (done : xs.foldlM step s = .ok final) : ∀ x ∈ xs, Fact x final := by
  induction xs generalizing s with
  | nil => simp
  | cons x xs ih =>
      rw [List.foldlM_cons] at done
      obtain ⟨t, first, later⟩ := bind_eq_ok done
      have here := foldlM_invariant (Fact x) (kept x) xs t final later (made s t x first)
      exact List.forall_mem_cons.mpr ⟨here, ih t later⟩

end Fold

namespace AliasTable

/-- The name is one that may be declared, and stands for the atom. -/
def Owns (a : Atom) (name : String) (entries : List (String × Atom)) : Prop :=
  name.isEmpty = false ∧ entries.lookup (Text.lower name) = some a

theorem declare_owns (a : Atom) (entries next : List (String × Atom)) (name : String)
    (done : declare a entries name = .ok next) : Owns a name next := by
  have found := lookup_declare a entries next name done (Text.lower name)
  rw [if_pos rfl] at found
  unfold declare at done
  split at done
  · cases done
  · rename_i filled
    refine ⟨by simpa using filled, ?_⟩
    cases known : entries.lookup (Text.lower name) with
    | none => rw [found, known, Option.none_or]
    | some first =>
        simp only [known] at done
        split at done
        · rename_i same
          rw [found, known, Option.some_or, same]
        · cases done

theorem declareNames_owns (a : Atom) (names : List String) (entries final : List (String × Atom))
    (done : names.foldlM (declare a) entries = .ok final) : ∀ name ∈ names, Owns a name final := by
  apply foldlM_forall (Owns a) _ _ names entries final done
  · exact declare_owns a
  · intro name entries next other made owned
    refine ⟨owned.1, ?_⟩
    rw [lookup_declare a entries next other made, owned.2, Option.some_or]

theorem declareAtoms_owns (declared : Aliases) (atoms : List Atom)
    (entries final : List (String × Atom))
    (done : atoms.foldlM (declareAll declared) entries = .ok final) :
    ∀ a ∈ atoms, ∀ name ∈ declaredNames declared a, Owns a name final := by
  apply foldlM_forall (fun a entries => ∀ name ∈ declaredNames declared a, Owns a name entries)
    _ _ atoms entries final done
  · intro entries next a
    exact declareNames_owns a (declaredNames declared a) entries next
  · intro a entries next other made owned name named
    obtain ⟨filled, known⟩ := owned name named
    refine ⟨filled, ?_⟩
    rw [lookup_declareNames other _ entries next made, known, Option.some_or]

theorem build_eq_ok (c : Category) (declared : Aliases) (t : AliasTable)
    (done : build c declared = .ok t) :
    (∀ entry ∈ declared, entry.1.category = c) ∧
      (Atom.ofCategory c).foldlM (declareAll declared) [] = .ok t.entries := by
  unfold build at done
  split at done
  · cases done
  · rename_i noForeign
    obtain ⟨entries, made, done⟩ := bind_eq_ok done
    cases done
    refine ⟨?_, made⟩
    intro entry member
    simpa using List.find?_eq_none.mp noForeign entry member

def Distinct (entries : List (String × Atom)) : Prop := (entries.map (·.1)).Nodup

theorem declare_distinct (a : Atom) (entries next : List (String × Atom)) (name : String)
    (done : declare a entries name = .ok next) (distinct : Distinct entries) : Distinct next := by
  unfold declare at done
  split at done
  · cases done
  · cases known : entries.lookup (Text.lower name) with
    | none =>
        simp only [known] at done
        cases done
        have fresh : Text.lower name ∉ entries.map (·.1) := by
          intro member
          obtain ⟨entry, inside, same⟩ := List.mem_map.mp member
          have different := List.lookup_eq_none_iff.mp known entry inside
          simp [same] at different
        rw [Distinct, List.map_append, List.map_singleton, ← List.concat_eq_append]
        exact distinct.concat fresh
    | some first =>
        simp only [known] at done
        split at done
        · cases done
          exact distinct
        · cases done

theorem build_distinct (c : Category) (declared : Aliases) (t : AliasTable)
    (done : build c declared = .ok t) : Distinct t.entries := by
  have names (entries next : List (String × Atom)) (a : Atom) :
      declareAll declared entries a = .ok next → Distinct entries → Distinct next :=
    foldlM_invariant Distinct (declare_distinct a) (declaredNames declared a) entries next
  have made := (build_eq_ok c declared t done).2
  exact foldlM_invariant Distinct names (Atom.ofCategory c) [] t.entries made .nil

section Build

variable (c : Category) (declared : Aliases)

/-- What can be wrong with the names that are declared for a category. -/
inductive Conflict : Prop
  | foreign (a : Atom) (aliases : List String) (known : declared.lookup a = some aliases)
      (other : a.category ≠ c)
  | blank (a : Atom) (aliases : List String) (known : declared.lookup a = some aliases)
      (empty : "" ∈ aliases)
  | shared (a b : Atom) (different : a ≠ b) (left : a.category = c) (right : b.category = c)
      (name other : String) (named : name ∈ declaredNames declared a)
      (otherNamed : other ∈ declaredNames declared b) (same : Text.lower name = Text.lower other)

/-- The atom is one of the category, and the name is one of its names but for the case. -/
def Knows (name : String) (a : Atom) : Prop :=
  a.category = c ∧ ∃ known ∈ declaredNames declared a, Text.lower name = Text.lower known

variable {c declared}

theorem knows_iff (name : String) (a : Atom) :
    Knows c declared name a ↔
      a ∈ Atom.ofCategory c ∧ Text.lower name ∈ declaredKeys declared a := by
  rw [Knows, Atom.mem_ofCategory, declaredKeys, List.mem_map]
  simp only [eq_comm]

theorem build_owns {t : AliasTable} (done : build c declared = .ok t) (a : Atom)
    (own : a.category = c) (name : String) (named : name ∈ declaredNames declared a) :
    Owns a name t.entries :=
  declareAtoms_owns declared _ _ t.entries (build_eq_ok c declared t done).2 a
    ((Atom.mem_ofCategory a c).mpr own) name named

theorem no_conflict {t : AliasTable} (done : build c declared = .ok t) : ¬ Conflict c declared := by
  intro conflict
  have own {a : Atom} {aliases : List String} (known : declared.lookup a = some aliases) :
      a.category = c := by
    obtain ⟨before, later, split, _⟩ := List.lookup_eq_some_iff.mp known
    apply (build_eq_ok c declared t done).1 (a, aliases)
    rw [split]
    exact List.mem_append_right _ List.mem_cons_self
  cases conflict with
  | foreign a aliases known other => exact other (own known)
  | blank a aliases known empty =>
      have named : "" ∈ declaredNames declared a := by
        rw [declaredNames, known]
        exact List.mem_cons_of_mem _ empty
      have filled := (build_owns done a (own known) "" named).1
      exact absurd filled (by decide)
  | shared a b different left right name other named otherNamed same =>
      have first := (build_owns done a left name named).2
      have second := (build_owns done b right other otherNamed).2
      rw [same, second] at first
      exact different (Option.some.inj first).symm

theorem declaredNames_filled (clear : ¬ Conflict c declared) (a : Atom) (name : String)
    (named : name ∈ declaredNames declared a) : name.isEmpty = false := by
  rw [declaredNames, List.mem_cons] at named
  cases named with
  | inl canonical =>
      rw [canonical]
      exact a.names_filled a.name List.mem_cons_self
  | inr extra =>
      cases known : declared.lookup a with
      | none => simp [known] at extra
      | some aliases =>
          rw [known, Option.getD_some] at extra
          by_contra empty
          have blank : name = "" := by simpa using empty
          rw [blank] at extra
          exact clear (.blank a aliases known extra)

theorem build_ok_of_clear (clear : ¬ Conflict c declared) : ∃ t, build c declared = .ok t := by
  apply build_ok c declared
  · intro entry member
    by_contra other
    have present : (declared.lookup entry.1).isSome := by
      rw [List.lookup_isSome_iff]
      exact ⟨entry, member, beq_self_eq_true _⟩
    obtain ⟨aliases, known⟩ := Option.isSome_iff_exists.mp present
    exact clear (.foreign entry.1 aliases known other)
  · exact fun a _ => declaredNames_filled clear a
  · apply (Atom.ofCategory_nodup c).imp_of_mem
    intro a b left right different key first second
    obtain ⟨name, named, found⟩ := List.mem_map.mp first
    obtain ⟨other, otherNamed, same⟩ := List.mem_map.mp second
    exact clear (.shared a b different ((Atom.mem_ofCategory a c).mp left)
      ((Atom.mem_ofCategory b c).mp right) name other named otherNamed (found.trans same.symm))

theorem lookup_eq_some_iff {t : AliasTable} (done : build c declared = .ok t) (name : String)
    (a : Atom) : t.lookup name = some a ↔ Knows c declared name a := by
  constructor
  · intro found
    rw [lookup_build c declared t done] at found
    rw [knows_iff]
    exact ⟨List.mem_of_find?_eq_some found, by simpa using List.find?_some found⟩
  · rintro ⟨own, known, named, same⟩
    rw [lookup, same]
    exact (build_owns done a own known named).2

theorem mem_names_iff {t : AliasTable} (done : build c declared = .ok t) (key : String) :
    key ∈ t.names ↔ ∃ a ∈ Atom.ofCategory c, key ∈ declaredKeys declared a := by
  have entries := lookup_declareAtoms declared _ _ _ (build_eq_ok c declared t done).2 key
  rw [List.lookup_nil, Option.none_or] at entries
  have present : key ∈ t.names ↔ (t.entries.lookup key).isSome := by
    rw [names, List.mem_map, List.lookup_isSome_iff]
    exact exists_congr fun entry => and_congr_right fun _ => by rw [beq_iff_eq, eq_comm]
  rw [present, entries, List.find?_isSome]
  simp

theorem length_build {t : AliasTable} (done : build c declared = .ok t) :
    t.entries.length = ((Atom.ofCategory c).flatMap (declaredKeys declared)).toFinset.card := by
  have same : t.names.toFinset =
      ((Atom.ofCategory c).flatMap (declaredKeys declared)).toFinset := by
    ext key
    rw [List.mem_toFinset, List.mem_toFinset, mem_names_iff done, List.mem_flatMap]
  have distinct : t.names.Nodup := build_distinct c declared t done
  rw [← same, List.toFinset_card_of_nodup distinct, names, List.length_map]

end Build

/-- A table is built unless its names conflict. It then finds each atom under its names, whatever
their case, and has one entry for each of them. -/
theorem build_unambiguous (c : Category) (declared : Aliases) :
    ((∃ e, build c declared = .error e) ↔ Conflict c declared) ∧
    (¬ Conflict c declared → ∃ t, build c declared = .ok t ∧
      (∀ name a, t.lookup name = some a ↔ Knows c declared name a) ∧
      (∀ name, t.lookup name = none ↔ ¬ ∃ a, Knows c declared name a) ∧
      (∀ name, t.contains name = (t.lookup name).isSome) ∧
      (∀ a, a.category = c → t.lookup a.name = some a) ∧
      t.entries.length =
        ((Atom.ofCategory c).flatMap (declaredKeys declared)).toFinset.card) := by
  constructor
  · constructor
    · rintro ⟨e, failed⟩
      by_contra clear
      obtain ⟨t, done⟩ := build_ok_of_clear clear
      rw [done] at failed
      cases failed
    · intro conflict
      cases done : build c declared with
      | error e => exact ⟨e, rfl⟩
      | ok t => exact absurd conflict (no_conflict done)
  · intro clear
    obtain ⟨t, done⟩ := build_ok_of_clear clear
    have found := lookup_eq_some_iff done
    refine ⟨t, done, found, ?_, t.contains_eq, ?_, length_build done⟩
    · intro name
      rw [Option.eq_none_iff_forall_ne_some, not_exists]
      exact forall_congr' fun a => not_congr (found name a)
    · intro a own
      exact (build_owns done a own a.name List.mem_cons_self).2

/-- An atom may be given one name again and again, and another atom's name never. -/
theorem build_unambiguous_drag :
    let declared : Aliases := [(.drag, ["Dragging", "DRAGGING", "mousedrag"])]
    let shared : Aliases := [(.click .left, ["DOUBLECLICK"])]
    Conflict .mouseClick shared ∧ ¬ Conflict .mouseDrag declared ∧
      ∃ t, build .mouseDrag declared = .ok t ∧ t.lookup "dRAGGING" = some .drag ∧
        t.lookup "drag" = none ∧ t.entries.length = 2 := by
  intro declared shared
  obtain ⟨fails, _⟩ := build_unambiguous .mouseClick shared
  obtain ⟨outcome, made⟩ := build_unambiguous .mouseDrag declared
  have clash : build .mouseClick shared =
      .error (.clash "DoubleClick" (.click .left) (.click .double)) := by decide +kernel
  have built : build .mouseDrag declared =
      .ok ⟨.mouseDrag, [("mousedrag", .drag), ("dragging", .drag)]⟩ := by decide +kernel
  have clear : ¬ Conflict .mouseDrag declared := by
    intro conflict
    obtain ⟨e, failed⟩ := outcome.mpr conflict
    rw [built] at failed
    cases failed
  obtain ⟨t, done, found, missing, _, _, _⟩ := made clear
  have table := done
  rw [built] at table
  cases table
  refine ⟨fails.mp ⟨_, clash⟩, clear, _, done, ?_, ?_, rfl⟩
  · exact (found _ _).mpr ⟨rfl, "Dragging", by decide, by decide +kernel⟩
  · apply (missing _).mpr
    rintro ⟨a, own, known, named, same⟩
    have only : a = .drag := by
      cases a with
      | drag => rfl
      | _ => cases own
    rw [only] at named
    have apart : ∀ known ∈ declaredNames declared .drag, Text.lower "drag" ≠ Text.lower known := by
      decide +kernel
    exact apart known named same

end AliasTable

end InputChords
