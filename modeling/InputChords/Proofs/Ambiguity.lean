import InputChords.Proofs.LowerCase
import InputChords.Proofs.Shadowing
import InputChords.Proofs.Unambiguous

/-! Names that more than one table knows. The report has each of them once, in order, with all the
categories that know it, and a lookup ends in the first of these. -/

namespace InputChords

theorem mapM_forall {ε α β : Type} {f : α → Except ε β} (xs : List α) (ys : List β)
    (done : xs.mapM f = .ok ys) : ∀ x ∈ xs, ∃ y, f x = .ok y := by
  induction xs generalizing ys with
  | nil => simp
  | cons x xs ih =>
      rw [List.mapM_cons] at done
      obtain ⟨y, first, done⟩ := bind_eq_ok done
      obtain ⟨rest, later, _⟩ := bind_eq_ok done
      exact List.forall_mem_cons.mpr ⟨⟨y, first⟩, ih rest later⟩

namespace AliasTable

theorem build_category {c : Category} {declared : Aliases} {t : AliasTable}
    (done : build c declared = .ok t) : t.category = c := by
  unfold build at done
  split at done
  · cases done
  · obtain ⟨entries, _, done⟩ := bind_eq_ok done
    cases done
    rfl

theorem buildAll_eq_ok {catalog : Category → Aliases} {tables : List AliasTable}
    (done : buildAll catalog = .ok tables) :
    ∃ table : Category → AliasTable,
      (∀ c, build c (catalog c) = .ok (table c)) ∧ tables = Category.all.map table := by
  have built (c : Category) := mapM_forall Category.all tables done c c.mem_all
  choose table built using built
  rw [buildAll_ok catalog table built] at done
  exact ⟨table, built, (Except.ok.inj done).symm⟩

theorem lower_of_mem_names {c : Category} {declared : Aliases} {t : AliasTable}
    (done : build c declared = .ok t) {key : String} (member : key ∈ t.names) :
    Text.lower key = key := by
  obtain ⟨a, _, known⟩ := (mem_names_iff done key).mp member
  obtain ⟨name, _, rfl⟩ := List.mem_map.mp known
  exact Text.lower_lower name

def holders (tables : List AliasTable) (key : String) : List Category :=
  (tables.filter fun t => (t.entries.lookup key).isSome).map (·.category)

variable (tables : List AliasTable) (key : String)

theorem length_holders :
    (holders tables key).length = tables.countP fun t => decide (key ∈ t.names) := by
  rw [holders, List.length_map, ← List.countP_eq_length_filter]
  apply List.countP_congr
  intro t _
  rw [decide_eq_true_iff, mem_names_iff_lookup]

theorem mem_holders (c : Category) :
    c ∈ holders tables key ↔ ∃ t ∈ tables, t.category = c ∧ key ∈ t.names := by
  simp only [holders, List.mem_map, List.mem_filter, mem_names_iff_lookup]
  constructor
  · rintro ⟨t, ⟨member, known⟩, here⟩
    exact ⟨t, member, here, known⟩
  · rintro ⟨t, member, here, known⟩
    exact ⟨t, ⟨member, known⟩, here⟩

theorem findSome?_holders (owned : ∀ t ∈ tables, ∀ name a, t.lookup name = some a →
    a.category = t.category) (name : String) (lower : Text.lower name = key) :
    (holders tables key).head? = (tables.findSome? (·.lookup name)).map Atom.category := by
  subst lower
  induction tables with
  | nil => rfl
  | cons t rest ih =>
      obtain ⟨here, later⟩ := List.forall_mem_cons.mp owned
      cases found : t.lookup name with
      | none =>
          have missing : (t.entries.lookup (Text.lower name)).isSome = false := by
            rw [← lookup, found]
            rfl
          rw [List.findSome?_cons, found, ← ih later, holders, holders, List.filter_cons, missing]
          rfl
      | some a =>
          have known : (t.entries.lookup (Text.lower name)).isSome = true := by
            rw [← lookup, found]
            rfl
          rw [List.findSome?_cons, found, holders, List.filter_cons, known, Option.map_some,
            here name a found]
          rfl

section Grouped

theorem get?_note (c : Category) (seen : Named String (List Category)) (name other : String) :
    Named.get? (note c seen name) other =
      if other = name then some ((seen.get? name).getD [] ++ [c]) else seen.get? other :=
  Named.get?_put name _ seen other

theorem nodup_foldl_note (c : Category) (names : List String) {seen : Named String (List Category)}
    (distinct : (Named.names seen).Nodup) : (Named.names (names.foldl (note c) seen)).Nodup := by
  induction names generalizing seen with
  | nil => exact distinct
  | cons name rest ih => exact ih (Named.nodup_names_put name _ distinct)

theorem get?_foldl_note (c : Category) {names : List String} (distinct : names.Nodup)
    (seen : Named String (List Category)) (key : String) :
    Named.get? (names.foldl (note c) seen) key =
      if key ∈ names then some ((seen.get? key).getD [] ++ [c]) else seen.get? key := by
  induction names generalizing seen with
  | nil => rfl
  | cons name rest ih =>
      obtain ⟨fresh, later⟩ := List.nodup_cons.mp distinct
      rw [List.foldl_cons, ih later, get?_note]
      by_cases here : key = name
      · subst here
        rw [if_neg fresh, if_pos rfl, if_pos List.mem_cons_self]
      · simp [here]

theorem grouped_concat (tables : List AliasTable) (t : AliasTable) :
    grouped (tables ++ [t]) = t.names.foldl (note t.category) (grouped tables) := by
  rw [grouped, List.foldl_append]
  rfl

theorem holders_concat (tables : List AliasTable) (t : AliasTable) (key : String) :
    holders (tables ++ [t]) key =
      holders tables key ++ if key ∈ t.names then [t.category] else [] := by
  rw [holders, List.filter_append, List.map_append, ← holders]
  by_cases known : key ∈ t.names
  · have found := (t.mem_names_iff_lookup key).mp known
    simp [known, found]
  · have missing := mt (t.mem_names_iff_lookup key).mpr known
    simp [known, missing]

theorem nodup_grouped (tables : List AliasTable) : (Named.names (grouped tables)).Nodup := by
  induction tables using List.reverseRecOn with
  | nil => exact List.nodup_nil
  | append_singleton tables t ih =>
      rw [grouped_concat]
      exact nodup_foldl_note t.category t.names ih

theorem get?_grouped {tables : List AliasTable} (distinct : ∀ t ∈ tables, t.names.Nodup)
    (key : String) :
    (grouped tables).get? key =
      if holders tables key = [] then none else some (holders tables key) := by
  induction tables using List.reverseRecOn with
  | nil => rfl
  | append_singleton tables t ih =>
      have before := ih fun other member => distinct other (List.mem_append_left _ member)
      have here := distinct t (List.mem_append_right _ (List.mem_singleton_self t))
      rw [grouped_concat, get?_foldl_note t.category here, before, holders_concat]
      by_cases known : key ∈ t.names
      · by_cases first : holders tables key = [] <;> simp [known, first]
      · simp [known]

end Grouped

end AliasTable

section Report

open AliasTable

variable (tables : List AliasTable)

theorem mem_ambiguities {tables : List AliasTable} (distinct : ∀ t ∈ tables, t.names.Nodup)
    (key : String) (cs : List Category) :
    (key, cs) ∈ ambiguities tables ↔ cs = holders tables key ∧ 1 < cs.length := by
  rw [ambiguities, List.mem_filter, List.mem_mergeSort,
    ← Named.get?_eq_some_iff (nodup_grouped tables), get?_grouped distinct, decide_eq_true_eq]
  constructor
  · rintro ⟨found, several⟩
    split at found
    · cases found
    · cases found
      exact ⟨rfl, several⟩
  · rintro ⟨rfl, several⟩
    refine ⟨if_neg fun none => ?_, several⟩
    rw [none] at several
    cases several

/-- Names are never equal, so sorting the groups by name puts the names in strict order. -/
theorem ambiguities_sorted : (Named.names (ambiguities tables)).Pairwise (· < ·) := by
  have le_iff (a b : String × List Category) : (!decide (b.1 < a.1)) = true ↔ a.1 ≤ b.1 := by
    rw [Bool.not_eq_true', decide_eq_false_iff_not, String.not_lt]
  have ordered : (Named.names ((grouped tables).mergeSort fun a b => !decide (b.1 < a.1))).Pairwise
      (· ≤ ·) := by
    refine List.pairwise_map.mpr ((List.pairwise_mergeSort ?_ ?_ _).imp (le_iff _ _).mp)
    · intro a b c
      simp only [le_iff]
      exact String.le_trans
    · intro a b
      simp only [Bool.or_eq_true, le_iff]
      exact String.le_total a.1 b.1
  have distinct : (Named.names ((grouped tables).mergeSort fun a b => !decide (b.1 < a.1))).Nodup :=
    ((List.mergeSort_perm _ _).map _).nodup_iff.mpr (nodup_grouped tables)
  have strict : (Named.names ((grouped tables).mergeSort fun a b => !decide (b.1 < a.1))).Pairwise
      (· < ·) := by
    refine ordered.imp₂ ?_ distinct
    intro a b below different
    by_contra other
    exact different (String.le_antisymm below (String.not_lt.mp other))
  exact strict.sublist (List.filter_sublist.map _)

variable {tables} {catalog : Category → Aliases} (done : buildAll catalog = .ok tables)

include done

theorem names_nodup_of_buildAll : ∀ t ∈ tables, t.names.Nodup := by
  obtain ⟨table, built, rfl⟩ := buildAll_eq_ok done
  intro t member
  obtain ⟨c, _, rfl⟩ := List.mem_map.mp member
  exact build_distinct c (catalog c) (table c) (built c)

theorem holders_sublist (key : String) : (holders tables key).Sublist Category.all := by
  obtain ⟨table, built, rfl⟩ := buildAll_eq_ok done
  have own : (fun c => (table c).category) = id := funext fun c => build_category (built c)
  rw [holders, List.filter_map, List.map_map]
  show (List.map (fun c => (table c).category) _).Sublist _
  rw [own, List.map_id]
  exact List.filter_sublist

theorem lookup_of_mem_ambiguities {key : String} {cs : List Category}
    (listed : (key, cs) ∈ ambiguities tables) (name : String) (lower : Text.lower name = key) :
    ∃ a, tables.findSome? (·.lookup name) = some a ∧ cs.head? = some a.category := by
  obtain ⟨rfl, several⟩ := (mem_ambiguities (names_nodup_of_buildAll done) key cs).mp listed
  obtain ⟨table, built, rfl⟩ := buildAll_eq_ok done
  have owned : ∀ t ∈ Category.all.map table, ∀ name a, t.lookup name = some a →
      a.category = t.category := by
    intro t member name a found
    obtain ⟨c, _, rfl⟩ := List.mem_map.mp member
    exact ((lookup_eq_some_iff (built c) name a).mp found).1.trans (build_category (built c)).symm
  have first := findSome?_holders _ key owned name lower
  cases found : (Category.all.map table).findSome? (·.lookup name) with
  | none =>
      rw [found, Option.map_none, List.head?_eq_none_iff] at first
      rw [first] at several
      cases several
  | some a =>
      rw [found] at first
      exact ⟨a, rfl, first⟩

theorem lower_of_mem_ambiguities {key : String} {cs : List Category}
    (listed : (key, cs) ∈ ambiguities tables) : Text.lower key = key := by
  obtain ⟨rfl, several⟩ := (mem_ambiguities (names_nodup_of_buildAll done) key cs).mp listed
  obtain ⟨c, member⟩ := List.exists_mem_of_length_pos (Nat.lt_of_succ_lt several)
  obtain ⟨t, inside, _, named⟩ := (mem_holders tables key c).mp member
  obtain ⟨table, built, rfl⟩ := buildAll_eq_ok done
  obtain ⟨c, _, rfl⟩ := List.mem_map.mp inside
  exact lower_of_mem_names (built c) named

end Report

theorem AliasTable.buildAll_builtin : buildAll builtinAliases = .ok builtin := by
  choose table built using build_builtin
  rw [builtin_eq_map table built, buildAll_ok builtinAliases table built]

theorem resolveAtom_of_findSome? (keyword : String) (a : Atom)
    (found : AliasTable.builtin.findSome? (·.lookup (normalizeKeyword keyword)) = some a) :
    resolveAtom keyword = some a := by
  have known : a.GoesBy keyword := by
    rw [AliasTable.findSome?_builtin] at found
    obtain ⟨c, _, owned⟩ := List.exists_of_findSome?_eq_some found
    exact ((Category.owner_eq_some_iff c _ a).mp owned).2
  rw [resolveAtom, if_neg (by simp [known.filled]), found]

/-- The report on the tables of a catalog has the names that are found in two tables or more, each
once and in order, with the categories that know it. A lookup of such a name ends in the first of
these, and so does a keyword that comes to the name if the tables are the built-in ones. -/
theorem ambiguities_complete (catalog : Category → Aliases) (tables : List AliasTable)
    (done : AliasTable.buildAll catalog = .ok tables) :
    (∀ key, key ∈ (ambiguities tables).map (·.1) ↔
      2 ≤ tables.countP fun t => decide (key ∈ t.names)) ∧
    ((ambiguities tables).map (·.1)).Pairwise (· < ·) ∧
    (∀ key cs, (key, cs) ∈ ambiguities tables →
      (∀ c, c ∈ cs ↔ ∃ t ∈ tables, t.category = c ∧ key ∈ t.names) ∧
      cs.Nodup ∧ cs.Sublist Category.all ∧
      ∃ a, tables.findSome? (·.lookup key) = some a ∧ cs.head? = some a.category) ∧
    ∀ key cs, (key, cs) ∈ ambiguities AliasTable.builtin →
      ∀ keyword, Text.lower (normalizeKeyword keyword) = key →
        ∃ a, resolveAtom keyword = some a ∧ cs.head? = some a.category := by
  refine ⟨?_, ambiguities_sorted tables, ?_, ?_⟩
  · intro key
    rw [← AliasTable.length_holders, List.mem_map]
    constructor
    · rintro ⟨⟨_, cs⟩, listed, rfl⟩
      obtain ⟨rfl, several⟩ := (mem_ambiguities (names_nodup_of_buildAll done) _ cs).mp listed
      exact several
    · intro several
      have listed := (mem_ambiguities (names_nodup_of_buildAll done) key _).mpr ⟨rfl, several⟩
      exact ⟨(key, _), listed, rfl⟩
  · intro key cs listed
    have winner := lookup_of_mem_ambiguities done listed key (lower_of_mem_ambiguities done listed)
    obtain ⟨rfl, _⟩ := (mem_ambiguities (names_nodup_of_buildAll done) key cs).mp listed
    have order := holders_sublist done key
    have distinct : Category.all.Nodup := by decide
    exact ⟨AliasTable.mem_holders tables key, distinct.sublist order, order, winner⟩
  · intro key cs listed keyword same
    obtain ⟨a, found, first⟩ :=
      lookup_of_mem_ambiguities AliasTable.buildAll_builtin listed _ same
    exact ⟨a, resolveAtom_of_findSome? keyword a found, first⟩

/-- A click and a movement share a name, and the click is asked first. -/
theorem ambiguities_complete_left :
    ∃ cs, ("mouseleft", cs) ∈ ambiguities AliasTable.builtin ∧
      ((ambiguities AliasTable.builtin).map (·.1)).Pairwise (· < ·) ∧
      .mouseMovement ∈ cs ∧ cs.head? = some .mouseClick ∧
      resolveAtom "Mouse-LEFT" = some (.click .left) := by
  obtain ⟨several, sorted, listed, resolved⟩ :=
    ambiguities_complete _ _ AliasTable.buildAll_builtin
  have named {c : Category} {t : AliasTable}
      (built : AliasTable.build c (AliasTable.builtinAliases c) = .ok t) (a : Atom)
      (own : a.category = c) (known : "mouseleft" ∈ a.keys) : "mouseleft" ∈ t.names := by
    have member : a ∈ Atom.ofCategory c := (Atom.mem_ofCategory a c).mpr own
    rw [← AliasTable.declaredKeys_builtin c a member] at known
    exact (AliasTable.mem_names_iff built _).mpr ⟨a, member, known⟩
  obtain ⟨table, built, tables⟩ := AliasTable.buildAll_eq_ok AliasTable.buildAll_builtin
  have click := named (built .mouseClick) (.click .left) rfl (by decide +kernel)
  have movement :=
    named (built .mouseMovement) (.movement (.toward .left)) rfl (by decide +kernel)
  have twice : 2 ≤ AliasTable.builtin.countP fun t => decide ("mouseleft" ∈ t.names) := by
    rw [tables]
    simp only [Category.all, List.map_cons, List.map_nil, List.countP_cons, click, movement,
      decide_true, if_true]
    omega
  obtain ⟨⟨_, cs⟩, member, rfl⟩ := List.mem_map.mp ((several "mouseleft").mpr twice)
  have found : resolveAtom "Mouse-LEFT" = some (.click .left) :=
    (resolveAtom_or_shadowed (.click .left) "Mouse-LEFT" (by decide +kernel)).resolve_right
      fun shadowed => by cases shadowed.1
  obtain ⟨a, same, first⟩ := resolved _ cs member "Mouse-LEFT" (by decide +kernel)
  rw [found] at same
  cases same
  refine ⟨cs, member, sorted, ?_, first, found⟩
  rw [(listed _ cs member).1]
  refine ⟨table .mouseMovement, ?_, AliasTable.build_category (built _), movement⟩
  rw [tables]
  exact List.mem_map.mpr ⟨.mouseMovement, by decide, rfl⟩

end InputChords
