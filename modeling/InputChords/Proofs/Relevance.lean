import InputChords.Bindings
import InputChords.Proofs.Derivation
import InputChords.Proofs.Leaves

/-! Which atoms matter. Whether a chord holds depends on the atoms at its leaves alone, and a table
of bindings names exactly these atoms: nothing else that becomes active changes which actions
hold. -/

namespace InputChords

variable {σ κ : Type}

namespace Chord

def firstStray? : Chord σ → Option σ
  | atom _ => none
  | not t => t.firstStray?
  | join _ l r => l.firstStray?.or r.firstStray?
  | stray v => some v

def lastStray? : Chord σ → Option σ
  | atom _ => none
  | not t => t.lastStray?
  | join _ l r => r.lastStray?.or l.lastStray?
  | stray v => some v

/-- What a chord means while the atoms of `active` are active. A stray value means nothing. -/
def holds (active : AtomSet) : Chord σ → Bool
  | atom a => decide (a ∈ active)
  | not t => !t.holds active
  | join c l r => c.apply (l.holds active) (r.holds active)
  | stray _ => false

theorem firstStray?_eq_none_iff (t : Chord σ) : t.firstStray? = none ↔ t.Sound := by
  induction t with
  | atom a => simp [firstStray?, Sound]
  | not t ih => exact ih
  | join c l r left right => simp [firstStray?, Sound, left, right]
  | stray v => simp [firstStray?, Sound]

theorem lastStray?_eq_none_iff (t : Chord σ) : t.lastStray? = none ↔ t.Sound := by
  induction t with
  | atom a => simp [lastStray?, Sound]
  | not t ih => exact ih
  | join c l r left right => simp [lastStray?, Sound, left, right, and_comm]
  | stray v => simp [lastStray?, Sound]

theorem fold_of_stray {α : Type} (m : Meaning σ α) {t : Chord σ} {v : σ}
    (stray : t.firstStray? = some v) : t.fold m = .error v := by
  rw [fold_eq_value]
  induction t with
  | atom a => cases stray
  | stray w =>
      cases stray
      rfl
  | not t ih =>
      rw [value, ih stray]
      rfl
  | join c l r left right =>
      rw [firstStray?, Option.or_eq_some_iff] at stray
      cases stray with
      | inl onLeft =>
          rw [value, left onLeft]
          rfl
      | inr onRight =>
          obtain ⟨x, done⟩ := fold_of_sound m ((firstStray?_eq_none_iff l).mp onRight.1)
          rw [fold_eq_value] at done
          rw [value, done, right onRight.2]
          rfl

/-- The walk from the left evaluates a chord as recursion on its shape does, unless it meets a stray
value. -/
theorem eval_eq (active : AtomSet) (t : Chord σ) :
    t.eval active =
      match t.firstStray? with
      | none => .ok (t.holds active)
      | some v => .error v := by
  rw [eval, fold_eq_value]
  induction t with
  | atom a => rfl
  | stray v => rfl
  | not t ih =>
      rw [value, ih, firstStray?]
      cases t.firstStray? <;> rfl
  | join c l r left right =>
      rw [value, left, right, firstStray?]
      cases l.firstStray? with
      | some v => rfl
      | none =>
          cases r.firstStray? with
          | some v => rfl
          | none => cases c <;> rfl

theorem eval_of_sound (active : AtomSet) (t : Chord σ) (sound : t.Sound) :
    t.eval active = .ok (t.holds active) := by
  rw [eval_eq, (firstStray?_eq_none_iff t).mpr sound]

theorem holds_congr (S T : AtomSet) (t : Chord σ) (agree : ∀ a ∈ t.leaves, a ∈ S ↔ a ∈ T) :
    t.holds S = t.holds T := by
  induction t with
  | atom a =>
      have here : a ∈ S ↔ a ∈ T := agree a (List.mem_singleton_self a)
      simp only [holds, here]
  | not t ih => rw [holds, holds, ih agree]
  | join c l r left right =>
      have onLeft : ∀ a ∈ l.leaves, a ∈ S ↔ a ∈ T :=
        fun a member => agree a (List.mem_append_left _ member)
      have onRight : ∀ a ∈ r.leaves, a ∈ S ↔ a ∈ T :=
        fun a member => agree a (List.mem_append_right _ member)
      rw [holds, holds, left onLeft, right onRight]
  | stray v => rfl

/-- The walk from the right collects the leaves in their order, unless it meets a stray value. -/
theorem collect_cons (found : List Atom) (t : Chord σ) (rest : List (Chord σ)) :
    collect found (t :: rest) =
      match t.lastStray? with
      | none => collect (t.leaves ++ found) rest
      | some v => .error v := by
  induction t generalizing found rest with
  | atom a =>
      rw [collect]
      rfl
  | stray v =>
      rw [collect]
      rfl
  | not t ih =>
      rw [collect, ih]
      rfl
  | join c l r left right =>
      rw [collect, right, lastStray?]
      cases r.lastStray? with
      | some v => rfl
      | none =>
          show collect (r.leaves ++ found) (l :: rest) = _
          rw [left, leaves, List.append_assoc]
          rfl

theorem atoms_eq (t : Chord σ) :
    t.atoms =
      match t.lastStray? with
      | none => .ok (.ofList t.leaves)
      | some v => .error v := by
  rw [atoms, collect_cons, List.append_nil]
  cases t.lastStray? with
  | some v => rfl
  | none =>
      show (collect t.leaves []).map AtomSet.ofList = _
      rw [collect]
      rfl

theorem atoms_of_sound (t : Chord σ) (sound : t.Sound) : t.atoms = .ok (.ofList t.leaves) := by
  rw [atoms_eq, (lastStray?_eq_none_iff t).mpr sound]

theorem eval_congr (S T : AtomSet) (t : Chord σ)
    (agree : ∀ found, t.atoms = .ok found → ∀ a ∈ found, a ∈ S ↔ a ∈ T) :
    t.eval S = t.eval T := by
  rw [eval_eq, eval_eq]
  cases stray : t.firstStray? with
  | some v => rfl
  | none =>
      have found := t.atoms_of_sound ((firstStray?_eq_none_iff t).mp stray)
      have same : t.holds S = t.holds T := by
        apply holds_congr
        intro a member
        exact agree _ found a ((AtomSet.mem_ofList t.leaves a).mpr member)
      show (.ok (t.holds S) : Except σ Bool) = .ok (t.holds T)
      rw [same]

end Chord

namespace Bindings

def Sound (b : Bindings κ) : Prop := ∀ entry ∈ b.entries, entry.2.Sound

def holding (active : AtomSet) (entries : Named κ (Chord Value)) : List κ :=
  Named.names (entries.filter fun entry => entry.2.holds active)

theorem activeAmong_eq (active : AtomSet) (entries : Named κ (Chord Value)) :
    activeAmong active entries =
      match entries.findSome? (·.2.firstStray?) with
      | none => .ok (holding active entries)
      | some v => .error v := by
  induction entries with
  | nil => rfl
  | cons entry rest ih =>
      obtain ⟨action, t⟩ := entry
      rw [activeAmong, t.eval_eq, ih, List.findSome?_cons]
      cases t.firstStray? with
      | some v => rfl
      | none =>
          cases rest.findSome? (·.2.firstStray?) with
          | some v => rfl
          | none =>
              show (.ok (if t.holds active = true then _ else _) : Except Value (List κ)) = _
              cases value : t.holds active <;> simp [holding, Named.names, value]

theorem activeAmong_of_sound (active : AtomSet) (entries : Named κ (Chord Value))
    (sound : ∀ entry ∈ entries, entry.2.Sound) :
    activeAmong active entries = .ok (holding active entries) := by
  have none : entries.findSome? (·.2.firstStray?) = none := by
    rw [List.findSome?_eq_none_iff]
    exact fun entry member => (Chord.firstStray?_eq_none_iff _).mpr (sound entry member)
  rw [activeAmong_eq, none]

theorem atomsAmong_eq (entries : Named κ (Chord Value)) :
    atomsAmong entries =
      match entries.findSome? (·.2.lastStray?) with
      | none => .ok (.ofList (entries.flatMap (·.2.leaves)))
      | some v => .error v := by
  induction entries with
  | nil => rfl
  | cons entry rest ih =>
      obtain ⟨action, t⟩ := entry
      rw [atomsAmong, t.atoms_eq, ih, List.findSome?_cons]
      cases t.lastStray? with
      | some v => rfl
      | none =>
          cases rest.findSome? (·.2.lastStray?) with
          | some v => rfl
          | none =>
              show Except.ok (AtomSet.ofList t.leaves ∪ .ofList (rest.flatMap (·.2.leaves))) = _
              apply congrArg Except.ok
              apply AtomSet.ext
              intro a
              rw [AtomSet.mem_union, AtomSet.mem_ofList, AtomSet.mem_ofList, AtomSet.mem_ofList,
                List.flatMap_cons, List.mem_append]

theorem atomsAmong_of_sound (entries : Named κ (Chord Value))
    (sound : ∀ entry ∈ entries, entry.2.Sound) :
    ∃ found, atomsAmong entries = .ok found ∧
      ∀ a, a ∈ found ↔ ∃ entry ∈ entries, a ∈ entry.2.leaves := by
  have none : entries.findSome? (·.2.lastStray?) = none := by
    rw [List.findSome?_eq_none_iff]
    exact fun entry member => (Chord.lastStray?_eq_none_iff _).mpr (sound entry member)
  refine ⟨.ofList (entries.flatMap (·.2.leaves)), ?_, ?_⟩
  · rw [atomsAmong_eq, none]
  · intro a
    rw [AtomSet.mem_ofList, List.mem_flatMap]

theorem holding_congr (S T : AtomSet) (entries : Named κ (Chord Value))
    (agree : ∀ entry ∈ entries, ∀ a ∈ entry.2.leaves, a ∈ S ↔ a ∈ T) :
    holding S entries = holding T entries := by
  have same : ∀ entry ∈ entries, entry.2.holds S = entry.2.holds T :=
    fun entry member => Chord.holds_congr S T entry.2 (agree entry member)
  rw [holding, holding, List.filter_congr same]

theorem mem_of_get? [DecidableEq κ] {b : Bindings κ} {action : κ} {t : Chord Value}
    (bound : b.get? action = some t) : (action, t) ∈ b.entries := by
  obtain ⟨before, later, split, _⟩ := List.lookup_eq_some_iff.mp bound
  rw [split]
  exact List.mem_append_right _ (List.mem_cons_self ..)

theorem isActive_of_sound [DecidableEq κ] (b : Bindings κ) (sound : b.Sound) (action : κ)
    (active : AtomSet) :
    b.isActive action active = .ok ((b.get? action).any (·.holds active)) := by
  rw [isActive]
  cases bound : b.get? action with
  | none => rfl
  | some t =>
      show Value.sound (t.eval active) = _
      rw [t.eval_of_sound active (sound _ (mem_of_get? bound))]
      rfl

end Bindings

/-- The atoms of a chord are those at its leaves, and they decide whether it holds. The relevant
atoms of a table are those of all of its chords, and they decide which actions are active. -/
theorem relevant_atoms_decide [DecidableEq κ] :
    (∀ t : Chord Value, t.Sound → ∃ found, t.atoms = .ok found ∧ ∀ a, a ∈ found ↔ a ∈ t.leaves) ∧
    (∀ (t : Chord Value) (S T : AtomSet),
      (∀ found, t.atoms = .ok found → ∀ a ∈ found, a ∈ S ↔ a ∈ T) → t.eval S = t.eval T) ∧
    ∀ b : Bindings κ, b.Sound → ∃ relevant, b.relevantAtoms = .ok relevant ∧
      (∀ a, a ∈ relevant ↔ ∃ entry ∈ b.entries, a ∈ entry.2.leaves) ∧
      ∀ S T : AtomSet, (∀ a ∈ relevant, a ∈ S ↔ a ∈ T) →
        (∃ now, b.activeActions S = .ok now ∧ b.activeActions T = .ok now) ∧
        ∀ action, ∃ holds, b.isActive action S = .ok holds ∧ b.isActive action T = .ok holds := by
  refine ⟨?_, fun t S T => t.eval_congr S T, ?_⟩
  · intro t sound
    exact ⟨_, t.atoms_of_sound sound, AtomSet.mem_ofList t.leaves⟩
  · intro b sound
    obtain ⟨relevant, collected, members⟩ := Bindings.atomsAmong_of_sound b.entries sound
    have asked : b.relevantAtoms = .ok relevant := by
      rw [Bindings.relevantAtoms, collected]
      rfl
    refine ⟨relevant, asked, members, ?_⟩
    intro S T agree
    have leaves : ∀ entry ∈ b.entries, ∀ a ∈ entry.2.leaves, a ∈ S ↔ a ∈ T :=
      fun entry member a leaf => agree a ((members a).mpr ⟨entry, member, leaf⟩)
    have active (U : AtomSet) : b.activeActions U = .ok (Bindings.holding U b.entries) := by
      rw [Bindings.activeActions, Bindings.activeAmong_of_sound U b.entries sound]
      rfl
    constructor
    · refine ⟨Bindings.holding S b.entries, active S, ?_⟩
      rw [Bindings.holding_congr S T b.entries leaves]
      exact active T
    · intro action
      refine ⟨_, b.isActive_of_sound sound action S, ?_⟩
      rw [b.isActive_of_sound sound action T]
      cases bound : b.get? action with
      | none => rfl
      | some t =>
          have same := Chord.holds_congr S T t (leaves _ (Bindings.mem_of_get? bound))
          simp only [Option.any_some, same]

/-- Besides `A` and `B` the key `C` may be active or not. -/
theorem relevant_atoms_decide_two_keys :
    let t : Chord Value := .join .and (.atom (.key (.letter 0))) (.not (.atom (.key (.letter 1))))
    let b : Bindings String := ⟨false, [("fire", t)]⟩
    let S : AtomSet := .ofList [.key (.letter 0), .key (.letter 2)]
    let T : AtomSet := .ofList [.key (.letter 0)]
    t.Sound ∧ b.Sound ∧ S ≠ T ∧ t.eval S = t.eval T ∧
      ∃ now, b.activeActions S = .ok now ∧ b.activeActions T = .ok now ∧ now = ["fire"] := by
  intro t b S T
  have soundChord : t.Sound := ⟨trivial, trivial⟩
  have sound : b.Sound := by
    intro entry member
    cases List.mem_singleton.mp member
    exact soundChord
  obtain ⟨single, decides, all⟩ := relevant_atoms_decide (κ := String)
  obtain ⟨found, collected, leaves⟩ := single t soundChord
  obtain ⟨relevant, _, members, alike⟩ := all b sound
  have agree : ∀ a ∈ t.leaves, a ∈ S ↔ a ∈ T := by
    intro a member
    simp only [t, Chord.leaves, List.mem_append, List.mem_singleton] at member
    rcases member with rfl | rfl <;> decide
  refine ⟨soundChord, sound, by decide, ?_, ?_⟩
  · apply decides t S T
    intro other same a member
    rw [collected] at same
    cases same
    exact agree a ((leaves a).mp member)
  · obtain ⟨⟨now, here, there⟩, _⟩ := alike S T fun a member => by
      obtain ⟨entry, listed, leaf⟩ := (members a).mp member
      cases List.mem_singleton.mp listed
      exact agree a leaf
    have fires : b.activeActions S = .ok ["fire"] := by
      rw [Bindings.activeActions, Bindings.activeAmong_of_sound S b.entries sound]
      rfl
    rw [fires] at here
    cases here
    exact ⟨["fire"], fires, there, rfl⟩

end InputChords
