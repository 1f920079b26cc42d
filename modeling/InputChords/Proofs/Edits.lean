import InputChords.Proofs.ActionEdges
import InputChords.Proofs.Deed

/-! Edits of a table of bindings. The table is an account of the edits that were made in it: each
action has the chord that was bound last and not removed since, and the actions stand in the order
in which they came to be bound. -/

namespace InputChords

variable {κ : Type}

namespace Named

variable {β : Type} [DecidableEq κ]

theorem erase_of_absent (xs : Named κ β) (name : κ) (absent : get? xs name = none) :
    erase xs name = xs := by
  rw [erase, List.filter_eq_self]
  intro entry member
  have other : name ≠ entry.1 := by
    simpa using List.lookup_eq_none_iff.mp absent entry member
  simpa using other.symm

theorem mem_names (xs : Named κ β) (name : κ) :
    name ∈ names xs ↔ ∃ x, get? xs name = some x := by
  induction xs with
  | nil => simp [names, get?]
  | cons entry rest ih =>
      obtain ⟨key, value⟩ := entry
      rw [names] at ih ⊢
      rw [List.map_cons, List.mem_cons, ih, get?_cons]
      by_cases same : name = key
      · simp [same]
      · simp [same]

theorem names_erase (xs : Named κ β) (name : κ) :
    names (erase xs name) = (names xs).filter (· != name) := by
  rw [names, names, erase, List.filter_map]
  rfl

end Named

inductive Edit (κ : Type) where
  | bind (action : κ) (expression : Value)
  | bindChord (action : κ) (chord : Value)
  | unbind (action : κ)

namespace Edit

def action : Edit κ → κ
  | bind action _ | bindChord action _ | unbind action => action

def occurrence : Edit κ → Occurrence κ
  | bind action expression => .bind action expression
  | bindChord action chord => .bindChord action chord
  | unbind action => .unbind action

def act [DecidableEq κ] [Quotable κ] (e : Edit κ) : Act κ Unit := e.occurrence.act

/-- The chord that an edit binds, none if it removes the binding, or what is wrong with what was
handed in. Only texts are expressions, and only values with a node at the root are chords. -/
def outcome : Edit κ → Except Fault (Option (Chord Value))
  | bind _ (.text expression) => (parse expression).mapError .compile
  | bind _ v => .error (.notAnExpression v.kindName)
  | bindChord _ (.tree (.stray v)) => .error (.notATree v.kindName)
  | bindChord _ (.tree t) => .ok (some t)
  | bindChord _ v => .error (.notATree v.kindName)
  | unbind _ => .ok none

def Binds (e : Edit κ) (a : κ) (t : Chord Value) : Prop :=
  e.action = a ∧ e.outcome = .ok (some t)

/-- An expression without a chord removes a binding as well. -/
def Removes (e : Edit κ) (a : κ) : Prop := e.action = a ∧ e.outcome = .ok none

end Edit

namespace Bindings

variable [DecidableEq κ]

theorem mem_actions (b : Bindings κ) (a : κ) : a ∈ b.actions ↔ ∃ t, b.get? a = some t :=
  Named.mem_names b.entries a

def edited (b : Bindings κ) (e : Edit κ) : Bindings κ :=
  match e.outcome with
  | .ok (some t) => b.put e.action t
  | .ok none => b.erase e.action
  | .error _ => b

theorem unbind_outcome [Quotable κ] (b : Bindings κ) (action : κ) :
    (b.unbind action).outcome = .ok (b.erase action, ()) := by
  rw [unbind]
  by_cases bound : b.contains action = true
  · rw [if_pos bound]
  · have absent : b.entries.get? action = none := by
      rw [contains, Bool.not_eq_true, Option.isSome_eq_false_iff,
        Option.isNone_iff_eq_none] at bound
      exact bound
    have kept : b.erase action = b := by rw [erase, Named.erase_of_absent _ _ absent]
    rw [if_neg bound, kept]

theorem bind_outcome [Quotable κ] (b : Bindings κ) (action : κ) (v : Value) :
    (b.bind action v).outcome =
      (Edit.bind action v).outcome.map fun t => (b.edited (.bind action v), t) := by
  have compiled : (Compilation.ofValue b.trace v).outcome = (Edit.bind action v).outcome := by
    cases v with
    | text expression =>
        show (Parsing.run b.trace expression).outcome.mapError _ = (parse expression).mapError _
        rw [Parsing.run_outcome]
    | _ => rfl
  rw [bind, compiled, edited]
  cases (Edit.bind action v).outcome with
  | error fault => rfl
  | ok known =>
      cases known with
      | some t => rfl
      | none =>
          show (b.unbind action).outcome.map _ = _
          rw [unbind_outcome]
          rfl

theorem bindChord_outcome (b : Bindings κ) (action : κ) (v : Value) :
    (b.bindChord action v).outcome =
      (Edit.bindChord action v).outcome.map fun _ => (b.edited (.bindChord action v), ()) := by
  cases v with
  | tree t => cases t <;> rfl
  | _ => rfl

end Bindings

namespace Act

variable {α : Type}

theorem effect_stepOn (operation : String) (step : Bindings κ → Bindings.Step κ α) (s : Session κ)
    (b : Bindings κ) (attached : s.tracker.bindings = some b) :
    (bindings operation >>= fun b => stepOn (step b)).effect s =
      match (step b).outcome with
      | .ok (c, x) => (.ok x, { s.tracker with bindings := some c })
      | .error fault => (.error fault, s.tracker) := by
  have found : (bindings operation).effect s = (.ok b, s.tracker) := by
    rw [bindings, effect, get_bind, attached]
    rfl
  refine effect_bind_ok found fun left tracker => ?_
  rw [← tracker, stepOn]
  cases (step b).outcome <;> rfl

theorem effect_discard (act : Act κ α) (s : Session κ) :
    (do let _ ← act : Act κ Unit).effect s =
      ((act.effect s).1.map fun _ => (), (act.effect s).2) := by
  rw [effect_bind, effect]
  cases act s <;> rfl

end Act

theorem Edit.effect_act [DecidableEq κ] [Quotable κ] (e : Edit κ) (s : Session κ) (b : Bindings κ)
    (attached : s.tracker.bindings = some b) :
    e.act.effect s =
      (e.outcome.map fun _ => (), { s.tracker with bindings := some (b.edited e) }) := by
  have unchanged : { s.tracker with bindings := some b } = s.tracker := by rw [← attached]
  cases e with
  | bind action v =>
      have step := Act.effect_stepOn "bind" (·.bind action v) s b attached
      rw [Bindings.bind_outcome] at step
      have whole : (Edit.bind action v).act = (do let _ ← Act.bind action v) := rfl
      rw [whole, Act.effect_discard, Act.bind, step]
      cases outcome : (Edit.bind action v).outcome with
      | ok done => rfl
      | error fault =>
          rw [Bindings.edited, outcome]
          exact Prod.ext rfl unchanged.symm
  | bindChord action v =>
      refine (Act.effect_stepOn _ _ s b attached).trans ?_
      rw [Bindings.bindChord_outcome]
      cases outcome : (Edit.bindChord action v).outcome with
      | ok done => rfl
      | error fault =>
          rw [Bindings.edited, outcome]
          exact Prod.ext rfl unchanged.symm
  | unbind action =>
      refine (Act.effect_stepOn _ _ s b attached).trans ?_
      rw [Bindings.unbind_outcome]
      rfl

theorem tracker_afterAll_edits [DecidableEq κ] [Quotable κ] (edits : List (Edit κ)) (s : Session κ)
    (b : Bindings κ) (attached : s.tracker.bindings = some b) :
    (afterAll (edits.map Edit.act) s).tracker =
      { s.tracker with bindings := some (edits.foldl Bindings.edited b) } := by
  induction edits generalizing s b with
  | nil =>
      show s.tracker = { s.tracker with bindings := some b }
      rw [← attached]
  | cons e rest ih =>
      have here : (e.act.after s).tracker = { s.tracker with bindings := some (b.edited e) } := by
        rw [Act.tracker_after, e.effect_act s b attached]
      have next : (e.act.after s).tracker.bindings = some (b.edited e) := by rw [here]
      refine (ih (e.act.after s) (b.edited e) next).trans ?_
      rw [here]
      rfl

/-! What was done before, read off the list of all edits. -/

namespace Edit

/-- Some edit is the `first` one after those before it, and all edits after it are `later` ones. -/
def Since (first : List (Edit κ) → Edit κ → Prop) (later : Edit κ → Prop) (edits : List (Edit κ)) :
    Prop :=
  ∃ before e after, edits = before ++ e :: after ∧ first before e ∧ ∀ other ∈ after, later other

def LastBinds (a : κ) (t : Chord Value) : List (Edit κ) → Prop :=
  Since (fun _ e => e.Binds a t) fun e => ¬ e.Removes a ∧ ∀ u, ¬ e.Binds a u

/-- The edit at this place bound the action when it was not bound, and it was not removed since. -/
def Founds (i : Nat) (a : κ) : List (Edit κ) → Prop :=
  Since (fun before e => before.length = i ∧ (∃ t, e.Binds a t) ∧ ¬ ∃ t, LastBinds a t before)
    fun e => ¬ e.Removes a

theorem since_snoc {first : List (Edit κ) → Edit κ → Prop} {later : Edit κ → Prop}
    (edits : List (Edit κ)) (e : Edit κ) : Since first later (edits ++ [e]) ↔
      first edits e ∨ Since first later edits ∧ later e := by
  constructor
  · rintro ⟨before, x, after, split, here, rest⟩
    rcases List.eq_nil_or_concat' after with rfl | ⟨init, last, rfl⟩
    · obtain ⟨rfl, same⟩ := List.append_inj' split rfl
      cases same
      exact .inl here
    · rw [← List.cons_append, ← List.append_assoc] at split
      obtain ⟨rfl, same⟩ := List.append_inj' split rfl
      cases same
      exact .inr ⟨⟨before, x, init, rfl, here, fun other member => rest other (by simp [member])⟩,
        rest e (by simp)⟩
  · rintro (here | ⟨⟨before, x, after, rfl, here, rest⟩, last⟩)
    · exact ⟨edits, e, [], rfl, here, by simp⟩
    · refine ⟨before, x, after ++ [e], by simp, here, ?_⟩
      intro other member
      rcases List.mem_append.mp member with member | member
      · exact rest other member
      · rw [List.mem_singleton.mp member]
        exact last

theorem not_since_nil {first : List (Edit κ) → Edit κ → Prop} {later : Edit κ → Prop} :
    ¬ Since first later [] := by
  rintro ⟨before, x, after, split, _⟩
  simp at split

theorem Founds.bound {i : Nat} {a : κ} {edits : List (Edit κ)} (founds : Founds i a edits) :
    ∃ t, LastBinds a t edits := by
  induction edits using List.reverseRecOn with
  | nil => exact absurd founds not_since_nil
  | append_singleton edits e ih =>
      simp only [LastBinds, since_snoc]
      by_cases here : ∃ t, e.Binds a t
      · obtain ⟨t, binds⟩ := here
        exact ⟨t, .inl binds⟩
      · rcases since_snoc edits e |>.mp founds with ⟨_, binds, _⟩ | ⟨before, kept⟩
        · exact absurd binds here
        · obtain ⟨t, last⟩ := ih before
          exact ⟨t, .inr ⟨last, kept, fun u binds => here ⟨u, binds⟩⟩⟩

theorem Founds.lt_length {i : Nat} {a : κ} {edits : List (Edit κ)} (founds : Founds i a edits) :
    i < edits.length := by
  obtain ⟨before, x, after, rfl, ⟨rfl, _⟩, _⟩ := founds
  simp

end Edit

structure Bindings.Recounts [DecidableEq κ] (b : Bindings κ) (edits : List (Edit κ)) : Prop where
  chord : ∀ a t, b.get? a = some t ↔ Edit.LastBinds a t edits
  distinct : b.actions.Nodup
  founded : ∀ a ∈ b.actions, ∃ i, Edit.Founds i a edits
  ordered : b.actions.Pairwise fun a c =>
    ∀ i j, Edit.Founds i a edits → Edit.Founds j c edits → i < j

namespace Bindings.Recounts

variable [DecidableEq κ] {b : Bindings κ} {edits : List (Edit κ)}

theorem nil (trace : Bool) : (empty (κ := κ) trace).Recounts [] where
  chord _ _ := ⟨nofun, fun last => absurd last Edit.not_since_nil⟩
  distinct := .nil
  founded _ member := absurd member List.not_mem_nil
  ordered := .nil

theorem refused (recounts : b.Recounts edits) (e : Edit κ) (fault : Fault)
    (outcome : e.outcome = .error fault) : (b.edited e).Recounts (edits ++ [e]) := by
  have binds (a : κ) (t : Chord Value) : ¬ e.Binds a t := by simp [Edit.Binds, outcome]
  have removes (a : κ) : ¬ e.Removes a := by simp [Edit.Removes, outcome]
  have last (a : κ) (t : Chord Value) :
      Edit.LastBinds a t (edits ++ [e]) ↔ Edit.LastBinds a t edits := by
    rw [Edit.LastBinds, Edit.since_snoc]
    simp [binds, removes]
  have founds (i : Nat) (a : κ) :
      Edit.Founds i a (edits ++ [e]) ↔ Edit.Founds i a edits := by
    rw [Edit.Founds, Edit.since_snoc]
    simp [binds, removes]
  rw [edited, outcome]
  constructor
  · intro a t
    rw [last]
    exact recounts.chord a t
  · exact recounts.distinct
  · simpa only [founds] using recounts.founded
  · simpa only [founds] using recounts.ordered

theorem mem_actions_iff (recounts : b.Recounts edits) (a : κ) :
    a ∈ b.actions ↔ ∃ t, Edit.LastBinds a t edits := by
  rw [mem_actions]
  exact exists_congr (recounts.chord a)

section Put

variable {e : Edit κ} {t : Chord Value}

theorem chord_put (recounts : b.Recounts edits) (outcome : e.outcome = .ok (some t)) (a : κ)
    (u : Chord Value) :
    (b.put e.action t).get? a = some u ↔ Edit.LastBinds a u (edits ++ [e]) := by
  have binds (v : Chord Value) : e.Binds a v ↔ e.action = a ∧ t = v := by
    simp [Edit.Binds, outcome]
  have removes : ¬ e.Removes a := by simp [Edit.Removes, outcome]
  rw [get?_put, Edit.LastBinds, Edit.since_snoc, ← Edit.LastBinds, ← recounts.chord]
  simp only [binds]
  by_cases same : e.action = a
  · simp [same]
  · simp [removes, same, Ne.symm same]

theorem founds_put (recounts : b.Recounts edits) (outcome : e.outcome = .ok (some t)) (i : Nat)
    (a : κ) :
    Edit.Founds i a (edits ++ [e]) ↔
      (edits.length = i ∧ e.action = a ∧ a ∉ b.actions) ∨ Edit.Founds i a edits := by
  have binds : (∃ u, e.Binds a u) ↔ e.action = a := by simp [Edit.Binds, outcome]
  have removes : ¬ e.Removes a := by simp [Edit.Removes, outcome]
  rw [Edit.Founds, Edit.since_snoc, recounts.mem_actions_iff, binds, and_iff_left removes]

theorem founds_of_mem (recounts : b.Recounts edits) (outcome : e.outcome = .ok (some t)) (i : Nat)
    {a : κ} (member : a ∈ b.actions) :
    Edit.Founds i a (edits ++ [e]) ↔ Edit.Founds i a edits := by
  simp [recounts.founds_put outcome, member]

/-- The new place is behind all the others, for no edit before this one founded it. -/
theorem founds_of_not_mem (recounts : b.Recounts edits) (outcome : e.outcome = .ok (some t))
    (i : Nat) (free : e.action ∉ b.actions) :
    Edit.Founds i e.action (edits ++ [e]) ↔ edits.length = i := by
  have fresh : ¬ Edit.Founds i e.action edits := fun founded =>
    free ((recounts.mem_actions_iff _).mpr founded.bound)
  simp [recounts.founds_put outcome, free, fresh]

theorem founded_put (recounts : b.Recounts edits) (outcome : e.outcome = .ok (some t)) :
    ∀ a ∈ b.actions, ∃ i, Edit.Founds i a (edits ++ [e]) := by
  intro a member
  obtain ⟨i, founded⟩ := recounts.founded a member
  exact ⟨i, (recounts.founds_of_mem outcome i member).mpr founded⟩

theorem ordered_put (recounts : b.Recounts edits) (outcome : e.outcome = .ok (some t)) :
    b.actions.Pairwise fun a c => ∀ i j,
      Edit.Founds i a (edits ++ [e]) → Edit.Founds j c (edits ++ [e]) → i < j := by
  refine recounts.ordered.imp_of_mem ?_
  intro a c first second less i j
  rw [recounts.founds_of_mem outcome i first, recounts.founds_of_mem outcome j second]
  exact less i j

theorem put_bound (recounts : b.Recounts edits) (outcome : e.outcome = .ok (some t))
    (known : e.action ∈ b.actions) : (b.put e.action t).Recounts (edits ++ [e]) := by
  have actions : (b.put e.action t).actions = b.actions := by
    rw [Bindings.actions, Bindings.put, Named.names_put]
    exact if_pos known
  refine ⟨recounts.chord_put outcome, ?_, ?_, ?_⟩
  · rw [actions]
    exact recounts.distinct
  · rw [actions]
    exact recounts.founded_put outcome
  · rw [actions]
    exact recounts.ordered_put outcome

theorem put_free (recounts : b.Recounts edits) (outcome : e.outcome = .ok (some t))
    (free : e.action ∉ b.actions) : (b.put e.action t).Recounts (edits ++ [e]) := by
  have actions : (b.put e.action t).actions = b.actions ++ [e.action] := by
    rw [Bindings.actions, Bindings.put, Named.names_put]
    exact if_neg free
  refine ⟨recounts.chord_put outcome, ?_, ?_, ?_⟩
  · rw [actions, ← List.concat_eq_append]
    exact recounts.distinct.concat free
  · intro a member
    rw [actions, List.mem_append, List.mem_singleton] at member
    rcases member with member | rfl
    · exact recounts.founded_put outcome a member
    · exact ⟨edits.length, (recounts.founds_of_not_mem outcome _ free).mpr rfl⟩
  · rw [actions, List.pairwise_append]
    refine ⟨recounts.ordered_put outcome, List.pairwise_singleton _ _, ?_⟩
    intro a member c same i j first second
    rw [List.mem_singleton.mp same, recounts.founds_of_not_mem outcome j free] at second
    rw [recounts.founds_of_mem outcome i member] at first
    rw [← second]
    exact first.lt_length

end Put

theorem put (recounts : b.Recounts edits) (e : Edit κ) (t : Chord Value)
    (outcome : e.outcome = .ok (some t)) : (b.edited e).Recounts (edits ++ [e]) := by
  rw [edited, outcome]
  by_cases known : e.action ∈ b.actions
  · exact recounts.put_bound outcome known
  · exact recounts.put_free outcome known

theorem removed (recounts : b.Recounts edits) (e : Edit κ) (outcome : e.outcome = .ok none) :
    (b.edited e).Recounts (edits ++ [e]) := by
  have binds (a : κ) (t : Chord Value) : ¬ e.Binds a t := by simp [Edit.Binds, outcome]
  have removes (a : κ) : e.Removes a ↔ e.action = a := by simp [Edit.Removes, outcome]
  have last (a : κ) (t : Chord Value) : Edit.LastBinds a t (edits ++ [e]) ↔
      Edit.LastBinds a t edits ∧ e.action ≠ a := by
    rw [Edit.LastBinds, Edit.since_snoc]
    simp [binds, removes]
  have founds (i : Nat) (a : κ) : Edit.Founds i a (edits ++ [e]) ↔
      Edit.Founds i a edits ∧ e.action ≠ a := by
    rw [Edit.Founds, Edit.since_snoc]
    simp [binds, removes]
  have actions : (b.erase e.action).actions = b.actions.filter (· != e.action) :=
    Named.names_erase b.entries e.action
  have left : b.edited e = b.erase e.action := by rw [edited, outcome]
  rw [left]
  constructor
  · intro a t
    rw [get?_erase, last, ← recounts.chord]
    by_cases same : a = e.action
    · simp [same]
    · simp [same, Ne.symm same]
  · rw [actions]
    exact recounts.distinct.filter _
  · intro a member
    rw [actions, List.mem_filter, bne_iff_ne] at member
    obtain ⟨i, founded⟩ := recounts.founded a member.1
    exact ⟨i, (founds i a).mpr ⟨founded, member.2.symm⟩⟩
  · rw [actions]
    refine (recounts.ordered.filter _).imp ?_
    intro a c less i j first second
    exact less i j ((founds i a).mp first).1 ((founds j c).mp second).1

theorem snoc (recounts : b.Recounts edits) (e : Edit κ) : (b.edited e).Recounts (edits ++ [e]) := by
  cases outcome : e.outcome with
  | error fault => exact recounts.refused e fault outcome
  | ok known =>
      cases known with
      | none => exact recounts.removed e outcome
      | some t => exact recounts.put e t outcome

theorem foldl (trace : Bool) (edits : List (Edit κ)) :
    (edits.foldl edited (empty trace)).Recounts edits := by
  induction edits using List.reverseRecOn with
  | nil => exact nil trace
  | append_singleton edits e ih =>
      rw [List.foldl_append]
      exact ih.snoc e

end Bindings.Recounts

/-- A table in which edits were made, some of which may have been refused, has for each action the
chord that was bound last and not removed since. It lists the bound actions in the order in which
they came to be bound, and an edit that is refused leaves it as it is. -/
theorem bindings_recount [DecidableEq κ] [Quotable κ] (s : Session κ) (trace : Bool)
    (edits : List (Edit κ)) (fresh : s.tracker.bindings = some (.empty trace)) :
    let now := afterAll (edits.map Edit.act) s
    ∃ b, now.tracker.bindings = some b ∧ b.Recounts edits ∧
      (∀ a, (a ∈ b.actions ↔ ∃ t, b.get? a = some t) ∧ (b.contains a = true ↔ a ∈ b.actions)) ∧
      b.size = b.actions.length ∧
      ∀ e : Edit κ,
        (∀ done, e.outcome = .ok done → ∃ left, e.act now = .ok () left ∧
          left.tracker.bindings = some (b.edited e)) ∧
        ∀ fault, e.outcome = .error fault →
          ∃ left, e.act now = .error fault left ∧ left.tracker = now.tracker := by
  intro now
  have attached : now.tracker.bindings = some (edits.foldl Bindings.edited (.empty trace)) := by
    rw [tracker_afterAll_edits edits s _ fresh]
  refine ⟨_, attached, .foldl trace edits, ?_, ?_, ?_⟩
  · intro a
    refine ⟨Bindings.mem_actions _ a, ?_⟩
    rw [Bindings.mem_actions, Bindings.contains, Option.isSome_iff_exists]
  · exact (List.length_map ..).symm
  · intro e
    have both := e.effect_act now _ attached
    constructor
    · intro done outcome
      rw [outcome] at both
      obtain ⟨left, made, tracker⟩ := Act.effect_eq_ok.mp both
      exact ⟨left, made, by rw [tracker]⟩
    · intro fault outcome
      rw [outcome] at both
      obtain ⟨left, failed, tracker⟩ := Act.effect_eq_error.mp both
      refine ⟨left, failed, ?_⟩
      rw [tracker, Bindings.edited, outcome, ← attached]

/-- `fire` is bound first, then `jump`. `fire` is removed and bound again, a value that is no
expression is refused, and `jump` keeps its place when it is bound again. -/
theorem bindings_recount_rebound :
    let start : Session String := ⟨.start .standard (some (.empty false)), none⟩
    let key (n : Fin 26) : Value := .tree (.atom (.key (.letter n)))
    let edits : List (Edit String) := [.bindChord "fire" (key 0), .bindChord "jump" (key 1),
      .unbind "fire", .bindChord "fire" (key 2), .bind "fire" .null, .bindChord "jump" (key 3)]
    start.tracker.bindings = some (.empty false) ∧
    ∃ b, (afterAll (edits.map Edit.act) start).tracker.bindings = some b ∧
      b.actions = ["jump", "fire"] ∧ b.get? "fire" = some (.atom (.key (.letter 2))) ∧
      b.get? "jump" = some (.atom (.key (.letter 3))) ∧
      (∃ i j, i < j ∧ Edit.Founds i "jump" edits ∧ Edit.Founds j "fire" edits) ∧
      ∃ left, (Edit.bind "jump" .null).act (afterAll (edits.map Edit.act) start) =
        .error (.notAnExpression "NoneType") left ∧
          left.tracker = (afterAll (edits.map Edit.act) start).tracker := by
  intro start key edits
  obtain ⟨b, attached, recounts, _, _, later⟩ := bindings_recount start false edits rfl
  have table : b = ⟨false,
      [("jump", .atom (.key (.letter 3))), ("fire", .atom (.key (.letter 2)))]⟩ :=
    Option.some.inj (attached.symm.trans rfl)
  have listed : b.actions = ["jump", "fire"] := by
    rw [table]
    rfl
  obtain ⟨i, first⟩ := recounts.founded "jump" (by simp [listed])
  obtain ⟨j, second⟩ := recounts.founded "fire" (by simp [listed])
  have less : i < j := by
    have ordered := recounts.ordered
    rw [listed, List.pairwise_pair] at ordered
    exact ordered i j first second
  refine ⟨rfl, b, attached, listed, ?_, ?_, ⟨i, j, less, first, second⟩, ?_⟩
  · rw [table]
    rfl
  · rw [table]
    rfl
  · exact (later (.bind "jump" .null)).2 _ rfl

end InputChords
