import Mathlib.Data.List.Nodup
import InputChords.Proofs.Edits
import InputChords.Proofs.Relevance
import InputChords.Proofs.Unwritable

/-! Chords with stray values in a table of bindings. A walk over the table fails exactly if there is
such a chord, on one end of the stray values of the first one; asking for an action looks at its own
chord alone. -/

namespace InputChords

variable {κ : Type}

namespace Chord

variable {σ : Type}

def strays : Chord σ → List σ
  | atom _ => []
  | not t => t.strays
  | join _ l r => l.strays ++ r.strays
  | stray v => [v]

theorem firstStray?_eq_head? (t : Chord σ) : t.firstStray? = t.strays.head? := by
  induction t with
  | atom a => rfl
  | not t ih => exact ih
  | join c l r left right => rw [firstStray?, strays, List.head?_append, left, right]
  | stray v => rfl

theorem lastStray?_eq_getLast? (t : Chord σ) : t.lastStray? = t.strays.getLast? := by
  induction t with
  | atom a => rfl
  | not t ih => exact ih
  | join c l r left right => rw [lastStray?, strays, List.getLast?_append, left, right]
  | stray v => rfl

theorem sound_iff_strays (t : Chord σ) : t.Sound ↔ t.strays = [] := by
  rw [← firstStray?_eq_none_iff, firstStray?_eq_head?, List.head?_eq_none_iff]

end Chord

namespace Value

inductive Obstacle where
  | stray (v : Value)
  | unwritable

mutual

def obstacle? : Value → Option Obstacle
  | number (.whole n) => if Decimal.Writable n then none else some .unwritable
  | list items => obstacleAmong? items
  | dict entries => obstacleInEntries? entries
  | tree t => obstacleInChord? t
  | _ => none

def obstacleAmong? : List Value → Option Obstacle
  | [] => none
  | v :: rest => v.obstacle?.or (obstacleAmong? rest)

def obstacleInEntries? : List (String × Value) → Option Obstacle
  | [] => none
  | (_, v) :: rest => v.obstacle?.or (obstacleInEntries? rest)

/-- A stray value may itself hold what cannot be inspected. -/
def obstacleInChord? : Chord Value → Option Obstacle
  | .atom _ => none
  | .not t => obstacleInChord? t
  | .join _ l r => (obstacleInChord? l).or (obstacleInChord? r)
  | .stray v => some (v.obstacle?.getD (.stray v))

end

end Value

def Fault.Meets (fault : Fault) : Value.Obstacle → Prop
  | .stray v => ∃ text, v.described = .ok text ∧ fault = .notAChord text
  | .unwritable => fault = .wholeNotWritable

/-- The fault of a walk that meets the value where a chord belongs: it cites the value, unless the
value cannot be inspected. -/
def Fault.Names (fault : Fault) (v : Value) : Prop := fault.Meets (v.obstacle?.getD (.stray v))

namespace Value

def Inspects {α : Type} (outcome : Except Fault α) : Option Obstacle → Prop
  | none => ∃ x, outcome = .ok x
  | some obstacle => ∃ fault, outcome = .error fault ∧ fault.Meets obstacle

theorem Inspects.map {α β : Type} (f : α → β) {outcome : Except Fault α}
    {obstacle : Option Obstacle} (one : Inspects outcome obstacle) :
    Inspects (do return f (← outcome)) obstacle := by
  cases obstacle with
  | none =>
      obtain ⟨x, done⟩ := one
      exact ⟨f x, by rw [done]; rfl⟩
  | some obstacle =>
      obtain ⟨fault, failed, meets⟩ := one
      exact ⟨fault, by rw [failed]; rfl, meets⟩

theorem Inspects.both {α β γ : Type} (f : α → β → γ) {first : Except Fault α}
    {second : Except Fault β} {obstacle other : Option Obstacle} (one : Inspects first obstacle)
    (two : Inspects second other) :
    Inspects (do return f (← first) (← second)) (obstacle.or other) := by
  cases obstacle with
  | none =>
      obtain ⟨x, done⟩ := one
      have rest := two.map (f x)
      rw [done]
      exact rest
  | some obstacle =>
      obtain ⟨fault, failed, meets⟩ := one
      exact ⟨fault, by rw [failed]; rfl, meets⟩

theorem inspects_written (n : Int) :
    Inspects (written n) (if Decimal.Writable n then none else some .unwritable) := by
  rw [written]
  by_cases writable : Decimal.Writable n
  · rw [if_pos writable, (Decimal.Whole.of?_eq_some_iff n ⟨n, writable⟩).mpr rfl]
    exact ⟨_, rfl⟩
  · rw [if_neg writable, (Decimal.Whole.of?_eq_none_iff n).mpr writable]
    exact ⟨_, rfl, rfl⟩

theorem names_of_inspects (v : Value) (inspected : Inspects v.described v.obstacle?) :
    (v.blame .notAChord).Names v := by
  rw [Fault.Names]
  cases known : v.obstacle? with
  | none =>
      rw [known] at inspected
      obtain ⟨text, done⟩ := inspected
      exact ⟨text, done, by rw [blame, done]⟩
  | some obstacle =>
      rw [known] at inspected
      obtain ⟨fault, failed, meets⟩ := inspected
      rwa [blame, failed]

theorem describedChord_stray (v : Value) :
    describedChord (.stray v) = .error (v.blame .notAChord) := by
  rw [describedChord, blame]
  cases v.described <;> rfl

mutual

theorem inspects_described (v : Value) : Inspects v.described v.obstacle? := by
  match v with
  | null | bool _ | number (.real _) | text _ | bytes _ | atom _ =>
      exact ⟨_, by rw [described]⟩
  | number (.whole n) =>
      rw [described, obstacle?]
      exact (inspects_written n).map _
  | list items =>
      rw [described, obstacle?]
      exact (inspects_list items).map _
  | dict entries =>
      rw [described, obstacle?]
      exact (inspects_entries entries).map _
  | tree t =>
      rw [described, obstacle?]
      exact inspects_chord t

theorem inspects_list (items : List Value) :
    Inspects (describedList items) (obstacleAmong? items) := by
  match items with
  | [] => exact ⟨[], by rw [describedList]⟩
  | v :: rest =>
      rw [describedList, obstacleAmong?]
      exact (inspects_described v).both _ (inspects_list rest)

theorem inspects_entries (entries : List (String × Value)) :
    Inspects (describedEntries entries) (obstacleInEntries? entries) := by
  match entries with
  | [] => exact ⟨[], by rw [describedEntries]⟩
  | (key, v) :: rest =>
      rw [describedEntries, obstacleInEntries?]
      exact (inspects_described v).both _ (inspects_entries rest)

theorem inspects_chord (t : Chord Value) : Inspects (describedChord t) (obstacleInChord? t) := by
  match t with
  | .atom a => exact ⟨_, by rw [describedChord]⟩
  | .not t =>
      rw [describedChord, obstacleInChord?]
      exact (inspects_chord t).map _
  | .join .and l r =>
      rw [describedChord, obstacleInChord?]
      exact (inspects_chord l).both _ (inspects_chord r)
  | .join .or l r =>
      rw [describedChord, obstacleInChord?]
      exact (inspects_chord l).both _ (inspects_chord r)
  | .stray v =>
      rw [obstacleInChord?, describedChord_stray]
      exact ⟨_, rfl, names_of_inspects v (inspects_described v)⟩

end

theorem names_blame (v : Value) : (v.blame .notAChord).Names v :=
  names_of_inspects v v.inspects_described

end Value

namespace Bindings

section Reachability

variable [DecidableEq κ]

def Edited (b : Bindings κ) (edits : List (Edit κ)) : Prop :=
  ∃ trace, b = edits.foldl edited (.empty trace)

theorem Edited.snoc {b : Bindings κ} {edits : List (Edit κ)} (made : b.Edited edits) (e : Edit κ) :
    (b.edited e).Edited (edits ++ [e]) := by
  obtain ⟨trace, same⟩ := made
  refine ⟨trace, ?_⟩
  rw [List.foldl_append, ← same]
  rfl

theorem isActive_eq (b : Bindings κ) (action : κ) (active : AtomSet) (t : Chord Value)
    (bound : b.get? action = some t) :
    b.isActive action active =
      match t.strays.head? with
      | none => .ok (t.holds active)
      | some v => .error (v.blame .notAChord) := by
  rw [isActive, bound, ← Chord.firstStray?_eq_head?]
  show Value.sound (t.eval active) = _
  rw [t.eval_eq]
  cases t.firstStray? <;> rfl

variable [Quotable κ]

/-- The tables that operations lead to from an empty one. An operation that fails changes
nothing. -/
inductive Reachable : Bindings κ → Prop
  | empty (trace : Bool) : Reachable (.empty trace)
  | bind {b c : Bindings κ} {action : κ} {expression : Value} {t : Option (Chord Value)}
      (before : Reachable b) (done : (b.bind action expression).outcome = .ok (c, t)) : Reachable c
  | bindChord {b c : Bindings κ} {action : κ} {chord : Value}
      (before : Reachable b) (done : (b.bindChord action chord).outcome = .ok (c, ())) : Reachable c
  | unbind {b c : Bindings κ} {action : κ}
      (before : Reachable b) (done : (b.unbind action).outcome = .ok (c, ())) : Reachable c

theorem Reachable.exists_edits {b : Bindings κ} (reachable : b.Reachable) :
    ∃ edits, b.Edited edits := by
  induction reachable with
  | empty trace => exact ⟨[], trace, rfl⟩
  | bind before done ih =>
      obtain ⟨edits, made⟩ := ih
      rw [bind_outcome] at done
      obtain ⟨t, _, same⟩ := map_eq_ok done
      cases same
      exact ⟨_, made.snoc _⟩
  | bindChord before done ih =>
      obtain ⟨edits, made⟩ := ih
      rw [bindChord_outcome] at done
      obtain ⟨t, _, same⟩ := map_eq_ok done
      cases same
      exact ⟨_, made.snoc _⟩
  | @unbind b c action before done ih =>
      obtain ⟨edits, made⟩ := ih
      rw [unbind_outcome] at done
      cases done
      exact ⟨_, made.snoc (.unbind action)⟩

theorem Reachable.actions_nodup {b : Bindings κ} (reachable : b.Reachable) : b.actions.Nodup := by
  obtain ⟨edits, trace, made⟩ := reachable.exists_edits
  rw [made]
  exact (Recounts.foldl trace edits).distinct

theorem get?_eq_some_iff {b : Bindings κ} (reachable : b.Reachable) (action : κ) (t : Chord Value) :
    b.get? action = some t ↔ (action, t) ∈ b.entries :=
  ⟨mem_of_get?, lookup_of_mem b.entries reachable.actions_nodup action t⟩

theorem mem_holding_iff {b : Bindings κ} (reachable : b.Reachable) (action : κ) (active : AtomSet)
    (sound : b.Sound) :
    action ∈ holding active b.entries ↔ b.isActive action active = .ok true := by
  have listed : action ∈ holding active b.entries ↔
      ∃ t, (action, t) ∈ b.entries ∧ t.holds active = true := by
    simp [holding, Named.names]
  rw [listed, b.isActive_of_sound sound]
  simp only [← get?_eq_some_iff reachable, Except.ok.injEq, Option.any_eq_true]

end Reachability

section Walks

/-- The first chord of a table that has stray values, in the order of the bindings. -/
structure FirstIllFormed (b : Bindings κ) (t : Chord Value) : Prop where
  split : ∃ before action after, b.entries = before ++ (action, t) :: after ∧
    ∀ entry ∈ before, entry.2.Sound
  ill : ¬ t.Sound

theorem exists_firstIllFormed (b : Bindings κ) (ill : ¬ b.Sound) : ∃ t, b.FirstIllFormed t := by
  have found : (b.entries.find? (·.2.firstStray?.isSome)).isSome := by
    by_contra none
    rw [List.find?_isSome] at none
    push Not at none
    refine ill fun entry member => (Chord.firstStray?_eq_none_iff _).mp ?_
    simpa using none entry member
  obtain ⟨⟨action, t⟩, here⟩ := Option.isSome_iff_exists.mp found
  obtain ⟨stray, before, after, split, silent⟩ := List.find?_eq_some_iff_append.mp here
  refine ⟨t, ⟨before, action, after, split, ?_⟩, ?_⟩
  · intro entry member
    rw [← Chord.firstStray?_eq_none_iff]
    simpa using silent entry member
  · intro sound
    rw [(Chord.firstStray?_eq_none_iff t).mpr sound] at stray
    cases stray

variable {b : Bindings κ} {t : Chord Value} {v : Value}

theorem FirstIllFormed.findSome? (first : b.FirstIllFormed t) (search : Chord Value → Option Value)
    (silent : ∀ u, u.Sound → search u = none) (found : search t = some v) :
    (b.entries.findSome? fun entry => search entry.2) = some v := by
  obtain ⟨⟨before, action, after, split, sound⟩, _⟩ := first
  have nothing : (before.findSome? fun entry => search entry.2) = none := by
    rw [List.findSome?_eq_none_iff]
    exact fun entry member => silent _ (sound entry member)
  rw [split, List.findSome?_append, nothing, Option.none_or, List.findSome?_cons, found]

/-- The walk that evaluates comes from the left, and the one that collects atoms from the right. -/
theorem FirstIllFormed.walks (ill : b.FirstIllFormed t) (active : AtomSet) : ∃ first last,
    t.strays.head? = some first ∧ t.strays.getLast? = some last ∧
    b.activeActions active = .error (first.blame .notAChord) ∧
    b.relevantAtoms = .error (last.blame .notAChord) := by
  have filled : t.strays ≠ [] := fun none => ill.ill (t.sound_iff_strays.mpr none)
  have leftmost := List.head?_eq_some_head filled
  have rightmost := List.getLast?_eq_some_getLast filled
  refine ⟨_, _, leftmost, rightmost, ?_, ?_⟩
  · rw [← Chord.firstStray?_eq_head?] at leftmost
    rw [activeActions, activeAmong_eq,
      ill.findSome? _ (fun u => (Chord.firstStray?_eq_none_iff u).mpr) leftmost]
    rfl
  · rw [← Chord.lastStray?_eq_getLast?] at rightmost
    rw [relevantAtoms, atomsAmong_eq,
      ill.findSome? _ (fun u => (Chord.lastStray?_eq_none_iff u).mpr) rightmost]
    rfl

theorem activeActions_of_sound (sound : b.Sound) (active : AtomSet) :
    b.activeActions active = .ok (holding active b.entries) := by
  rw [activeActions, activeAmong_of_sound active b.entries sound]
  rfl

theorem relevantAtoms_of_sound (sound : b.Sound) : ∃ relevant, b.relevantAtoms = .ok relevant := by
  obtain ⟨relevant, collected, _⟩ := atomsAmong_of_sound b.entries sound
  refine ⟨relevant, ?_⟩
  rw [relevantAtoms, collected]
  rfl

theorem fails_iff {α : Type} {outcome : Except Fault α}
    (fails : ∀ t, b.FirstIllFormed t → ∃ v : Value, outcome = .error (v.blame .notAChord))
    (succeeds : b.Sound → ∃ x, outcome = .ok x) :
    (∃ fault, outcome = .error fault) ↔ ¬ b.Sound := by
  constructor
  · rintro ⟨fault, failed⟩ sound
    obtain ⟨x, done⟩ := succeeds sound
    rw [done] at failed
    cases failed
  · intro ill
    obtain ⟨t, first⟩ := b.exists_firstIllFormed ill
    obtain ⟨v, failed⟩ := fails t first
    exact ⟨_, failed⟩

end Walks

end Bindings

/-- A walk over a table fails exactly if some chord has a stray value, and names the leftmost or the
rightmost one of the first such chord. Without stray values the active actions are those whose
chords hold. Whether an action is active does not depend on the other chords. -/
theorem table_evaluated [DecidableEq κ] [Quotable κ] (b : Bindings κ) (reachable : b.Reachable)
    (active : AtomSet) :
    ((∃ fault, b.activeActions active = .error fault) ↔ ¬ b.Sound) ∧
    ((∃ fault, b.relevantAtoms = .error fault) ↔ ¬ b.Sound) ∧
    (∀ t, b.FirstIllFormed t → ∃ first last,
      t.strays.head? = some first ∧ t.strays.getLast? = some last ∧
      (∃ fault, b.activeActions active = .error fault ∧ fault.Names first) ∧
      ∃ fault, b.relevantAtoms = .error fault ∧ fault.Names last) ∧
    (b.Sound → ∃ now relevant, b.activeActions active = .ok now ∧
      b.relevantAtoms = .ok relevant ∧
      ∀ action, action ∈ now ↔ b.isActive action active = .ok true) ∧
    ∀ action,
      (b.get? action = none → b.isActive action active = .ok false) ∧
      ∀ t, b.get? action = some t →
        (t.Sound → b.isActive action active = .ok (t.holds active)) ∧
        ∀ first, t.strays.head? = some first →
          ∃ fault, b.isActive action active = .error fault ∧ fault.Names first := by
  refine ⟨?_, ?_, ?_, ?_, ?_⟩
  · apply Bindings.fails_iff
    · intro t ill
      obtain ⟨first, _, _, _, failed, _⟩ := ill.walks active
      exact ⟨first, failed⟩
    · exact fun sound => ⟨_, Bindings.activeActions_of_sound sound active⟩
  · apply Bindings.fails_iff
    · intro t ill
      obtain ⟨_, last, _, _, _, failed⟩ := ill.walks active
      exact ⟨last, failed⟩
    · exact Bindings.relevantAtoms_of_sound
  · intro t ill
    obtain ⟨first, last, leftmost, rightmost, evaluated, collected⟩ := ill.walks active
    exact ⟨first, last, leftmost, rightmost, ⟨_, evaluated, Value.names_blame first⟩,
      ⟨_, collected, Value.names_blame last⟩⟩
  · intro sound
    obtain ⟨relevant, collected⟩ := Bindings.relevantAtoms_of_sound sound
    exact ⟨_, relevant, Bindings.activeActions_of_sound sound active, collected,
      fun action => Bindings.mem_holding_iff reachable action active sound⟩
  · intro action
    constructor
    · intro unbound
      rw [Bindings.isActive, unbound]
    · intro t bound
      have asked := b.isActive_eq action active t bound
      constructor
      · intro sound
        rw [asked, t.sound_iff_strays.mp sound]
        rfl
      · intro first leftmost
        rw [asked, leftmost]
        exact ⟨_, rfl, Value.names_blame first⟩

/-- Of two stray values each walk names another one, and the action beside them is active all the
same. -/
theorem table_evaluated_two_strays :
    let ill : Chord Value := .join .or (.not (.stray (.text "x"))) (.stray (.text "y"))
    let b : Bindings String := ⟨false, [("fire", ill), ("jump", .atom (.key (.letter 0)))]⟩
    let active : AtomSet := .ofList [.key (.letter 0)]
    b.Reachable ∧ b.activeActions active = .error (.notAChord "'x'") ∧
      b.relevantAtoms = .error (.notAChord "'y'") ∧ b.isActive "jump" active = .ok true := by
  intro ill b active
  have fire : (Bindings.bindChord (.empty false) "fire" (.tree ill)).outcome =
      .ok (⟨false, [("fire", ill)]⟩, ()) := rfl
  have jump : (Bindings.bindChord ⟨false, [("fire", ill)]⟩ "jump"
      (.tree (.atom (.key (.letter 0))))).outcome = .ok (b, ()) := rfl
  have reachable : b.Reachable := .bindChord (.bindChord (.empty false) fire) jump
  have first : b.FirstIllFormed ill :=
    ⟨⟨[], "fire", _, rfl, fun _ member => absurd member List.not_mem_nil⟩, fun sound => sound.1⟩
  obtain ⟨_, _, names, _, each⟩ := table_evaluated b reachable active
  obtain ⟨v, w, leftmost, rightmost, ⟨left, evaluated, namesX⟩, right, collected, namesY⟩ :=
    names ill first
  have x_first : v = .text "x" := (Option.some.inj leftmost).symm
  have y_last : w = .text "y" := (Option.some.inj rightmost).symm
  subst x_first y_last
  obtain ⟨textX, quotedX, rfl⟩ := namesX
  obtain ⟨textY, quotedY, rfl⟩ := namesY
  have citedX : (Value.text "x").described = .ok "'x'" := by rfl
  have citedY : (Value.text "y").described = .ok "'y'" := by rfl
  rw [citedX] at quotedX
  rw [citedY] at quotedY
  cases quotedX
  cases quotedY
  refine ⟨reachable, evaluated, collected, ?_⟩
  rw [((each "jump").2 _ rfl).1 trivial]
  rfl

/-- A list that holds an ill-formed chord cannot be inspected, so the fault is about what is stray
in that chord, and not about the list; nor can a number that is too long, and the fault is about its
length. -/
theorem stray_list_not_named :
    let outer : Value := .list [.tree (.not (.stray (.text "x")))]
    let long : Value := .whole (10 ^ Decimal.wholeDigitLimit)
    let b : Bindings String := ⟨false, [("fire", .not (.stray outer))]⟩
    let c : Bindings String := ⟨false, [("fire", .not (.stray long))]⟩
    b.Reachable ∧ (Chord.not (.stray outer)).strays = [outer] ∧
      (∀ active, b.activeActions active = .error (.notAChord "'x'") ∧
        ¬ ∃ text, outer.described = .ok text ∧
          b.activeActions active = .error (.notAChord text)) ∧
      c.Reachable ∧ (Chord.not (.stray long)).strays = [long] ∧
      ∀ active, c.activeActions active = .error .wholeNotWritable := by
  intro outer long b c
  have bound (v : Value) :
      (Bindings.bindChord (.empty false) "fire" (.tree (.not (.stray v)))).outcome =
      .ok (⟨false, [("fire", .not (.stray v))]⟩, ()) := rfl
  have first (v : Value) : Bindings.FirstIllFormed ⟨false, [("fire", .not (.stray v))]⟩
      (.not (.stray v)) :=
    ⟨⟨[], "fire", [], rfl, fun _ member => absurd member List.not_mem_nil⟩, fun sound => sound⟩
  have unreadable : outer.described = .error (.notAChord "'x'") := by rfl
  have unwritable : long.described = .error .wholeNotWritable :=
    Value.described_unwritable Decimal.power_not_writable
  refine ⟨.bindChord (.empty false) (bound outer), rfl, ?_, .bindChord (.empty false) (bound long),
    rfl, ?_⟩
  · intro active
    constructor
    · obtain ⟨_, _, leftmost, _, failed, _⟩ := (first outer).walks active
      cases leftmost
      rw [failed, Value.blame, unreadable]
    · rintro ⟨text, described, _⟩
      rw [unreadable] at described
      cases described
  · intro active
    obtain ⟨_, _, leftmost, _, failed, _⟩ := (first long).walks active
    cases leftmost
    rw [failed, Value.blame, unwritable]

end InputChords
