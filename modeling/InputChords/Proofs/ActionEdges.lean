import Mathlib.Data.List.Chain
import InputChords.Proofs.Change
import InputChords.Proofs.Derivation
import InputChords.Proofs.Frames

/-! Runs of a tracker as the reports that its snapshots make about actions. A report tells what
began and what ceased to hold since the last report with bindings, which need not be the report
before. -/

namespace InputChords

variable {κ : Type}

/-- What may happen to a tracker between snapshots: operations, events of a canvas, callbacks of a
window, and edits of the bindings that are attached. -/
inductive Occurrence (κ : Type) where
  | operation (o : Operation κ)
  | bind (action : κ) (expression : Value)
  | bindChord (action : κ) (chord : Value)
  | unbind (action : κ)
  | canvas (canvas : Canvas) (name : String) (event : CanvasEvent)
  | windowKey (backend : Backend) (key scancode action : Value)
  | windowButton (backend : Backend) (button action : Value)
  | windowPosition (x y : Value)
  | windowScroll (dx dy : Value)
  | windowFocus (focused : Value)

inductive Moment (κ : Type) where
  | occur (o : Occurrence κ)
  | snapshot (frame : Int)

namespace Occurrence

def act [DecidableEq κ] [Quotable κ] : Occurrence κ → Act κ Unit
  | operation o => o.act
  | bind action expression => do let _ ← Act.bind action expression
  | bindChord action chord => do Act.stepOn ((← Act.bindings "bind_tree").bindChord action chord)
  | unbind action => Act.unbind action
  | canvas c name event => c.deliver name event
  | windowKey b key scancode action => Window.onKey b key scancode action
  | windowButton b button action => Window.onButton b button action
  | windowPosition x y => Window.onPosition x y
  | windowScroll dx dy => Window.onScroll dx dy
  | windowFocus focused => Window.onFocus focused

end Occurrence

/-- A snapshot and the bindings that were attached when it was taken. -/
structure Report (κ : Type) where
  bindings : Option (Bindings κ)
  taken : Snapshot κ

/-- A snapshot that fails reports nothing. -/
def reports [DecidableEq κ] [Quotable κ] (s : Session κ) : List (Moment κ) → List (Report κ)
  | [] => []
  | .occur o :: rest => reports (o.act.after s) rest
  | .snapshot frame :: rest =>
    match Act.snapshot frame s with
    | .ok taken left => ⟨s.tracker.bindings, taken⟩ :: reports left rest
    | .error _ left => reports left rest

theorem Operation.leads_act (o : Operation κ) : o.act.Leads := by
  cases o with
  | press v => exact (Act.leads_atomOf v).bind Act.leads_press
  | release v => exact (Act.leads_atomOf v).bind Act.leads_release
  | releaseAll => exact Act.leads_releaseAll
  | addMotion dx dy => exact Act.leads_addMotion dx dy
  | moveTo x y => exact Act.leads_moveTo x y
  | addWheel dx dy => exact Act.leads_addWheel dx dy
  | consume events => exact Act.leads_consumeAll events
  | attach bindings => exact Act.leads_attach bindings
  | setClock now => exact Act.leads_setClock now

theorem Occurrence.leads_act [DecidableEq κ] [Quotable κ] (o : Occurrence κ) : o.act.Leads := by
  cases o with
  | operation o => exact o.leads_act
  | bind action expression =>
      have step := (Act.leads_bindings "bind").bind fun b =>
        Act.leads_stepOn (b.bind action expression)
      exact step.bind fun _ => Act.leads_pure ()
  | bindChord action chord => exact (Act.leads_bindings _).bind fun b => Act.leads_stepOn _
  | unbind action => exact (Act.leads_bindings _).bind fun b => Act.leads_stepOn _
  | canvas c name event => exact Canvas.leads_runEach event _
  | windowKey b key scancode action => exact Window.leads_onKey b key scancode action
  | windowButton b button action => exact Window.leads_onButton b button action
  | windowPosition x y => exact Act.leads_moveTo x y
  | windowScroll dx dy => exact Window.leads_onScroll dx dy
  | windowFocus focused => exact Window.leads_onFocus focused

namespace Tracker

theorem mem_active_of_held (t : Tracker κ) (a : Atom) (held : a ∈ t.held) : a ∈ t.active := by
  rw [active, AtomSet.mem_union, AtomSet.mem_union]
  exact .inl (.inl held)

theorem snapshot_detached [DecidableEq κ] (t : Tracker κ) (frame : Int)
    (detached : t.bindings = none) :
    t.snapshot frame =
      .ok (⟨frame, t.active, t.pressed, t.released, .none⟩, t.nextFrame) := by
  rw [snapshot, detached]
  rfl

theorem snapshot_attached [DecidableEq κ] (t : Tracker κ) (frame : Int) (b : Bindings κ)
    (attached : t.bindings = some b) :
    t.snapshot frame = (b.activeActions t.active).map fun now =>
      (⟨frame, t.active, t.pressed, t.released, .between t.activeActions now⟩,
        { t.nextFrame with activeActions := now }) := by
  rw [snapshot, attached]
  show (b.activeActions t.active).bind _ = _
  cases b.activeActions t.active <;> rfl

end Tracker

/-! What one snapshot adds to the reports. -/

section Reports

variable [DecidableEq κ] [Quotable κ]

theorem reports_detached (s : Session κ) (frame : Int) (rest : List (Moment κ))
    (detached : s.tracker.bindings = none) :
    reports s (.snapshot frame :: rest) =
      ⟨none, ⟨frame, s.tracker.active, s.tracker.pressed, s.tracker.released, .none⟩⟩ ::
        reports { s with tracker := s.tracker.nextFrame } rest := by
  rw [reports, Act.snapshot_eq, s.tracker.snapshot_detached frame detached, detached]

theorem reports_attached (s : Session κ) (frame : Int) (rest : List (Moment κ)) (b : Bindings κ)
    (now : List κ) (attached : s.tracker.bindings = some b)
    (holds : b.activeActions s.tracker.active = .ok now) :
    reports s (.snapshot frame :: rest) =
      ⟨some b, ⟨frame, s.tracker.active, s.tracker.pressed, s.tracker.released,
        .between s.tracker.activeActions now⟩⟩ ::
          reports { s with tracker := { s.tracker.nextFrame with activeActions := now } } rest := by
  rw [reports, Act.snapshot_eq, s.tracker.snapshot_attached frame b attached, holds, attached]
  rfl

theorem reports_failed (s : Session κ) (frame : Int) (rest : List (Moment κ)) (b : Bindings κ)
    (fault : Fault) (attached : s.tracker.bindings = some b)
    (fails : b.activeActions s.tracker.active = .error fault) :
    reports s (.snapshot frame :: rest) = reports s rest := by
  rw [reports, Act.snapshot_eq, s.tracker.snapshot_attached frame b attached, fails]
  rfl

end Reports

structure ActionEdges.Since (before : List κ) (e : ActionEdges κ) : Prop where
  started : ∀ a, a ∈ e.started ↔ a ∈ e.active ∧ a ∉ before
  ended : ∀ a, a ∈ e.ended ↔ a ∈ before ∧ a ∉ e.active

namespace ActionEdges

theorem Since.not_both {before : List κ} {e : ActionEdges κ} (since : e.Since before) (a : κ) :
    ¬ (a ∈ e.started ∧ a ∈ e.ended) := fun both =>
  ((since.started a).mp both.1).2 ((since.ended a).mp both.2).1

variable [DecidableEq κ]

theorem between_since (before now : List κ) : (between before now).Since before :=
  ⟨mem_started before now, mem_ended before now⟩

/-- The difference to some actions is the difference to others only if those are the same. -/
theorem between_since_iff (known now before : List κ) :
    (between known now).Since before ↔ ∀ a, a ∈ known ↔ a ∈ before := by
  constructor
  · intro since a
    have started := (mem_started known now a).symm.trans (since.started a)
    have ended := (mem_ended known now a).symm.trans (since.ended a)
    simp only [between] at started ended
    tauto
  · intro same
    constructor
    · intro a
      rw [mem_started, same]
      rfl
    · intro a
      rw [mem_ended, same]
      rfl

theorem none_since_iff (before : List κ) :
    (none : ActionEdges κ).Since before ↔ before = [] := by
  have none_eq : (none : ActionEdges κ) = between [] [] := rfl
  simp [none_eq, between_since_iff, List.eq_nil_iff_forall_not_mem]

end ActionEdges

def lastKnown (known : List κ) : List (Report κ) → List κ
  | [] => known
  | r :: rest => lastKnown (if r.bindings.isSome then r.taken.actions.active else known) rest

theorem lastKnown_append (known : List κ) (before later : List (Report κ)) :
    lastKnown known (before ++ later) = lastKnown (lastKnown known before) later := by
  induction before generalizing known with
  | nil => rfl
  | cons r rest ih => exact ih _

theorem lastKnown_snoc (known : List κ) (before : List (Report κ)) (r : Report κ) :
    lastKnown known (before ++ [r]) =
      if r.bindings.isSome then r.taken.actions.active else lastKnown known before := by
  rw [lastKnown_append]
  rfl

def lastActive (before : List (Report κ)) : List κ :=
  (before.getLast?.map fun r => r.taken.actions.active).getD []

theorem lastActive_snoc (before : List (Report κ)) (r : Report κ) :
    lastActive (before ++ [r]) = r.taken.actions.active := by simp [lastActive]

theorem lastKnown_eq_lastActive (before : List (Report κ))
    (attached : ∀ r ∈ before, r.bindings.isSome = true) :
    lastKnown [] before = lastActive before := by
  rcases List.eq_nil_or_concat' before with rfl | ⟨init, r, rfl⟩
  · rfl
  · rw [lastKnown_snoc, lastActive_snoc, if_pos (attached r (by simp))]

theorem Bindings.activeActions_atom (trace : Bool) (action : κ) (a : Atom) (active : AtomSet)
    (member : a ∈ active) : activeActions ⟨trace, [(action, .atom a)]⟩ active = .ok [action] := by
  rw [activeActions, activeAmong, Chord.eval_atom, decide_eq_true member]
  rfl

variable [DecidableEq κ]

/-- A report without bindings is empty. Any other tells the difference to the actions that are known
and makes its own ones known. -/
def Report.Follows (known : List κ) (r : Report κ) : Prop :=
  match r.bindings with
  | none => r.taken.actions = .none
  | some b => b.activeActions r.taken.active = .ok r.taken.actions.active ∧
    r.taken.actions = .between known r.taken.actions.active

def AllFollow (known : List κ) : List (Report κ) → Prop
  | [] => True
  | r :: rest => r.Follows known ∧ AllFollow (lastKnown known [r]) rest

theorem AllFollow.suffix {known : List κ} {before later : List (Report κ)}
    (follow : AllFollow known (before ++ later)) : AllFollow (lastKnown known before) later := by
  induction before generalizing known with
  | nil => exact follow
  | cons r rest ih => exact ih follow.2

theorem AllFollow.initial {known : List κ} {before later : List (Report κ)}
    (follow : AllFollow known (before ++ later)) : AllFollow known before := by
  induction before generalizing known with
  | nil => trivial
  | cons r rest ih => exact ⟨follow.1, ih follow.2⟩

theorem reports_follow [Quotable κ] (s : Session κ) (moments : List (Moment κ)) :
    AllFollow s.tracker.activeActions (reports s moments) := by
  -- Between snapshots nothing touches the remembered actions, whatever happens to the bindings.
  induction moments generalizing s with
  | nil => trivial
  | cons moment rest ih =>
      cases moment with
      | occur o =>
          have kept := (o.leads_act s).activeActions
          rw [reports, ← kept]
          exact ih (o.act.after s)
      | snapshot frame =>
          cases attached : s.tracker.bindings with
          | none =>
              rw [reports_detached s frame rest attached]
              exact ⟨rfl, ih { s with tracker := s.tracker.nextFrame }⟩
          | some b =>
              cases holds : b.activeActions s.tracker.active with
              | error fault =>
                  rw [reports_failed s frame rest b fault attached holds]
                  exact ih s
              | ok now =>
                  rw [reports_attached s frame rest b now attached holds]
                  exact ⟨⟨holds, rfl⟩,
                    ih { s with tracker := { s.tracker.nextFrame with activeActions := now } }⟩

namespace Report.Follows

theorem detached {known : List κ} {r : Report κ} (follows : r.Follows known)
    (none : r.bindings = none) : r.taken.actions = .none := by
  rw [Report.Follows, none] at follows
  exact follows

theorem attached {known : List κ} {r : Report κ} {b : Bindings κ} (follows : r.Follows known)
    (some : r.bindings = some b) : b.activeActions r.taken.active = .ok r.taken.actions.active ∧
      r.taken.actions = .between known r.taken.actions.active := by
  rw [Report.Follows, some] at follows
  exact follows

theorem since {known : List κ} {r : Report κ} (follows : r.Follows known)
    (attached : r.bindings.isSome = true) : r.taken.actions.Since known := by
  obtain ⟨b, some⟩ := Option.isSome_iff_exists.mp attached
  rw [(follows.attached some).2]
  exact ActionEdges.between_since _ _

end Report.Follows

inductive Edge where
  | start | finish
  deriving DecidableEq, Repr

def Report.edges (a : κ) (r : Report κ) : List Edge :=
  (if a ∈ r.taken.actions.started then [.start] else []) ++
    if a ∈ r.taken.actions.ended then [.finish] else []

def edges (a : κ) (told : List (Report κ)) : List Edge := told.flatMap (Report.edges a)

theorem edges_cons (a : κ) (r : Report κ) (rest : List (Report κ)) :
    edges a (r :: rest) = r.edges a ++ edges a rest := List.flatMap_cons ..

/-- The last edge of an action, given whether it holds. An action that was never seen to hold is as
good as one that ended. -/
def lastEdge (a : κ) (known : List κ) : Edge := if a ∈ known then .start else .finish

theorem Report.Follows.edges_eq {known : List κ} {r : Report κ} (follows : r.Follows known)
    (a : κ) : r.edges a =
      if lastEdge a (lastKnown known [r]) = lastEdge a known then []
      else [lastEdge a (lastKnown known [r])] := by
  cases bindings : r.bindings with
  | none =>
      have unknown : lastKnown known [r] = known := by simp [lastKnown, bindings]
      rw [unknown, if_pos rfl, Report.edges, follows.detached bindings]
      rfl
  | some b =>
      have known' : lastKnown known [r] = r.taken.actions.active := by simp [lastKnown, bindings]
      have since := follows.since (by rw [bindings]; rfl)
      rw [known', Report.edges]
      simp only [since.started, since.ended, lastEdge]
      by_cases before : a ∈ known <;> by_cases now : a ∈ r.taken.actions.active <;>
        simp [before, now]

/-- The edges of an action alternate, also across reports without bindings. -/
theorem AllFollow.alternate {known : List κ} {told : List (Report κ)}
    (follow : AllFollow known told) (a : κ) :
    (lastEdge a known :: edges a told).IsChain (· ≠ ·) := by
  induction told generalizing known with
  | nil => exact .singleton _
  | cons r rest ih =>
      have later := ih follow.2
      rw [edges_cons, follow.1.edges_eq a]
      by_cases same : lastEdge a (lastKnown known [r]) = lastEdge a known
      · rw [if_pos same, ← same]
        exact later
      · rw [if_neg same]
        exact .cons_cons (Ne.symm same) later

theorem AllFollow.count_edges {known : List κ} {told : List (Report κ)}
    (follow : AllFollow known told) (a : κ) :
    (edges a told).count .start + (if a ∈ known then 1 else 0) =
      (edges a told).count .finish + if a ∈ lastKnown known told then 1 else 0 := by
  induction told generalizing known with
  | nil => rfl
  | cons r rest ih =>
      have later := ih follow.2
      have step : (r.edges a).count .start + (if a ∈ known then 1 else 0) =
          (r.edges a).count .finish + if a ∈ lastKnown known [r] then 1 else 0 := by
        rw [follow.1.edges_eq a]
        by_cases before : a ∈ known <;> by_cases now : a ∈ lastKnown known [r] <;>
          simp [lastEdge, before, now]
      have whole : lastKnown known (r :: rest) = lastKnown (lastKnown known [r]) rest := rfl
      rw [edges_cons, List.count_append, List.count_append, whole]
      omega

/-! The first reports of a run in which the key of an action is pressed. -/

variable [Quotable κ]

theorem reports_press (action : κ) (k : Key) (frame : Int) (rest : List (Moment κ)) :
    let b : Bindings κ := ⟨false, [(action, .atom (.key k))]⟩
    let t := (Tracker.start .standard (some b)).hold (.key k)
    reports ⟨.start .standard (some b), none⟩
        (.occur (.operation (.press (.atom (.key k)))) :: .snapshot frame :: rest) =
      ⟨some b, ⟨frame, t.active, t.pressed, t.released, .between [] [action]⟩⟩ ::
        reports ⟨{ t.nextFrame with activeActions := [action] }, none⟩ rest := by
  intro b t
  have pressed : (Act.pressValue (.atom (.key k))).after ⟨.start .standard (some b), none⟩ =
      ⟨t, none⟩ := Act.after_press_other (.key k) _ (AtomSet.not_mem_empty _) nofun
  have active : Atom.key k ∈ t.active :=
    t.mem_active_of_held _ ((Tracker.mem_held_hold _ _ _).mpr (.inl rfl))
  rw [reports, Occurrence.act, Operation.act, pressed]
  exact reports_attached ⟨t, none⟩ frame rest b [action] rfl
    (Bindings.activeActions_atom false action _ _ active)

theorem reports_press_detach (action : κ) (k : Key) (frame next : Int) (rest : List (Moment κ)) :
    let b : Bindings κ := ⟨false, [(action, .atom (.key k))]⟩
    let t := (Tracker.start .standard (some b)).hold (.key k)
    let u := { t.nextFrame with bindings := none, activeActions := [action] }
    reports ⟨.start .standard (some b), none⟩
        (.occur (.operation (.press (.atom (.key k)))) :: .snapshot frame ::
          .occur (.operation (.attach none)) :: .snapshot next :: rest) =
      ⟨some b, ⟨frame, t.active, t.pressed, t.released, .between [] [action]⟩⟩ ::
        ⟨none, ⟨next, u.active, u.pressed, u.released, .none⟩⟩ ::
          reports ⟨u.nextFrame, none⟩ rest := by
  intro b t u
  have detached : (Operation.attach none).act.after
      ⟨{ t.nextFrame with activeActions := [action] }, none⟩ = ⟨u, none⟩ := rfl
  rw [reports_press, reports, Occurrence.act, detached, reports_detached ⟨u, none⟩ next rest rfl]

/-- As long as bindings are attached to every snapshot, each report tells the actions of those
bindings and the difference to the report before, and the edges of every action alternate. -/
theorem action_edges (settings : Settings) (bindings : Option (Bindings κ))
    (log : Option (List Log.Record)) (moments : List (Moment κ))
    (attached : ∀ r ∈ reports ⟨.start settings bindings, log⟩ moments, r.bindings.isSome = true) :
    (∀ (before : List (Report κ)) (r : Report κ) (later : List (Report κ)),
      reports ⟨.start settings bindings, log⟩ moments = before ++ r :: later →
        (∃ b, r.bindings = some b ∧
          b.activeActions r.taken.active = .ok r.taken.actions.active) ∧
        r.taken.actions.Since (lastActive before) ∧
        ∀ a, ¬ (a ∈ r.taken.actions.started ∧ a ∈ r.taken.actions.ended) ∧
          (a ∈ r.taken.actions.active ↔
            (edges a (before ++ [r])).count .start = (edges a (before ++ [r])).count .finish + 1)) ∧
    ∀ a, (edges a (reports ⟨.start settings bindings, log⟩ moments)).IsChain (· ≠ ·) ∧
      (edges a (reports ⟨.start settings bindings, log⟩ moments)).head? ≠ some .finish := by
  have follow : AllFollow [] (reports ⟨.start settings bindings, log⟩ moments) :=
    reports_follow ⟨.start settings bindings, log⟩ moments
  constructor
  · intro before r later split
    rw [split] at follow attached
    have here : r.bindings.isSome = true := attached r (by simp)
    have known : lastKnown [] before = lastActive before :=
      lastKnown_eq_lastActive before fun r member => attached r (by simp [member])
    have follows : r.Follows (lastActive before) := known ▸ follow.suffix.1
    have since := follows.since here
    obtain ⟨b, some⟩ := Option.isSome_iff_exists.mp here
    refine ⟨⟨b, some, (follows.attached some).1⟩, since, fun a => ⟨since.not_both a, ?_⟩⟩
    have regrouped : before ++ r :: later = (before ++ [r]) ++ later := List.append_cons ..
    have upTo : AllFollow [] (before ++ [r]) := AllFollow.initial (regrouped ▸ follow)
    have counts := upTo.count_edges a
    rw [lastKnown_snoc, if_pos here] at counts
    by_cases active : a ∈ r.taken.actions.active
    · simpa [active] using counts
    · simp only [active, if_false, List.not_mem_nil] at counts
      simp only [active, false_iff]
      omega
  · intro a
    have alternate := follow.alternate a
    refine ⟨alternate.tail, fun first => ?_⟩
    exact alternate.rel_head? first rfl

theorem action_edges_unbind :
    ∃ first second, reports
        ⟨.start .standard (some ⟨false, [("fire", .atom (.key (.letter 0)))]⟩), none⟩
        [.occur (.operation (.press (.atom (.key (.letter 0))))), .snapshot 1,
          .occur (.unbind "fire"), .snapshot 2] = [first, second] ∧
      "fire" ∈ first.taken.actions.active ∧ "fire" ∈ second.taken.actions.ended ∧
      (edges "fire" [first, second]).IsChain (· ≠ ·) := by
  let b : Bindings String := ⟨false, [("fire", .atom (.key (.letter 0)))]⟩
  let t := (Tracker.start .standard (some b)).hold (.key (.letter 0))
  let first : Report String :=
    ⟨some b, ⟨1, t.active, t.pressed, t.released, .between [] ["fire"]⟩⟩
  let left : Session String :=
    ⟨{ t.nextFrame with activeActions := ["fire"], bindings := some ⟨false, []⟩ }, none⟩
  let second : Report String :=
    ⟨some ⟨false, []⟩, ⟨2, left.tracker.active, left.tracker.pressed, left.tracker.released,
      .between ["fire"] []⟩⟩
  have unbound : (Occurrence.unbind "fire").act.after
      ⟨{ t.nextFrame with activeActions := ["fire"] }, none⟩ = left := rfl
  have run : reports ⟨.start .standard (some b), none⟩
      [.occur (.operation (.press (.atom (.key (.letter 0))))), .snapshot 1,
        .occur (.unbind "fire"), .snapshot 2] = [first, second] := by
    rw [reports_press, reports, unbound, reports_attached left 2 [] ⟨false, []⟩ [] rfl rfl]
    rfl
  have attached : ∀ r ∈ reports ⟨.start .standard (some b), none⟩
      [.occur (.operation (.press (.atom (.key (.letter 0))))), .snapshot 1,
        .occur (.unbind "fire"), .snapshot 2], r.bindings.isSome = true := by
    rw [run]
    simp [first, second]
  obtain ⟨each, alternate⟩ := action_edges .standard (some b) none _ attached
  obtain ⟨_, since, _⟩ := each [first] second [] run
  rw [run] at alternate
  exact ⟨first, second, run, by decide, (since.ended "fire").mpr ⟨by decide, by decide⟩,
    (alternate "fire").1⟩

/-- A report without bindings tells nothing, and any other tells the difference to the last one with
bindings. So what a report tells is the difference to the report before exactly when both have
bindings, or neither has, or no action was active in the last report with bindings. -/
theorem action_edges_across_detachment (settings : Settings) (bindings : Option (Bindings κ))
    (log : Option (List Log.Record)) (moments : List (Moment κ)) (before later : List (Report κ))
    (f g : Report κ)
    (split : reports ⟨.start settings bindings, log⟩ moments = before ++ f :: g :: later) :
    (g.bindings = none → g.taken.actions = .none) ∧
    (∀ b, g.bindings = some b →
      b.activeActions g.taken.active = .ok g.taken.actions.active ∧
        g.taken.actions.Since (lastKnown [] (before ++ [f]))) ∧
    (g.taken.actions.Since f.taken.actions.active ↔
      f.bindings.isSome = g.bindings.isSome ∨ lastKnown [] (before ++ [f]) = []) := by
  have follow : AllFollow [] (before ++ f :: g :: later) := by
    rw [← split]
    exact reports_follow ⟨.start settings bindings, log⟩ moments
  have first : f.Follows (lastKnown [] before) := follow.suffix.1
  have second : g.Follows (lastKnown [] (before ++ [f])) := by
    rw [List.append_cons] at follow
    exact follow.suffix.1
  refine ⟨second.detached, ?_, ?_⟩
  · intro b attached
    exact ⟨(second.attached attached).1, second.since (by rw [attached]; rfl)⟩
  · cases here : g.bindings with
    | none =>
        rw [second.detached here, ActionEdges.none_since_iff]
        cases there : f.bindings with
        | none => simp [first.detached there, ActionEdges.none]
        | some c => simp [lastKnown_snoc, there]
    | some b =>
        rw [(second.attached here).2, ActionEdges.between_since_iff]
        cases there : f.bindings with
        | none => simp [first.detached there, ActionEdges.none, List.eq_nil_iff_forall_not_mem]
        | some c => simp [lastKnown_snoc, there]

/-- An action that is active again after the same bindings are attached again is not reported as
started. -/
theorem action_edges_across_detachment_restart :
    ∃ first gone back, reports
        ⟨.start .standard (some ⟨false, [("fire", .atom (.key (.letter 0)))]⟩), none⟩
        [.occur (.operation (.press (.atom (.key (.letter 0))))), .snapshot 1,
          .occur (.operation (.attach none)), .snapshot 2,
          .occur (.operation (.attach (some ⟨false, [("fire", .atom (.key (.letter 0)))]⟩))),
          .snapshot 3] = [first, gone, back] ∧
      gone.taken.actions.active = [] ∧ back.taken.actions.active = ["fire"] ∧
      "fire" ∉ back.taken.actions.started ∧
      ¬ back.taken.actions.Since gone.taken.actions.active := by
  let b : Bindings String := ⟨false, [("fire", .atom (.key (.letter 0)))]⟩
  let t := (Tracker.start .standard (some b)).hold (.key (.letter 0))
  let u := { t.nextFrame with bindings := none, activeActions := ["fire"] }
  let v := { u.nextFrame with bindings := some b }
  let first : Report String :=
    ⟨some b, ⟨1, t.active, t.pressed, t.released, .between [] ["fire"]⟩⟩
  let gone : Report String := ⟨none, ⟨2, u.active, u.pressed, u.released, .none⟩⟩
  let back : Report String :=
    ⟨some b, ⟨3, v.active, v.pressed, v.released, .between ["fire"] ["fire"]⟩⟩
  have attached : (Operation.attach (some b)).act.after ⟨u.nextFrame, none⟩ = ⟨v, none⟩ := rfl
  have active : Atom.key (.letter 0) ∈ v.active :=
    v.mem_active_of_held _ ((Tracker.mem_held_hold _ _ _).mpr (.inl rfl))
  have run : reports ⟨.start .standard (some b), none⟩
      [.occur (.operation (.press (.atom (.key (.letter 0))))), .snapshot 1,
        .occur (.operation (.attach none)), .snapshot 2,
        .occur (.operation (.attach (some b))), .snapshot 3] = [first, gone, back] := by
    rw [reports_press_detach, reports, Occurrence.act, attached,
      reports_attached ⟨v, none⟩ 3 [] b ["fire"] rfl
        (Bindings.activeActions_atom false "fire" _ _ active)]
    rfl
  obtain ⟨_, _, exactly⟩ :=
    action_edges_across_detachment .standard (some b) none _ [first] [] gone back run
  refine ⟨first, gone, back, run, rfl, rfl, by decide, fun since => ?_⟩
  rcases exactly.mp since with same | empty
  · cases same
  · cases empty

/-- An action that was active when the bindings were detached is not reported as ended. -/
theorem action_edges_detached :
    ∃ first gone, reports
        ⟨.start .standard (some ⟨false, [("fire", .atom (.key (.letter 0)))]⟩), none⟩
        [.occur (.operation (.press (.atom (.key (.letter 0))))), .snapshot 1,
          .occur (.operation (.attach none)), .snapshot 2] = [first, gone] ∧
      "fire" ∈ first.taken.actions.active ∧ "fire" ∉ gone.taken.actions.active ∧
      "fire" ∉ gone.taken.actions.ended :=
  ⟨_, _, reports_press_detach "fire" (.letter 0) 1 2 [], by decide, by decide, by decide⟩

end InputChords
