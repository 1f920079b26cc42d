import Mathlib.Data.List.Chain
import InputChords.Proofs.Physical

/-! Double clicks over whole runs. Which clicks are the second ones of two is told by their times
alone. -/

namespace InputChords

variable {κ : Type}

/-- Which presses are the second ones of two, given their times and that of a press before them
which is still alone. -/
def pairing (soon : Number → Number → Bool) (alone : Option Number) : List Number → List Bool
  | [] => []
  | now :: rest =>
    let second := alone.any (soon · now)
    second :: pairing soon (if second then none else some now) rest

section Pairing

variable {α : Type} {soon : Number → Number → Bool} {time : α → Number} {flag : α → Bool}

theorem chain_of_pairing {clicks : List α} {alone : Option Number}
    (paired : clicks.map flag = pairing soon alone (clicks.map time)) :
    (∀ click ∈ clicks.head?, flag click = alone.any (soon · (time click))) ∧
      clicks.IsChain fun p q => flag q = (!flag p && soon (time p) (time q)) := by
  induction clicks generalizing alone with
  | nil => exact ⟨by simp, .nil⟩
  | cons click rest ih =>
      rw [List.map_cons, List.map_cons, pairing] at paired
      obtain ⟨here, later⟩ := List.cons.inj paired
      obtain ⟨first, chain⟩ := ih later
      refine ⟨by simpa using here, ?_⟩
      cases rest with
      | nil => exact .singleton click
      | cons next rest =>
          refine .cons_cons ?_ chain
          rw [first next (by simp), ← here]
          cases flag click <;> rfl

theorem count_pairing : (times : List Number) → times.IsChain (soon · · = true) →
    (pairing soon none times).count true = times.length / 2
  | [], _ => rfl
  | [_], _ => by simp [pairing]
  | first :: second :: rest, chain => by
    obtain ⟨early, later⟩ := List.isChain_cons_cons.mp chain
    have rest_count := count_pairing rest later.tail
    have paired : pairing soon none (first :: second :: rest) =
        false :: true :: pairing soon none rest := by
      simp [pairing, early]
    rw [paired, List.count_cons, List.count_cons, rest_count, List.length_cons, List.length_cons]
    simp
    omega

end Pairing

namespace Turn

/-- The turn takes the left button down. -/
def isClick (turn : Turn κ) : Bool :=
  decide (Tracker.leftClick ∉ turn.before.held ∧ Tracker.leftClick ∈ turn.after.held)

def time (turn : Turn κ) : Number := turn.before.clock

/-- The turn brings about a double click, even where there was none in the frame before. -/
def doubles (turn : Turn κ) : Bool :=
  (turn.deed.after { turn.before with doubleClicked := false }).doubleClicked

end Turn

namespace Turn

theorem doubles_click (t : Tracker κ) (second : Bool) (free : Tracker.leftClick ∉ t.held)
    (timed : t.isSecond = .ok second) :
    (⟨.press (.atom Tracker.leftClick), t⟩ : Turn κ).doubles = second := by
  let low : Tracker κ := { t with doubleClicked := false }
  have same : low.isSecond = .ok second := timed
  show (low.press Tracker.leftClick).doubleClicked = second
  rw [Tracker.press, low.leftPress_eq, same, if_neg free]
  cases second <;> rfl

theorem click_cases (turn : Turn κ) :
    (turn.isClick = false ∧ turn.after.lastLeftPress = turn.before.lastLeftPress ∧
      turn.after.doubleClicked = turn.before.doubleClicked) ∨
    (turn.isClick = true ∧ turn.deed = .press (.atom Tracker.leftClick) ∧
      turn.doubles = turn.before.lastLeftPress.any (turn.before.settings.isSoon · turn.time) ∧
      turn.after = (turn.before.clicked turn.doubles).hold Tracker.leftClick) := by
  obtain ⟨d, t⟩ := turn
  have leaves := d.leaves_after t
  rw [isClick, after]
  generalize result : d.after t = u at leaves
  have quiet (fewer : Tracker.leftClick ∈ u.held → Tracker.leftClick ∈ t.held) :
      decide (Tracker.leftClick ∉ t.held ∧ Tracker.leftClick ∈ u.held) = false :=
    decide_eq_false fun click => click.1 (fewer click.2)
  cases leaves with
  | click second free timed =>
      have member := (Tracker.mem_held_hold (t.clicked second) Tracker.leftClick _).mpr (.inl rfl)
      rw [doubles_click t second free timed]
      exact .inr ⟨decide_eq_true ⟨free, member⟩, rfl, Tracker.isSecond_eq_ok timed, rfl⟩
  | hold a free other =>
      refine .inl ⟨quiet fun member => ?_, rfl, rfl⟩
      exact ((Tracker.mem_held_hold t a _).mp member).resolve_left (Ne.symm other)
  | letGo a held =>
      exact .inl ⟨quiet fun member => ((Tracker.mem_held_letGo t a _).mp member).2, rfl, rfl⟩
  | releaseAll =>
      exact .inl ⟨quiet fun member => absurd member (AtomSet.not_mem_empty _), rfl, rfl⟩
  | _ => exact .inl ⟨quiet id, rfl, rfl⟩

end Turn

namespace Chained

/-- Whether a click is the second one of two depends on the times of the clicks. -/
theorem pairing_clicks {settings : Settings} {alone : Option Number} {turns : List (Turn κ)}
    {y : Settings × Option Number}
    (chained : Chained (fun t => (t.settings, t.lastLeftPress)) (settings, alone) turns y) :
    (turns.filter Turn.isClick).map Turn.doubles =
      pairing settings.isSoon alone ((turns.filter Turn.isClick).map Turn.time) := by
  induction turns generalizing alone with
  | nil => rfl
  | cons turn rest ih =>
      obtain ⟨here, later⟩ := chained
      obtain ⟨rfl, rfl⟩ := Prod.mk.inj here
      have settings : turn.after.settings = turn.before.settings :=
        turn.deed.settings_after turn.before
      change Chained _ (turn.after.settings, turn.after.lastLeftPress) rest y at later
      rw [settings] at later
      -- Only a click changes which press is still alone.
      rcases turn.click_cases with ⟨quiet, last, _⟩ | ⟨click, _, doubles, after⟩
      · rw [List.filter_cons_of_neg (by simp [quiet])]
        rw [last] at later
        exact ih later
      · have left : turn.after.lastLeftPress = if turn.doubles then none else some turn.time := by
          rw [after]
          cases turn.doubles <;> rfl
        rw [left] at later
        rw [List.filter_cons_of_pos click, List.map_cons, List.map_cons, pairing, ih later, doubles]

theorem doubleClicked_iff {t u : Tracker κ} {turns : List (Turn κ)}
    (chained : Chained id t turns u) :
    u.doubleClicked = true ↔
      t.doubleClicked = true ∨ ∃ turn ∈ turns, turn.isClick = true ∧ turn.doubles = true := by
  induction turns generalizing t with
  | nil =>
      cases chained
      simp
  | cons turn rest ih =>
      obtain ⟨rfl, later⟩ := chained
      rw [ih later]
      rcases turn.click_cases with ⟨quiet, _, flag⟩ | ⟨click, _, _, after⟩
      · simp [flag, quiet]
      · have flag : turn.after.doubleClicked = (turn.before.doubleClicked || turn.doubles) := by
          rw [after]
          cases turn.doubles <;> simp [Tracker.clicked, Tracker.hold]
        simp [flag, click, or_assoc]

end Chained

def Story.clicks (st : Story κ) : List (Turn κ) := st.turns.filter Turn.isClick

/-- The clicks of a run are presses of the left button, and the turns leave out nothing that is
held. A click is a double click if the one before it is none and was not long ago; all of this is
told by the times of the clicks. A snapshot shows a double click if there was one in its frame. If
no click comes late, every other one is a double click. -/
theorem double_clicks [DecidableEq κ] [Quotable κ] (settings : Settings)
    (bindings : Option (Bindings κ)) (log : Option (List Log.Record)) (moments : List (Moment κ))
    (byHand : .occur (.operation (.press (.atom (.click .double)))) ∉ moments) :
    let st := story ⟨.start settings bindings, log⟩ moments
    Chained (·.held) ∅ st.turns st.scene.now.tracker.held ∧
    (∀ click ∈ st.clicks, click.deed = .press (.atom Tracker.leftClick)) ∧
    (∀ click ∈ st.clicks.head?, click.doubles = false) ∧
    (st.clicks.IsChain fun previous click => click.doubles =
      (!previous.doubles && settings.isSoon previous.time click.time)) ∧
    st.clicks.map Turn.doubles = pairing settings.isSoon none (st.clicks.map Turn.time) ∧
    (∀ shot ∈ st.shots, .click .double ∈ shot.taken.active ↔
      ∃ turn ∈ shot.scene.turns, turn.isClick = true ∧ turn.doubles = true) ∧
    ((st.clicks.map Turn.time).IsChain (settings.isSoon · · = true) →
      st.clicks.countP Turn.doubles = st.clicks.length / 2) := by
  intro st
  let s : Session κ := ⟨.start settings bindings, log⟩
  have held := story_chained s moments (·.held) fun n t taken u done =>
    (Tracker.snapshot_keeps done).held
  have paired : st.clicks.map Turn.doubles =
      pairing settings.isSoon none (st.clicks.map Turn.time) :=
    (story_chained s moments (fun t => (t.settings, t.lastLeftPress)) fun n t taken u done =>
      Prod.ext (Tracker.snapshot_keeps done).settings
        (Tracker.snapshot_keeps done).lastLeftPress).pairing_clicks
  obtain ⟨first, chain⟩ := chain_of_pairing paired
  have sound := (story_sound s moments (Tracker.start_fresh settings bindings)).1
  have within := (story_within (· ≠ .click .double) settings bindings log moments
    (by rintro a physical rfl; cases physical)
    (by rintro a member rfl; exact byHand member)).1
  refine ⟨held, ?_, first, chain, paired, ?_, ?_⟩
  · intro click member
    obtain ⟨_, isClick⟩ := List.mem_filter.mp member
    rcases click.click_cases with ⟨quiet, _⟩ | ⟨_, deed, _⟩
    · rw [quiet] at isClick
      cases isClick
    · exact deed
  · intro shot member
    have here := sound shot member
    rw [here.active, (within shot member).mem_active_iff (by simp), Tracker.double_mem_derived,
      here.chained.doubleClicked_iff, here.fresh.doubleClicked]
    simp
  · intro early
    have count := count_pairing _ early
    rw [← paired, List.length_map, List.count, List.countP_map] at count
    simpa [Function.comp_def] using count

/-- Two clicks within half a second, in two frames. -/
theorem double_clicks_across_frames :
    let moments : List (Moment String) := [.occur (.operation (.setClock (.real 1.0))),
      .occur (.operation (.press (.atom (.click .left)))),
      .occur (.operation (.release (.atom (.click .left)))), .snapshot 1,
      .occur (.operation (.setClock (.real 1.25))),
      .occur (.operation (.press (.atom (.click .left)))), .snapshot 2]
    let st := story ⟨.start .standard none, none⟩ moments
    st.clicks.map Turn.time = [.real 1.0, .real 1.25] ∧ st.clicks.countP Turn.doubles = 1 ∧
      ∃ first second, st.shots = [first, second] ∧ .click .double ∉ first.taken.active ∧
        .click .double ∈ second.taken.active ∧
        ∃ turn ∈ second.scene.turns, turn.isClick = true ∧ turn.doubles = true := by
  intro moments st
  obtain ⟨_, _, _, _, _, shown, count⟩ :=
    double_clicks .standard none none moments (by simp [moments])
  have times : st.clicks.map Turn.time = [.real 1.0, .real 1.25] := by decide +kernel
  have pair : st.clicks.length = 2 := by decide +kernel
  have early : (st.clicks.map Turn.time).IsChain (Settings.standard.isSoon · · = true) := by
    rw [times]
    exact .cons_cons (by decide +kernel) (.singleton _)
  have half : st.clicks.countP Turn.doubles = st.clicks.length / 2 := count early
  obtain ⟨first, second, shots⟩ := List.length_eq_two.mp (by decide +kernel : st.shots.length = 2)
  have active : st.shots.map (fun shot => decide (.click .double ∈ shot.taken.active)) =
      [false, true] := by decide +kernel
  change ∀ shot ∈ st.shots, _ at shown
  rw [shots] at shown active
  obtain ⟨here, later⟩ := List.cons.inj active
  have there := of_decide_eq_true (List.cons.inj later).1
  rw [pair] at half
  exact ⟨times, half, first, second, shots, of_decide_eq_false here, there,
    (shown second (by simp)).mp there⟩

end InputChords
