import InputChords.Proofs.DoubleClick
import InputChords.Proofs.MotionAtoms

/-! Runs of a tracker, cut into frames by the snapshots that are taken. A snapshot reports what came
to be held and what ceased to be held at the steps of its frame, and shows the atoms that are
derived from the movements and the clicks of that frame. -/

namespace InputChords

variable {κ : Type}

inductive Call (κ : Type) where
  | operate (o : Operation κ)
  | snapshot (frame : Int)

structure Frame (κ : Type) where
  opened : Session κ
  steps : List (Step κ)
  turns : List (Turn κ)
  closing : Session κ
  taken : Snapshot κ
  closed : Session κ

def framesFrom [DecidableEq κ] [Quotable κ] (opened : Session κ) (steps : List (Step κ))
    (turns : List (Turn κ)) (now : Session κ) :
    List (Call κ) → List (Frame κ)
  | [] => []
  | .operate o :: rest =>
    framesFrom opened (steps ++ o.steps now) (turns ++ (Occurrence.operation o).turns now)
      (o.act.after now) rest
  | .snapshot frame :: rest =>
    match Act.snapshot frame now with
    | .ok taken closed =>
      ⟨opened, steps, turns, now, taken, closed⟩ :: framesFrom closed [] [] closed rest
    | .error _ left => framesFrom opened steps turns left rest

def frames [DecidableEq κ] [Quotable κ] (s : Session κ) (calls : List (Call κ)) :
    List (Frame κ) :=
  framesFrom s [] [] s calls

def Linked (s : Session κ) : List (Frame κ) → Prop
  | [] => True
  | f :: rest => f.opened = s ∧ Linked f.closed rest

namespace Frame

def threshold (f : Frame κ) : Number := f.opened.tracker.settings.movementThreshold

/-- The atoms that the movements and clicks of the frame stand for. -/
def Derives (f : Frame κ) : Atom → Prop
  | .movement (.toward d) =>
    d.Shown f.threshold (total ((f.turns.filterMap Turn.stroke?).flatMap Stroke.across))
      (total ((f.turns.filterMap Turn.stroke?).flatMap Stroke.along))
  | .wheel (.toward d) =>
    d.Shown .zero (total ((f.turns.filterMap Turn.scroll?).flatMap Stroke.across))
      (total ((f.turns.filterMap Turn.scroll?).flatMap Stroke.along))
  | .drag => ∃ turn ∈ f.turns, turn.deed.outcome turn.before = .ok () ∧
    ∃ m, turn.stroke? = some m ∧ Tracker.leftClick ∈ turn.before.held ∧
      (m.dx.Exceeds f.threshold ∨ m.dy.Exceeds f.threshold)
  | .click .double => ∃ turn ∈ f.turns, turn.isClick = true ∧ turn.doubles = true
  | _ => False

end Frame

theorem Chained.mem_derived {opened now closed : Session κ} {steps : List (Step κ)}
    {turns : List (Turn κ)} {taken : Snapshot κ}
    (chained : Chained id opened.tracker turns now.tracker) (fresh : opened.tracker.Fresh)
    (a : Atom) :
    a ∈ now.tracker.derived ↔
      (⟨opened, steps, turns, now, taken, closed⟩ : Frame κ).Derives a := by
  obtain ⟨motion, wheel, dragged⟩ := chained.moves
  rw [fresh.motion, Travel.foldl_add] at motion
  rw [fresh.wheel, Travel.foldl_add] at wheel
  rw [fresh.dragged, Bool.false_or] at dragged
  have double := chained.doubleClicked_iff
  rw [fresh.doubleClicked] at double
  obtain ⟨settings, same⟩ := chained.keeps (motive := (·.settings = opened.tracker.settings))
    (fun turn _ same => (turn.deed.settings_after turn.before).trans same) rfl
  rw [Tracker.mem_derived, same]
  simp only [Travel.mem_directions_shown]
  have drag : now.tracker.dragged = true ↔ ∃ turn ∈ turns,
      turn.deed.outcome turn.before = .ok () ∧
        ∃ m, turn.stroke? = some m ∧ Tracker.leftClick ∈ turn.before.held ∧
          (m.dx.Exceeds opened.tracker.settings.movementThreshold ∨
            m.dy.Exceeds opened.tracker.settings.movementThreshold) := by
    rw [dragged, List.any_eq_true]
    refine exists_congr fun turn => and_congr_right fun present => ?_
    rw [turn.drags_iff, settings turn present]
  cases a with
  | movement c =>
      cases c with
      | toward d => simp [motion, Frame.Derives, Frame.threshold, total, Travel.none]
      | along axis => simp [Frame.Derives]
  | wheel c =>
      cases c with
      | toward d => simp [wheel, Frame.Derives, total, Travel.none]
      | along axis => simp [Frame.Derives]
  | drag => simp [drag, Frame.Derives, Frame.threshold]
  | click c => cases c <;> simp [double, Frame.Derives]
  | _ => simp [Frame.Derives]

/-- What a snapshot reports agrees with what was held before, during and after its frame, and with
what was done in it. -/
structure Frame.Consistent (f : Frame κ) : Prop where
  fresh : f.opened.tracker.Fresh
  chained : Chained id f.opened.tracker f.turns f.closing.tracker
  pressed : ∀ a, a ∈ f.taken.pressed ↔ ∃ step ∈ f.steps, step.Takes a
  released : ∀ a, a ∈ f.taken.released ↔ ∃ step ∈ f.steps, step.Drops a
  began : ∀ a, a ∈ f.taken.pressed → a ∉ f.taken.released →
    a ∉ f.opened.tracker.held ∧ a ∈ f.closed.tracker.held
  ended : ∀ a, a ∈ f.taken.released → a ∉ f.taken.pressed →
    a ∈ f.opened.tracker.held ∧ a ∉ f.closed.tracker.held
  unchanged : ∀ a, a ∉ f.taken.pressed → a ∉ f.taken.released →
    (a ∈ f.closed.tracker.held ↔ a ∈ f.opened.tracker.held)
  active : ∀ a, a ∈ f.taken.active ↔
    a ∈ f.closed.tracker.held ∨ a ∈ f.taken.pressed ∨ f.Derives a
  seen : ∀ step ∈ f.steps, ∀ a, step.Takes a → a ∈ f.taken.active

theorem consistent_of_traced [DecidableEq κ] (opened now closed : Session κ) (steps : List (Step κ))
    (turns : List (Turn κ)) (frame : Int) (taken : Snapshot κ) (fresh : opened.tracker.Fresh)
    (traced : Traced opened.tracker now.tracker steps)
    (chained : Chained id opened.tracker turns now.tracker)
    (done : now.tracker.snapshot frame = .ok (taken, closed.tracker)) :
    Frame.Consistent ⟨opened, steps, turns, now, taken, closed⟩ := by
  obtain ⟨active, pressed, released, held, _⟩ := Tracker.snapshot_eq_ok _ _ frame taken done
  have edges := traced.edges fresh.edges
  have takes (a : Atom) : a ∈ taken.pressed ↔ ∃ step ∈ steps, step.Takes a := by
    rw [pressed, traced.pressed, fresh.pressed]
    simp [AtomSet.not_mem_empty]
  have drops (a : Atom) : a ∈ taken.released ↔ ∃ step ∈ steps, step.Drops a := by
    rw [released, traced.released, fresh.released]
    simp [AtomSet.not_mem_empty]
  have members (a : Atom) : a ∈ taken.active ↔
      a ∈ closed.tracker.held ∨ a ∈ taken.pressed ∨
        (⟨opened, steps, turns, now, taken, closed⟩ : Frame κ).Derives a := by
    rw [active, Tracker.mem_active, held, pressed, chained.mem_derived fresh]
  refine ⟨fresh, chained, takes, drops, ?_, ?_, ?_, members, ?_⟩
  · show ∀ a, a ∈ taken.pressed → a ∉ taken.released → a ∉ _ ∧ a ∈ closed.tracker.held
    rw [pressed, released, held]
    exact edges.began
  · show ∀ a, a ∈ taken.released → a ∉ taken.pressed → a ∈ _ ∧ a ∉ closed.tracker.held
    rw [pressed, released, held]
    exact edges.ended
  · show ∀ a, a ∉ taken.pressed → a ∉ taken.released → (a ∈ closed.tracker.held ↔ a ∈ _)
    rw [pressed, released, held]
    exact edges.unchanged
  · intro step member a took
    exact (members a).mpr (Or.inr (Or.inl ((takes a).mpr ⟨step, member, took⟩)))

variable [DecidableEq κ] [Quotable κ]

theorem framesFrom_linked (opened now : Session κ) (steps : List (Step κ)) (turns : List (Turn κ))
    (calls : List (Call κ)) : Linked opened (framesFrom opened steps turns now calls) := by
  induction calls generalizing opened now steps turns with
  | nil => trivial
  | cons call rest ih =>
      cases call with
      | operate o => exact ih opened _ _ _
      | snapshot frame =>
          rw [framesFrom]
          cases Act.snapshot frame now with
          | ok taken closed => exact ⟨rfl, ih closed closed [] []⟩
          | error fault left => exact ih opened left steps turns

theorem framesFrom_consistent (opened now : Session κ) (steps : List (Step κ))
    (turns : List (Turn κ)) (calls : List (Call κ)) (fresh : opened.tracker.Fresh)
    (traced : Traced opened.tracker now.tracker steps)
    (chained : Chained id opened.tracker turns now.tracker) :
    ∀ f ∈ framesFrom opened steps turns now calls, f.Consistent := by
  -- Within a frame the steps so far are traced from its beginning; a snapshot starts afresh.
  induction calls generalizing opened now steps turns with
  | nil =>
      intro f member
      cases member
  | cons call rest ih =>
      cases call with
      | operate o =>
          exact ih opened _ _ _ fresh (traced.trans (o.traced now))
            (chained.append ((Occurrence.operation o).chained_turns now))
      | snapshot frame =>
          rw [framesFrom, Act.snapshot_eq]
          cases done : now.tracker.snapshot frame with
          | error fault => exact ih opened now steps turns fresh traced chained
          | ok result =>
              obtain ⟨taken, t⟩ := result
              obtain ⟨_, _, _, _, freshNext⟩ := Tracker.snapshot_eq_ok _ _ frame taken done
              let closed : Session κ := { now with tracker := t }
              intro f member
              rcases List.mem_cons.mp member with rfl | later
              · exact consistent_of_traced opened now closed steps turns frame taken fresh traced
                  chained done
              · exact ih closed closed [] [] freshNext (.nil _) rfl f later

/-- In every run the frames follow each other and their snapshots are consistent. Pressing what is
held and releasing what is not changes nothing. -/
theorem frames_consistent (settings : Settings) (bindings : Option (Bindings κ))
    (log : Option (List Log.Record)) (calls : List (Call κ)) :
    Linked ⟨.start settings bindings, log⟩ (frames ⟨.start settings bindings, log⟩ calls) ∧
    (∀ f ∈ frames ⟨.start settings bindings, log⟩ calls, f.Consistent) ∧
    (∀ (s : Session κ) (a : Atom), a ∈ s.tracker.held → Act.pressValue (.atom a) s = .ok () s) ∧
    ∀ (s : Session κ) (a : Atom), a ∉ s.tracker.held → Act.releaseValue (.atom a) s = .ok () s := by
  refine ⟨framesFrom_linked _ _ [] [] calls, ?_, ?_, ?_⟩
  · exact framesFrom_consistent _ _ [] [] calls (Tracker.start_fresh settings bindings) (.nil _) rfl
  · intro s a held
    exact Act.press_held a s held
  · intro s a free
    exact Act.release_free a s free

/-- A key that is tapped within one frame is seen in it. -/
theorem frames_consistent_tap :
    ∃ f ∈ frames (κ := String) ⟨.start .standard none, none⟩ [.operate (.press (.atom (.key .tab))),
        .operate (.release (.atom (.key .tab))), .snapshot 1],
      .key .tab ∈ f.taken.pressed ∧ .key .tab ∈ f.taken.released ∧ .key .tab ∈ f.taken.active ∧
        .key .tab ∉ f.closed.tracker.held := by
  let a : Atom := .key .tab
  let s₀ : Session String := ⟨.start .standard none, none⟩
  let s₁ : Session String := ⟨s₀.tracker.hold a, none⟩
  let s₂ : Session String := ⟨s₁.tracker.letGo a, none⟩
  let taken : Snapshot String :=
    ⟨1, s₂.tracker.active, s₂.tracker.pressed, s₂.tracker.released, .none⟩
  let turns : List (Turn String) :=
    [⟨.press (.atom a), s₀.tracker⟩, ⟨.release (.atom a), s₁.tracker⟩]
  let f : Frame String := ⟨s₀, [(s₀, s₁), (s₁, s₂)], turns, s₂, taken, ⟨s₂.tracker.nextFrame, none⟩⟩
  have free : a ∉ s₀.tracker.held := AtomSet.not_mem_empty a
  have held : a ∈ s₁.tracker.held := (Tracker.mem_held_hold _ a a).mpr (Or.inl rfl)
  have gone : a ∉ s₂.tracker.held := fun member => ((Tracker.mem_held_letGo _ a a).mp member).1 rfl
  have pressed : (Act.pressValue (.atom a)).after s₀ = s₁ :=
    Act.after_press_other a s₀ free (by decide)
  have released : (Act.releaseValue (.atom a)).after s₁ = s₂ :=
    Act.after_release_held a s₁ held
  have run : frames s₀ [.operate (.press (.atom a)), .operate (.release (.atom a)), .snapshot 1] =
      [f] := by
    simp only [frames, framesFrom, Operation.steps, Operation.act, pressed, released]
    rfl
  have member : f ∈ frames s₀ [.operate (.press (.atom a)), .operate (.release (.atom a)),
      .snapshot 1] := by
    rw [run]
    exact List.mem_singleton_self f
  have consistent := (frames_consistent .standard none none _).2.1 f member
  have takes : Step.Takes a (s₀, s₁) := ⟨free, held⟩
  have drops : Step.Drops a (s₁, s₂) := ⟨held, gone⟩
  refine ⟨f, member, ?_, ?_, ?_, gone⟩
  · exact (consistent.pressed a).mpr ⟨(s₀, s₁), List.mem_cons_self .., takes⟩
  · exact (consistent.released a).mpr
      ⟨(s₁, s₂), List.mem_cons_of_mem _ (List.mem_singleton_self _), drops⟩
  · exact consistent.seen (s₀, s₁) (List.mem_cons_self ..) a takes

end InputChords
