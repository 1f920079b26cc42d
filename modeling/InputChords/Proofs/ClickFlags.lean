import InputChords.Proofs.Physical

/-! The flags of a frame. A drag or a double click is only ever seen together with the left button
that made it. -/

namespace InputChords

variable {κ : Type}

/-- The left button answers for the flags of the frame. A drag may outlast its button, which then
counts as released; a double click comes with the press that made it, and that stays on record. -/
structure Tracker.Answered (t : Tracker κ) : Prop where
  drag : t.dragged = true → leftClick ∈ t.held ∨ leftClick ∈ t.released
  double : t.doubleClicked = true → leftClick ∈ t.pressed

namespace Tracker

theorem Fresh.answered {t : Tracker κ} (fresh : t.Fresh) : t.Answered where
  drag raised := by
    rw [fresh.dragged] at raised
    cases raised
  double raised := by
    rw [fresh.doubleClicked] at raised
    cases raised

theorem answered_click (t : Tracker κ) (second : Bool) :
    ((t.clicked second).hold leftClick).Answered where
  drag _ := .inl ((mem_held_hold (t.clicked second) leftClick leftClick).mpr (.inl rfl))
  double _ := (AtomSet.mem_insert (t.clicked second).pressed leftClick leftClick).mpr (.inl rfl)

namespace Answered

variable {t : Tracker κ} (answered : t.Answered)

include answered

theorem hold (a : Atom) : (t.hold a).Answered where
  drag raised := by
    rcases answered.drag raised with held | released
    · exact .inl ((mem_held_hold t a leftClick).mpr (.inr held))
    · exact .inr released
  double raised := (AtomSet.mem_insert t.pressed a leftClick).mpr (.inr (answered.double raised))

theorem letGo (a : Atom) : (t.letGo a).Answered where
  drag raised := by
    by_cases left : leftClick = a
    · exact .inr ((AtomSet.mem_insert t.released a leftClick).mpr (.inl left))
    · rcases answered.drag raised with held | released
      · exact .inl ((mem_held_letGo t a leftClick).mpr ⟨left, held⟩)
      · exact .inr ((AtomSet.mem_insert t.released a leftClick).mpr (.inr released))
  double := answered.double

theorem releaseAll : t.releaseAll.Answered where
  drag raised := by
    rcases answered.drag raised with held | released
    · exact .inr ((AtomSet.mem_union t.released t.held leftClick).mpr (.inr held))
    · exact .inr ((AtomSet.mem_union t.released t.held leftClick).mpr (.inl released))
  double := answered.double

theorem addMotion (m : Stroke) : (t.addMotion m).Answered where
  drag raised := by
    rcases Bool.or_eq_true_iff.mp raised with before | now
    · exact answered.drag before
    · exact .inl (of_decide_eq_true (Bool.and_eq_true_iff.mp now).2)
  double := answered.double

theorem after (d : Deed κ) : (d.after t).Answered := by
  have leaves := d.leaves_after t
  generalize d.after t = u at leaves
  cases leaves with
  | nothing => exact answered
  | hold a free other => exact answered.hold a
  | click second free timed => exact t.answered_click second
  | letGo a held => exact answered.letGo a
  | releaseAll => exact answered.releaseAll
  | addMotion dx dy => exact answered.addMotion ⟨dx, dy⟩
  | arrive x y place unmoved => exact ⟨answered.drag, answered.double⟩
  | move x y place m moved =>
      have arrived : { t with pointer := some place }.Answered := ⟨answered.drag, answered.double⟩
      exact arrived.addMotion m
  | addWheel dx dy => exact ⟨answered.drag, answered.double⟩
  | attach bindings => exact ⟨answered.drag, answered.double⟩
  | setClock now => exact ⟨answered.drag, answered.double⟩

end Answered

end Tracker

theorem story_answered [DecidableEq κ] [Quotable κ] (settings : Settings)
    (bindings : Option (Bindings κ)) (log : Option (List Log.Record)) (moments : List (Moment κ)) :
    (∀ shot ∈ (story ⟨.start settings bindings, log⟩ moments).shots,
      shot.scene.opened.Answered ∧ shot.scene.now.tracker.Answered) ∧
    (story ⟨.start settings bindings, log⟩ moments).scene.opened.Answered ∧
      (story ⟨.start settings bindings, log⟩ moments).scene.now.tracker.Answered :=
  story_keeps ⟨.start settings bindings, log⟩ moments
    (Tracker.start_fresh settings bindings).answered
    (fun _ _ d _ _ answered => answered.after d)
    (fun _ _ _ _ _ done => (Tracker.snapshot_eq_ok _ _ _ _ done).2.2.2.2.answered)

theorem Scene.Sound.answered {moments : List (Moment κ)} {scene : Scene κ}
    (sound : scene.Sound moments) :
    ∀ turn ∈ scene.turns, turn.before.Answered ∧ turn.after.Answered := by
  have before := (sound.chained.keeps (fun turn _ answered => answered.after turn.deed)
    sound.fresh.answered).1
  exact fun turn member => ⟨before turn member, (before turn member).after turn.deed⟩

/-- The atom is in one of the sets that the snapshot shows. -/
def Snapshot.Shows (taken : Snapshot κ) (a : Atom) : Prop :=
  a ∈ taken.active ∨ a ∈ taken.pressed ∨ a ∈ taken.released

theorem derived_of_shows [DecidableEq κ] [Quotable κ] (settings : Settings)
    (bindings : Option (Bindings κ)) (log : Option (List Log.Record)) (moments : List (Moment κ))
    {a : Atom} (noDevice : a.isPhysical = false)
    (byHand : .occur (.operation (.press (.atom a))) ∉ moments) :
    ∀ shot ∈ (story ⟨.start settings bindings, log⟩ moments).shots,
      shot.taken.Shows a → a ∈ shot.scene.now.tracker.derived := by
  intro shot member shown
  have sound := (story_sound ⟨.start settings bindings, log⟩ moments
    (Tracker.start_fresh settings bindings)).1 shot member
  have within := (story_within (· ≠ a) settings bindings log moments
    (by rintro b physical rfl; simp [noDevice] at physical)
    (by rintro b pressed rfl; exact byHand pressed)).1 shot member
  rcases shown with active | pressed | released
  · rw [sound.active] at active
    exact (within.mem_active_iff (by simp)).mp active
  · rw [sound.pressed] at pressed
    exact absurd rfl (within.pressed a pressed)
  · rw [sound.released] at released
    exact absurd rfl (within.released a released)

/-- In every state of a run, between any two calls, the left button answers for the flags of the
frame. So no snapshot shows a drag without the left button, and none shows a double click unless
the left button went down in its frame, as long as these two atoms themselves are not pressed by
hand. -/
theorem flags_answered [DecidableEq κ] [Quotable κ] (settings : Settings)
    (bindings : Option (Bindings κ)) (log : Option (List Log.Record)) (moments : List (Moment κ)) :
    let st := story ⟨.start settings bindings, log⟩ moments
    (∀ turn ∈ st.turns, turn.before.Answered ∧ turn.after.Answered) ∧
    (∀ shot ∈ st.shots, shot.scene.opened.Answered ∧ shot.scene.now.tracker.Answered) ∧
    st.scene.opened.Answered ∧ st.scene.now.tracker.Answered ∧
    (.occur (.operation (.press (.atom .drag))) ∉ moments →
      ∀ shot ∈ st.shots, shot.taken.Shows .drag →
        Tracker.leftClick ∈ shot.taken.active ∨ Tracker.leftClick ∈ shot.taken.released) ∧
    (.occur (.operation (.press (.atom (.click .double)))) ∉ moments →
      ∀ shot ∈ st.shots, shot.taken.Shows (.click .double) →
        Tracker.leftClick ∈ shot.taken.pressed ∧ Tracker.leftClick ∈ shot.taken.active) := by
  intro st
  let s : Session κ := ⟨.start settings bindings, log⟩
  obtain ⟨shots, scene⟩ := story_sound s moments (Tracker.start_fresh settings bindings)
  obtain ⟨ends, opened, now⟩ := story_answered settings bindings log moments
  refine ⟨?_, ends, opened, now, ?_, ?_⟩
  · intro turn member
    rcases List.mem_append.mp member with past | present
    · obtain ⟨shot, taken, here⟩ := List.mem_flatMap.mp past
      exact (shots shot taken).answered turn here
    · exact scene.answered turn present
  · intro byHand shot member shown
    have derived := derived_of_shows settings bindings log moments rfl byHand shot member shown
    have sound := shots shot member
    rw [sound.active, sound.released, Tracker.mem_active]
    rcases (ends shot member).2.drag ((Tracker.drag_mem_derived _).mp derived) with held | released
    · exact .inl (.inl held)
    · exact .inr released
  · intro byHand shot member shown
    have derived := derived_of_shows settings bindings log moments rfl byHand shot member shown
    have sound := shots shot member
    have pressed := (ends shot member).2.double ((Tracker.double_mem_derived _).mp derived)
    rw [sound.active, sound.pressed, Tracker.mem_active]
    exact ⟨pressed, .inr (.inl pressed)⟩

/-- A drag outlasts its button, and the next click comes soon enough to make two of it. -/
theorem flags_answered_drag_then_double :
    let moments : List (Moment String) := [
      .occur (.operation (.press (.atom (.click .left)))), .snapshot 1,
      .occur (.operation (.addMotion (.real 5.0) (.real 0.0))),
      .occur (.operation (.release (.atom (.click .left)))), .snapshot 2,
      .occur (.operation (.press (.atom (.click .left)))),
      .occur (.operation (.release (.atom (.click .left)))), .snapshot 3]
    let st := story ⟨.start .standard none, none⟩ moments
    st.shots.map (·.taken.active.members) =
      [[.click .left], [.movement (.toward .right), .drag], [.click .left, .click .double]] ∧
    (∀ shot ∈ st.shots, shot.taken.Shows .drag →
      Tracker.leftClick ∈ shot.taken.active ∨ Tracker.leftClick ∈ shot.taken.released) ∧
    ∀ shot ∈ st.shots, shot.taken.Shows (.click .double) →
      Tracker.leftClick ∈ shot.taken.pressed ∧ Tracker.leftClick ∈ shot.taken.active := by
  intro moments st
  obtain ⟨_, _, _, _, drag, double⟩ := flags_answered .standard none none moments
  exact ⟨by decide +kernel, drag (by simp [moments]), double (by simp [moments])⟩

end InputChords
