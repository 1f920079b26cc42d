import InputChords.Proofs.Act

/-! What operations do apart from what they log. Two that match cannot be told apart by their
results and by the trackers that they leave. -/

namespace InputChords.Act

variable {κ : Type}

variable {α β : Type}

def effect (act : Act κ α) (s : Session κ) : Except Fault α × Tracker κ :=
  match act s with
  | .ok x left => (.ok x, left.tracker)
  | .error fault left => (.error fault, left.tracker)

/-- Sessions with the same tracker see the same effect, whatever they log. -/
def Matches (act other : Act κ α) : Prop :=
  ∀ s u : Session κ, s.tracker = u.tracker → act.effect s = other.effect u

theorem tracker_after (act : Act κ α) (s : Session κ) :
    (act.after s).tracker = (act.effect s).2 := by
  rw [after, effect]
  cases act s <;> rfl

theorem effect_eq_ok {act : Act κ α} {s : Session κ} {x : α} {t : Tracker κ} :
    act.effect s = (.ok x, t) ↔ ∃ left, act s = .ok x left ∧ left.tracker = t := by
  rw [effect]
  cases act s <;> simp [and_assoc]

theorem effect_eq_error {act : Act κ α} {s : Session κ} {fault : Fault} {t : Tracker κ} :
    act.effect s = (.error fault, t) ↔ ∃ left, act s = .error fault left ∧ left.tracker = t := by
  rw [effect]
  cases act s <;> simp [and_assoc]

theorem outcome_eq_error {act : Act κ α} {s : Session κ} {fault : Fault} :
    (act.effect s).1 = .error fault ↔ ∃ left, act s = .error fault left := by
  rw [effect]
  cases act s <;> simp

theorem effect_bind (act : Act κ α) (next : α → Act κ β) (s : Session κ) :
    (act >>= next).effect s =
      match act s with
      | .ok x left => (next x).effect left
      | .error fault left => (.error fault, left.tracker) := by
  show (match EStateM.bind act next s with
    | .ok x left => (Except.ok x, left.tracker)
    | .error fault left => (.error fault, left.tracker)) = _
  rw [EStateM.bind]
  cases act s <;> rfl

namespace Matches

variable {act other third : Act κ α}

theorem symm (same : act.Matches other) : other.Matches act :=
  fun s u tracker => (same u s tracker.symm).symm

theorem trans (first : act.Matches other) (second : other.Matches third) : act.Matches third :=
  fun s u tracker => (first s s rfl).trans (second s u tracker)

theorem after (same : act.Matches other) {s u : Session κ} (tracker : s.tracker = u.tracker) :
    (act.after s).tracker = (other.after u).tracker := by
  rw [tracker_after, tracker_after, same s u tracker]

theorem bind {next more : α → Act κ β} (first : act.Matches other)
    (later : ∀ x, (next x).Matches (more x)) : (act >>= next).Matches (other >>= more) := by
  intro s u tracker
  have here := first s u tracker
  rw [effect, effect] at here
  rw [effect_bind, effect_bind]
  cases done : act s with
  | ok x left =>
      cases doneToo : other u with
      | ok y leftToo =>
          rw [done, doneToo] at here
          obtain ⟨value, trackers⟩ := Prod.mk.inj here
          cases value
          exact later x left leftToo trackers
      | error fault leftToo =>
          rw [done, doneToo] at here
          cases congrArg Prod.fst here
  | error fault left =>
      cases doneToo : other u with
      | ok y leftToo =>
          rw [done, doneToo] at here
          cases congrArg Prod.fst here
      | error faultToo leftToo =>
          rw [done, doneToo] at here
          obtain ⟨value, trackers⟩ := Prod.mk.inj here
          cases value
          exact Prod.ext rfl trackers

end Matches

theorem matches_pure (x : α) : Matches (pure x : Act κ α) (pure x) :=
  fun _ _ tracker => Prod.ext rfl tracker

theorem matches_demand (x : Except Fault α) : Matches (demand x : Act κ α) (demand x) := by
  intro s u tracker
  cases x <;> exact Prod.ext rfl tracker

theorem matches_update (f : Tracker κ → Tracker κ) : Matches (update f) (update f) :=
  fun _ _ tracker => Prod.ext rfl (congrArg f tracker)

theorem matches_get {next more : Session κ → Act κ α}
    (later : ∀ s u : Session κ, s.tracker = u.tracker → (next s).Matches (more u)) :
    Matches (get >>= next) (get >>= more) :=
  fun s u tracker => later s u tracker s u tracker

theorem matches_write (logger : String) (message : Except Fault String) :
    Matches (write logger message : Act κ Unit) (pure ()) := by
  intro s u tracker
  cases message <;> exact Prod.ext rfl tracker

theorem matches_trace (message : Except Fault String) :
    Matches (trace message : Act κ Unit) (pure ()) := by
  intro s u tracker
  rw [trace, effect, get_bind]
  by_cases traced : s.tracker.settings.inputTrace = true
  · rw [if_pos traced]
    exact matches_write logger message s u tracker
  · rw [if_neg traced]
    exact Prod.ext rfl tracker

theorem matches_traced (message : Except Fault String) :
    Matches (trace message : Act κ Unit) (trace message) :=
  (matches_trace message).trans (matches_trace message).symm

theorem matches_press (a : Atom) : Matches (press a : Act κ Unit) (press a) := by
  refine matches_get fun s u tracker => ?_
  rw [tracker]
  have finish : Matches
      (do update (·.hold a); trace (.ok ("input_pressed atom=" ++ a.name)) : Act κ Unit)
      (do update (·.hold a); trace (.ok ("input_pressed atom=" ++ a.name))) :=
    (matches_update _).bind fun _ => matches_traced _
  by_cases held : a ∈ u.tracker.held
  · simp only [held, if_true]
    exact matches_pure ()
  · by_cases left : a = Tracker.leftClick
    · subst left
      simp only [held, if_true, if_false]
      refine (matches_demand _).bind fun t => ?_
      exact (matches_update _).bind fun _ => finish
    · simp only [held, left, if_false]
      exact finish

theorem matches_release (a : Atom) : Matches (release a : Act κ Unit) (release a) := by
  refine matches_get fun s u tracker => ?_
  rw [tracker]
  by_cases held : a ∈ u.tracker.held
  · simp only [held, not_true_eq_false, if_false]
    exact (matches_update _).bind fun _ => matches_traced _
  · simp only [held, not_false_eq_true, if_true]
    exact matches_pure ()

theorem matches_addMotion (dx dy : Value) :
    Matches (addMotion dx dy : Act κ Unit) (addMotion dx dy) := by
  refine (matches_demand _).bind fun x => ?_
  refine (matches_update _).bind fun _ => ?_
  refine (matches_demand _).bind fun y => ?_
  refine (matches_update _).bind fun _ => ?_
  refine matches_get fun s u tracker => ?_
  rw [tracker]
  refine (matches_demand _).bind fun long => ?_
  by_cases dragging : (long && decide (Tracker.leftClick ∈ u.tracker.held)) = true
  · rw [if_pos dragging]
    exact matches_update _
  · rw [if_neg dragging]
    exact matches_pure ()

theorem matches_moveTo (x y : Value) : Matches (moveTo x y : Act κ Unit) (moveTo x y) := by
  refine (matches_demand _).bind fun x => ?_
  refine (matches_demand _).bind fun y => ?_
  refine matches_get fun s u tracker => ?_
  rw [tracker]
  refine (matches_update _).bind fun _ => ?_
  cases u.tracker.pointer with
  | none => exact matches_pure ()
  | some origin => exact matches_addMotion _ _

theorem matches_addWheel (dx dy : Value) :
    Matches (addWheel dx dy : Act κ Unit) (addWheel dx dy) := by
  refine (matches_demand _).bind fun x => ?_
  refine (matches_update _).bind fun _ => ?_
  refine (matches_demand _).bind fun y => ?_
  exact matches_update _

theorem matches_setClock (now : Number) : Matches (setClock now : Act κ Unit) (setClock now) :=
  matches_update _

theorem matches_snapshot [DecidableEq κ] (frame : Int) :
    Matches (snapshot frame : Act κ (Snapshot κ)) (snapshot frame) := by
  refine matches_get fun s u tracker => ?_
  rw [tracker]
  refine (matches_demand _).bind fun taken => ?_
  exact (matches_update _).bind fun _ => matches_pure _

end InputChords.Act
