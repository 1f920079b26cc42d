import Mathlib.Tactic.Tauto
import InputChords.Proofs.Outcome
import InputChords.Tracker.Act

/-! What operations do to the atoms of a tracker, whether they end in a fault or not. Most of them
leave these atoms alone, and the others record what they change. -/

namespace InputChords

variable {κ : Type}

namespace Tracker

structure Aside (t u : Tracker κ) : Prop where
  held : u.held = t.held
  pressed : u.pressed = t.pressed
  released : u.released = t.released

/-- What came to be held is pressed besides, and what ceased to be held is released besides. -/
structure Recorded (t u : Tracker κ) : Prop where
  pressed : ∀ a, a ∈ u.pressed ↔ a ∈ t.pressed ∨ (a ∉ t.held ∧ a ∈ u.held)
  released : ∀ a, a ∈ u.released ↔ a ∈ t.released ∨ (a ∈ t.held ∧ a ∉ u.held)

theorem Aside.refl (t : Tracker κ) : t.Aside t := ⟨rfl, rfl, rfl⟩

theorem Aside.trans {t u v : Tracker κ} (first : t.Aside u) (second : u.Aside v) : t.Aside v :=
  ⟨second.held.trans first.held, second.pressed.trans first.pressed,
    second.released.trans first.released⟩

theorem Aside.recorded {t u : Tracker κ} (aside : t.Aside u) : t.Recorded u := by
  constructor
  · intro a
    rw [aside.pressed, aside.held]
    tauto
  · intro a
    rw [aside.released, aside.held]
    tauto

theorem Aside.before {t u v : Tracker κ} (aside : t.Aside u) (recorded : u.Recorded v) :
    t.Recorded v := by
  constructor
  · intro a
    rw [recorded.pressed, aside.pressed, aside.held]
  · intro a
    rw [recorded.released, aside.released, aside.held]

theorem Recorded.before {t u v : Tracker κ} (recorded : t.Recorded u) (aside : u.Aside v) :
    t.Recorded v := by
  constructor
  · intro a
    rw [aside.pressed, aside.held, recorded.pressed]
  · intro a
    rw [aside.released, aside.held, recorded.released]

structure Dropped (t u : Tracker κ) : Prop extends t.Recorded u where
  fewer : ∀ a, a ∈ u.held → a ∈ t.held

theorem Aside.dropped {t u : Tracker κ} (aside : t.Aside u) : t.Dropped u where
  toRecorded := aside.recorded
  fewer _ held := aside.held ▸ held

theorem Dropped.trans {t u v : Tracker κ} (first : t.Dropped u) (second : u.Dropped v) :
    t.Dropped v where
  pressed a := by
    have here := first.pressed a
    have next := second.pressed a
    have less := first.fewer a
    have lessNext := second.fewer a
    tauto
  released a := by
    have here := first.released a
    have next := second.released a
    have less := first.fewer a
    have lessNext := second.fewer a
    tauto
  fewer a held := first.fewer a (second.fewer a held)

theorem Dropped.before {t u v : Tracker κ} (dropped : t.Dropped u) (aside : u.Aside v) :
    t.Dropped v :=
  dropped.trans aside.dropped

theorem hold_recorded (t : Tracker κ) (a : Atom) (free : a ∉ t.held) : t.Recorded (t.hold a) := by
  constructor
  · intro b
    rw [mem_held_hold]
    show b ∈ t.pressed.insert a ↔ _
    rw [AtomSet.mem_insert]
    by_cases same : b = a
    · subst same
      tauto
    · tauto
  · intro b
    rw [mem_held_hold]
    show b ∈ t.released ↔ _
    tauto

theorem letGo_dropped (t : Tracker κ) (a : Atom) (held : a ∈ t.held) : t.Dropped (t.letGo a) where
  pressed b := by
    rw [mem_held_letGo]
    show b ∈ t.pressed ↔ _
    tauto
  released b := by
    rw [mem_held_letGo]
    show b ∈ t.released.insert a ↔ _
    rw [AtomSet.mem_insert]
    by_cases same : b = a
    · subst same
      tauto
    · tauto
  fewer b member := ((mem_held_letGo t a b).mp member).2

theorem leftPress_aside (t u : Tracker κ) (pressed : t.leftPress = .ok u) : t.Aside u := by
  rw [leftPress] at pressed
  obtain ⟨interval, _, pressed⟩ := bind_eq_ok pressed
  cases last : t.lastLeftPress with
  | none =>
      rw [last] at pressed
      cases pressed
      exact ⟨rfl, rfl, rfl⟩
  | some previous =>
      rw [last] at pressed
      obtain ⟨elapsed, _, pressed⟩ := bind_eq_ok pressed
      by_cases soon : elapsed.le interval = true
      · rw [if_pos soon] at pressed
        cases pressed
        exact ⟨rfl, rfl, rfl⟩
      · rw [if_neg soon] at pressed
        cases pressed
        exact ⟨rfl, rfl, rfl⟩

end Tracker

namespace Act

variable {α β : Type}

def after (act : Act κ α) (s : Session κ) : Session κ :=
  match act s with
  | .ok _ left => left
  | .error _ left => left

def Keeps (act : Act κ α) : Prop := ∀ s : Session κ, s.tracker.Aside (act.after s).tracker

def Records (act : Act κ α) : Prop := ∀ s : Session κ, s.tracker.Recorded (act.after s).tracker

def Drops (act : Act κ α) : Prop := ∀ s : Session κ, s.tracker.Dropped (act.after s).tracker

theorem after_ok {act : Act κ α} {s left : Session κ} {x : α} (done : act s = .ok x left) :
    act.after s = left := by
  rw [after, done]

theorem after_bind (act : Act κ α) (next : α → Act κ β) (s : Session κ) :
    (act >>= next).after s =
      match act s with
      | .ok x left => (next x).after left
      | .error _ left => left := by
  show (match EStateM.bind act next s with | .ok _ left => left | .error _ left => left) = _
  rw [EStateM.bind]
  cases act s with
  | ok x left => rfl
  | error fault left => rfl

theorem keeps_pure (x : α) : Keeps (pure x : Act κ α) := fun s => .refl s.tracker

theorem keeps_get : Keeps (get : Act κ (Session κ)) := fun s => .refl s.tracker

theorem keeps_throw (fault : Fault) : Keeps (throw fault : Act κ α) := fun s => .refl s.tracker

theorem after_bind_of (first second both : Tracker κ → Tracker κ → Prop)
    (compose : ∀ {t u v}, first t u → second u v → both t v) (stop : ∀ {t u}, first t u → both t u)
    {act : Act κ α} {next : α → Act κ β}
    (here : ∀ s : Session κ, first s.tracker (act.after s).tracker)
    (later : ∀ x, ∀ s : Session κ, second s.tracker ((next x).after s).tracker) (s : Session κ) :
    both s.tracker ((act >>= next).after s).tracker := by
  have step := here s
  rw [after] at step
  rw [after_bind]
  cases result : act s with
  | ok x left =>
      rw [result] at step
      exact compose step (later x left)
  | error fault left =>
      rw [result] at step
      exact stop step

theorem Keeps.bind {act : Act κ α} {next : α → Act κ β} (first : act.Keeps)
    (second : ∀ x, (next x).Keeps) : (act >>= next).Keeps :=
  after_bind_of Tracker.Aside Tracker.Aside Tracker.Aside Tracker.Aside.trans id first second

theorem Keeps.before {act : Act κ α} {next : α → Act κ β} (first : act.Keeps)
    (second : ∀ x, (next x).Records) : (act >>= next).Records :=
  after_bind_of Tracker.Aside Tracker.Recorded Tracker.Recorded Tracker.Aside.before
    Tracker.Aside.recorded first second

theorem Drops.bind {act : Act κ α} {next : α → Act κ β} (first : act.Drops)
    (second : ∀ x, (next x).Drops) : (act >>= next).Drops :=
  after_bind_of Tracker.Dropped Tracker.Dropped Tracker.Dropped Tracker.Dropped.trans id first
    second

theorem Keeps.records {act : Act κ α} (keeps : act.Keeps) :
    act.Records := fun s => (keeps s).recorded

theorem Drops.records {act : Act κ α} (drops : act.Drops) : act.Records :=
  fun s => (drops s).toRecorded

theorem keeps_demand (x : Except Fault α) : Keeps (demand x : Act κ α) := by
  cases x with
  | ok x => exact keeps_pure x
  | error fault => exact keeps_throw fault

theorem keeps_update (f : Tracker κ → Tracker κ) (aside : ∀ t : Tracker κ, t.Aside (f t)) :
    Keeps (update f) :=
  fun s => aside s.tracker

theorem keeps_append (records : List Log.Record) : Keeps (append records : Act κ Unit) :=
  fun s => .refl s.tracker

theorem keeps_write (logger : String) (message : Except Fault String) :
    Keeps (write logger message : Act κ Unit) := by
  cases message with
  | ok text => exact keeps_append [Log.debug logger text]
  | error fault => exact keeps_pure ()

theorem keeps_trace (message : Except Fault String) : Keeps (trace message : Act κ Unit) := by
  refine keeps_get.bind fun s => ?_
  by_cases traced : s.tracker.settings.inputTrace = true
  · rw [if_pos traced]
    exact keeps_write logger message
  · rw [if_neg traced]
    exact keeps_pure ()

theorem keeps_addMotion (dx dy : Value) : Keeps (addMotion dx dy : Act κ Unit) := by
  refine (keeps_demand _).bind fun x => ?_
  refine Keeps.bind (keeps_update _ fun t => ⟨rfl, rfl, rfl⟩) fun _ => ?_
  refine (keeps_demand _).bind fun y => ?_
  refine Keeps.bind (keeps_update _ fun t => ⟨rfl, rfl, rfl⟩) fun _ => ?_
  refine keeps_get.bind fun s => ?_
  refine (keeps_demand _).bind fun long => ?_
  by_cases dragging : (long && decide (Tracker.leftClick ∈ s.tracker.held)) = true
  · rw [if_pos dragging]
    exact keeps_update _ fun t => ⟨rfl, rfl, rfl⟩
  · rw [if_neg dragging]
    exact keeps_pure ()

theorem keeps_moveTo (x y : Value) : Keeps (moveTo x y : Act κ Unit) := by
  refine (keeps_demand _).bind fun x => ?_
  refine (keeps_demand _).bind fun y => ?_
  refine keeps_get.bind fun s => ?_
  refine Keeps.bind (keeps_update _ fun t => ⟨rfl, rfl, rfl⟩) fun _ => ?_
  cases s.tracker.pointer with
  | none => exact keeps_pure ()
  | some origin => exact keeps_addMotion _ _

theorem keeps_addWheel (dx dy : Value) : Keeps (addWheel dx dy : Act κ Unit) := by
  refine (keeps_demand _).bind fun x => ?_
  refine Keeps.bind (keeps_update _ fun t => ⟨rfl, rfl, rfl⟩) fun _ => ?_
  refine (keeps_demand _).bind fun y => ?_
  exact keeps_update _ fun t => ⟨rfl, rfl, rfl⟩

theorem keeps_attach (bindings : Option (Bindings κ)) : Keeps (attach bindings) :=
  keeps_update _ fun _ => ⟨rfl, rfl, rfl⟩

theorem keeps_setClock (now : Number) : Keeps (setClock now : Act κ Unit) :=
  keeps_update _ fun _ => ⟨rfl, rfl, rfl⟩

theorem get_bind (next : Session κ → Act κ α) (s : Session κ) : (get >>= next) s = next s s := rfl

theorem press_held (a : Atom) (s : Session κ) (held : a ∈ s.tracker.held) :
    press a s = .ok () s := by
  rw [press, get_bind]
  simp only [held, if_true]
  rfl

theorem release_free (a : Atom) (s : Session κ) (free : a ∉ s.tracker.held) :
    release a s = .ok () s := by
  rw [release, get_bind]
  simp only [free, not_false_eq_true, if_true]
  rfl

theorem after_press_other (a : Atom) (s : Session κ) (free : a ∉ s.tracker.held)
    (other : a ≠ Tracker.leftClick) :
    (press a).after s = (trace (.ok ("input_pressed atom=" ++ a.name))).after
      { s with tracker := s.tracker.hold a } := by
  rw [after, press, get_bind]
  simp only [free, other, if_false]
  rfl

theorem after_press_left (s : Session κ) (free : Tracker.leftClick ∉ s.tracker.held) :
    (press Tracker.leftClick).after s =
      match Value.realOverflow s.tracker.leftPress with
      | .ok t => (trace (.ok ("input_pressed atom=" ++ Tracker.leftClick.name))).after
          { s with tracker := t.hold Tracker.leftClick }
      | .error _ => s := by
  rw [after, press, get_bind]
  simp only [free, if_false, if_true]
  cases Value.realOverflow s.tracker.leftPress <;> rfl

theorem after_release_held (a : Atom) (s : Session κ) (held : a ∈ s.tracker.held) :
    (release a).after s = (trace (.ok ("input_released atom=" ++ a.name))).after
      { s with tracker := s.tracker.letGo a } := by
  rw [after, release, get_bind]
  simp only [held, not_true_eq_false, if_false]
  rfl

theorem recorded_trace (s : Session κ) (t : Tracker κ) (message : Except Fault String)
    (recorded : s.tracker.Recorded t) :
    s.tracker.Recorded ((trace message).after { s with tracker := t }).tracker :=
  recorded.before (keeps_trace message { s with tracker := t })

theorem press_records (a : Atom) : Records (press a : Act κ Unit) := by
  intro s
  by_cases held : a ∈ s.tracker.held
  · rw [after_ok (press_held a s held)]
    exact (Tracker.Aside.refl s.tracker).recorded
  · by_cases left : a = Tracker.leftClick
    · subst left
      rw [after_press_left s held]
      -- The clock is read first, and a fault there leaves the button free.
      cases pressed : s.tracker.leftPress with
      | error overflow => exact (Tracker.Aside.refl s.tracker).recorded
      | ok t =>
          have aside := Tracker.leftPress_aside s.tracker t pressed
          have free : Tracker.leftClick ∉ t.held := by
            rw [aside.held]
            exact held
          exact recorded_trace s _ _ (aside.before (t.hold_recorded _ free))
    · rw [after_press_other a s held left]
      exact recorded_trace s _ _ (s.tracker.hold_recorded a held)

theorem drops_release (a : Atom) : Drops (release a : Act κ Unit) := by
  intro s
  by_cases held : a ∈ s.tracker.held
  · rw [after_release_held a s held]
    have kept := keeps_trace (.ok ("input_released atom=" ++ a.name))
      { s with tracker := s.tracker.letGo a }
    exact (s.tracker.letGo_dropped a held).before kept
  · rw [after_ok (release_free a s held)]
    exact (Tracker.Aside.refl s.tracker).dropped

theorem drops_releaseEach (atoms : List Atom) : Drops (releaseEach atoms : Act κ Unit) := by
  induction atoms with
  | nil => exact fun s => (Tracker.Aside.refl s.tracker).dropped
  | cons a rest ih => exact (drops_release a).bind fun _ => ih

theorem release_records (a : Atom) : Records (release a : Act κ Unit) := (drops_release a).records

theorem releaseAll_records : Records (releaseAll : Act κ Unit) :=
  keeps_get.before fun s => (drops_releaseEach s.tracker.held.members).records

theorem keeps_atomOf (v : Value) : Keeps (atomOf v : Act κ Atom) := by
  cases v <;> first | exact keeps_pure _ | exact keeps_throw _

theorem pressValue_records (v : Value) : Records (pressValue v : Act κ Unit) :=
  (keeps_atomOf v).before press_records

theorem releaseValue_records (v : Value) : Records (releaseValue v : Act κ Unit) :=
  (keeps_atomOf v).before release_records

theorem pointer_records (action : PointerAction) (x y button : Value) :
    Records (pointer action x y button : Act κ Unit) := by
  cases action with
  | move => exact (keeps_moveTo x y).records
  | down =>
      refine (keeps_demand _).before fun click => ?_
      cases click with
      | none => exact (keeps_trace _).records
      | some c => exact (keeps_moveTo x y).before fun _ => press_records (.click c)
  | up =>
      refine (keeps_demand _).before fun click => ?_
      cases click with
      | none => exact (keeps_trace _).records
      | some c => exact (keeps_moveTo x y).before fun _ => release_records (.click c)

theorem key_records (pressed : Bool) (name : Value) : Records (key pressed name : Act κ Unit) := by
  refine (keeps_demand _).before fun found => ?_
  cases found with
  | none => exact (keeps_trace _).records
  | some k =>
      cases pressed with
      | true => exact press_records (.key k)
      | false => exact release_records (.key k)

theorem consume_records (event : InputEvent) : Records (consume event : Act κ Unit) := by
  cases event with
  | pointer action x y button => exact pointer_records action x y button
  | key pressed name => exact key_records pressed name
  | wheel dx dy => exact (keeps_addWheel dx dy).records
  | foreign v => exact (keeps_throw _).records

end Act

end InputChords
