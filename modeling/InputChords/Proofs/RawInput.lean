import InputChords.Proofs.Physical

/-! Runs in which nothing is pressed by hand: only what a device can press is held, and what it does
to the pointer, the wheel and the clicks lasts for one frame. -/

namespace InputChords

variable {κ : Type}

def InputEvent.Still : InputEvent → Prop
  | key _ _ | foreign _ => True
  | pointer _ _ _ _ | wheel _ _ => False

def Occurrence.Still : Occurrence κ → Prop
  | operation (.press v) => v ≠ .atom Tracker.leftClick
  | operation (.addMotion _ _) | operation (.moveTo _ _) | operation (.addWheel _ _) => False
  | operation (.consume events) => ∀ event ∈ events, event.Still
  | canvas c name event => ∀ h ∈ c.called name, ∀ e, h.read event = .ok (some e) → e.Still
  | windowButton _ _ _ | windowPosition _ _ | windowScroll _ _ => False
  | _ => True

def Scene.Still (scene : Scene κ) : Prop := ∀ o ∈ scene.told, o.Still

def Deed.Still : Deed κ → Prop
  | press v => v ≠ .atom Tracker.leftClick
  | addMotion _ _ | moveTo _ _ | addWheel _ _ => False
  | _ => True

theorem InputEvent.still_of_mem {event : InputEvent} {d : Deed κ} (still : event.Still)
    (member : d ∈ event.calls) : d.Still := by
  cases event with
  | key pressed name =>
      obtain ⟨k, _, here⟩ := Deed.mem_ifFound.mp member
      cases List.mem_singleton.mp here
      cases pressed with
      | true => simp [Deed.Still, Tracker.leftClick]
      | false => trivial
  | pointer action x y button => cases still
  | wheel dx dy => cases still
  | foreign v => cases member

theorem Window.still_of_keyCalls {b : Backend} {key action : Value} {d : Deed κ}
    (member : d ∈ keyCalls b key action) : d.Still := by
  obtain ⟨k, _, here⟩ := Deed.mem_ifFound.mp member
  rcases mem_calls here with rfl | rfl
  · simp [Deed.Still, Tracker.leftClick]
  · trivial

theorem Occurrence.still_of_calls {o : Occurrence κ} {d : Deed κ} (still : o.Still)
    (called : o.Calls d) : d.Still := by
  cases o with
  | operation o =>
      cases o with
      | consume events =>
          obtain ⟨event, member, here⟩ := called
          exact InputEvent.still_of_mem (still event member) here
      | press v =>
          cases called
          exact still
      | addMotion dx dy => cases still
      | moveTo x y => cases still
      | addWheel dx dy => cases still
      | _ =>
          cases called
          trivial
  | canvas c name event =>
      obtain ⟨h, member, here⟩ := called
      obtain ⟨e, read, called⟩ := Deed.mem_ifFound.mp here
      exact InputEvent.still_of_mem (still h member e read) called
  | windowKey b key scancode action => exact Window.still_of_keyCalls called
  | windowButton b button action => cases still
  | windowPosition x y => cases still
  | windowScroll dx dy => cases still
  | windowFocus focused =>
      cases Window.mem_focusCalls called
      trivial
  | bind action expression =>
      obtain ⟨b, rfl⟩ := called
      trivial
  | bindChord action chord =>
      obtain ⟨b, rfl⟩ := called
      trivial
  | unbind action =>
      obtain ⟨b, rfl⟩ := called
      trivial

namespace Tracker

structure Idle (t : Tracker κ) : Prop where
  motion : t.motion = .none
  wheel : t.wheel = .none
  dragged : t.dragged = false
  doubleClicked : t.doubleClicked = false

theorem Fresh.idle {t : Tracker κ} (fresh : t.Fresh) : t.Idle :=
  ⟨fresh.motion, fresh.wheel, fresh.dragged, fresh.doubleClicked⟩

theorem Idle.after {t : Tracker κ} (idle : t.Idle) (d : Deed κ) (still : d.Still) :
    (d.after t).Idle := by
  have leaves := d.leaves_after t
  generalize d.after t = u at leaves
  cases leaves with
  | click second free timed => exact absurd rfl still
  | addMotion dx dy => cases still
  | arrive x y place unmoved => cases still
  | move x y place m moved => cases still
  | addWheel dx dy => cases still
  | _ => exact ⟨idle.motion, idle.wheel, idle.dragged, idle.doubleClicked⟩

theorem Idle.not_mem_derived {t : Tracker κ} (idle : t.Idle)
    (notNegative : t.settings.movementThreshold.lt .zero = false) (a : Atom) : a ∉ t.derived := by
  intro member
  have zero := Number.zero_not_negative
  rw [mem_derived, idle.motion, idle.wheel, idle.dragged, idle.doubleClicked] at member
  rcases member with ⟨d, here, _⟩ | ⟨d, here, _⟩ | ⟨here, _⟩ | ⟨here, _⟩
  · exact d.not_beyond_none notNegative ((Travel.mem_directions notNegative _ d).mp here)
  · exact d.not_beyond_none zero ((Travel.mem_directions zero _ d).mp here)
  · cases here
  · cases here

end Tracker

theorem Settings.load_threshold {env : Environment} {settings : Settings}
    (loaded : load env = .ok settings) : settings.movementThreshold.lt .zero = false := by
  have zero : (Number.real 0.0).lt .zero = false :=
    Number.not_lt_zero_of_sign (x := 0) (by decide) (by decide)
  have clamped (x : Float) : (Number.real (clampReal x)).lt .zero = false := by
    rw [clampReal]
    by_cases above : 0.0 < x
    · rw [if_pos above]
      have beyond : (Number.real 0.0).lt (.real x) = true := decide_eq_true above
      exact Number.not_lt_zero_of_sign (Number.sign_of_beyond zero beyond) (by decide)
    · rw [if_neg above]
      exact zero
  obtain ⟨parseTrace, _, loaded⟩ := bind_eq_ok loaded
  obtain ⟨inputTrace, _, loaded⟩ := bind_eq_ok loaded
  obtain ⟨doubleClickMs, _, loaded⟩ := bind_eq_ok loaded
  obtain ⟨threshold, _, loaded⟩ := bind_eq_ok loaded
  obtain ⟨level, _, loaded⟩ := bind_eq_ok loaded
  cases loaded
  cases threshold with
  | none => exact clamped _
  | some text => exact clamped _

/-- What is shown of a scene in which all input comes from devices. -/
structure Scene.ShowsRaw (scene : Scene κ) (pressed released active : AtomSet) : Prop where
  pressed : ∀ a ∈ pressed, a.isPhysical = true
  released : ∀ a ∈ released, a.isPhysical = true
  elementary : ∀ a ∈ active, a.isComposite = false
  movement : ∀ d : Direction, .movement (.toward d) ∈ active →
    .movement (.toward d.opposite) ∉ active
  wheel : ∀ d : Direction, .wheel (.toward d) ∈ active → .wheel (.toward d.opposite) ∉ active
  still : scene.Still → ∀ a ∈ active, a.isPhysical = true

theorem Scene.Sound.showsRaw {scene : Scene κ} {moments : List (Moment κ)}
    (sound : scene.Sound moments) (within : scene.now.tracker.Within (·.isPhysical = true))
    (notNegative : scene.now.tracker.settings.movementThreshold.lt .zero = false) :
    scene.ShowsRaw scene.now.tracker.pressed scene.now.tracker.released
      scene.now.tracker.active where
  pressed := within.pressed
  released := within.released
  elementary a member := by
    cases physical : a.isPhysical with
    | true => exact a.not_composite_of_physical physical
    | false =>
        have derived := (within.mem_active_iff (by simp [physical])).mp member
        rcases (Tracker.mem_derived _ a).mp derived with
          ⟨d, _, rfl⟩ | ⟨d, _, rfl⟩ | ⟨_, rfl⟩ | ⟨_, rfl⟩ <;> rfl
  movement d here there := by
    rw [within.mem_active_iff (by simp [Atom.isPhysical]),
      Tracker.movement_mem_derived _ notNegative] at here there
    exact here.not_opposite notNegative there
  wheel d here there := by
    rw [within.mem_active_iff (by simp [Atom.isPhysical]), Tracker.wheel_mem_derived] at here there
    exact Direction.Beyond.not_opposite Number.zero_not_negative here there
  still still a member := by
    by_contra other
    have idle := (sound.chained.keeps (motive := Tracker.Idle) (fun turn present idle => by
      obtain ⟨o, told, called⟩ := sound.told turn present
      exact idle.after turn.deed (Occurrence.still_of_calls (still o told) called))
      sound.fresh.idle).2
    exact idle.not_mem_derived notNegative a ((within.mem_active_iff other).mp member)

/-- In a run in which nothing is pressed by hand, only what a device can press is ever held, pressed
or released. Neither a composite atom nor opposite directions are ever active, nor is anything
derived in a scene in which the pointer, its buttons and the wheel are still. The threshold must not
be negative, and one that was read is not. -/
theorem raw_input [DecidableEq κ] [Quotable κ] :
    (∀ env settings, Settings.load env = .ok settings →
      settings.movementThreshold.lt .zero = false) ∧
    ∀ (settings : Settings) (bindings : Option (Bindings κ)) (log : Option (List Log.Record))
      (moments : List (Moment κ)), settings.movementThreshold.lt .zero = false →
      (∀ v, .occur (.operation (.press v)) ∉ moments) →
      let st := story ⟨.start settings bindings, log⟩ moments
      (∀ a ∈ st.scene.now.tracker.held, a.isPhysical = true) ∧
      st.scene.ShowsRaw st.scene.now.tracker.pressed st.scene.now.tracker.released
        st.scene.now.tracker.active ∧
      ∀ shot ∈ st.shots,
        shot.scene.ShowsRaw shot.taken.pressed shot.taken.released shot.taken.active := by
  refine ⟨fun env settings loaded => Settings.load_threshold loaded, ?_⟩
  intro settings bindings log moments notNegative raw
  obtain ⟨within, withinNow⟩ := story_within (·.isPhysical = true) settings bindings log moments
    (fun a physical => physical) (fun a member => absurd member (raw (.atom a)))
  obtain ⟨sound, soundNow⟩ := story_sound ⟨.start settings bindings, log⟩ moments
    (Tracker.start_fresh settings bindings)
  obtain ⟨kept, _, keptNow⟩ := story_settings ⟨.start settings bindings, log⟩ moments
  refine ⟨withinNow.held, soundNow.showsRaw withinNow (keptNow ▸ notNegative), ?_⟩
  intro shot member
  have here := sound shot member
  rw [here.active, here.pressed, here.released]
  exact here.showsRaw (within shot member) ((kept shot member).2 ▸ notNegative)

/-- The pointer goes to the right, and in the next frame a key is pressed. -/
theorem raw_input_shift :
    let moments : List (Moment String) := [.occur (.operation (.consume
        [.pointer .move (.real 0.0) (.real 0.0) .null,
          .pointer .move (.real 5.0) (.real 0.0) .null])), .snapshot 1,
      .occur (.windowKey .standard (.whole 340) .null (.whole 1)), .snapshot 2]
    ∃ first second, (story ⟨.start .standard none, none⟩ moments).shots = [first, second] ∧
      first.taken.active.members = [.movement (.toward .right)] ∧
      second.taken.active.members = [.key (.modifier .shift (some .left))] ∧
      first.scene.ShowsRaw first.taken.pressed first.taken.released first.taken.active ∧
      second.scene.ShowsRaw second.taken.pressed second.taken.released second.taken.active := by
  intro moments
  have shown := (raw_input.2 .standard none none moments
    (Number.not_lt_zero_of_sign (x := 0) (by decide) (by decide)) (by simp [moments])).2.2
  obtain ⟨first, second, shots⟩ := List.length_eq_two.mp
    (by decide +kernel : (story ⟨.start .standard none, none⟩ moments).shots.length = 2)
  have active : (story ⟨.start .standard none, none⟩ moments).shots.map (·.taken.active.members) =
      [[.movement (.toward .right)], [.key (.modifier .shift (some .left))]] := by decide +kernel
  change ∀ shot ∈ (story ⟨.start .standard none, none⟩ moments).shots, _ at shown
  rw [shots] at shown active
  obtain ⟨here, later⟩ := List.cons.inj active
  exact ⟨first, second, shots, here, (List.cons.inj later).1, shown first (by simp),
    shown second (by simp)⟩

end InputChords
