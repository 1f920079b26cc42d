import InputChords.Proofs.DoubleClick
import InputChords.Proofs.MotionAtoms
import InputChords.Proofs.RawInput

/-! Settings that are read cannot make anything move by themselves. The threshold is a number that
is not negative, so a frame shows a movement only if the pointer moved far enough along its axis,
and nothing but what is held or was pressed if nothing moved at all. -/

namespace InputChords

variable {κ : Type}

namespace Number

def AtLeastZero (n : Number) : Prop := ∃ x : Float, n = .real x ∧ x.isNaN = false ∧ 0.0 ≤ x

/-- A distance that is zero, or at most as long as the threshold in either direction. -/
def Covers (threshold : Number) (distance : Float) : Prop :=
  (Number.real distance).eq .zero = true ∨
    threshold.neg.le (.real distance) = true ∧ (Number.real distance).le threshold = true

theorem Covers.not_beyond {threshold : Number} {distance : Float}
    (covers : threshold.Covers distance) (notNegative : threshold.lt .zero = false) :
    (Number.real distance).lt threshold.neg = false ∧ threshold.lt (.real distance) = false := by
  rcases covers with zero | ⟨above, below⟩
  · have sign := sign_of_eq_zero zero
    constructor
    · rw [Bool.eq_false_iff]
      intro beyond
      rw [sign_of_beyond_neg notNegative beyond] at sign
      cases sign
    · rw [Bool.eq_false_iff]
      intro beyond
      rw [sign_of_beyond notNegative beyond] at sign
      cases sign
  · exact ⟨not_lt_of_le above, not_lt_of_le below⟩

end Number

def Environment.OfTexts (env : Environment) : Prop := ∀ entry ∈ env, ∃ s, entry.2 = .text s

theorem Environment.OfTexts.read {env : Environment} (texts : env.OfTexts) (name : String) :
    ∃ raw, env.read name = .ok raw := by
  rw [Environment.read]
  cases found : Named.get? env name with
  | none => exact ⟨none, rfl⟩
  | some v =>
      obtain ⟨entry, member, rfl⟩ := List.mem_map.mp (mem_of_lookup found)
      obtain ⟨s, text⟩ := texts entry member
      rw [text]
      exact ⟨some s, rfl⟩

namespace Settings

theorem load_ofTexts {env : Environment} (texts : env.OfTexts) :
    ∃ settings, load env = .ok settings := by
  obtain ⟨parse, readParse⟩ := texts.read "CHORDBIND_PARSE_TRACE"
  obtain ⟨input, readInput⟩ := texts.read "CHORDBIND_INPUT_TRACE"
  obtain ⟨double, readDouble⟩ := texts.read "CHORDBIND_DOUBLE_CLICK_MS"
  obtain ⟨movement, readMovement⟩ := texts.read "CHORDBIND_MOVEMENT_THRESHOLD"
  have level : ∃ name, levelName env standard.logLevel = .ok name := by
    obtain ⟨specific, readSpecific⟩ := texts.read "CHORDBIND_LOG_LEVEL"
    obtain ⟨general, readGeneral⟩ := texts.read "LOG_LEVEL"
    rw [levelName, readSpecific, readGeneral]
    cases specific <;> exact ⟨_, rfl⟩
  obtain ⟨name, readName⟩ := level
  rw [load, readParse, readInput, readDouble, readMovement, readName]
  exact ⟨_, rfl⟩

theorem clampReal_atLeastZero (x : Float) : (Number.real (clampReal x)).AtLeastZero := by
  refine ⟨clampReal x, rfl, ?_⟩
  rw [clampReal]
  by_cases above : 0.0 < x
  · rw [if_pos above]
    have order := Number.compare_of_lt above
    constructor
    · cases unpacked : x.toModel.unpack with
      | notANumber =>
          rw [unpacked] at order
          cases order
      | _ => simp [Float.isNaN, Float.Model.isNaN, unpacked, Float.Model.UnpackedFloat.isNaN]
    · have atMost : Float.Model.UnpackedFloat.le (0.0 : Float).toModel.unpack x.toModel.unpack =
          true := by
        rw [Float.Model.UnpackedFloat.le, order]
        rfl
      exact decide_eq_true atMost
  · rw [if_neg above]
    decide

theorem load_atLeastZero {env : Environment} {settings : Settings}
    (loaded : load env = .ok settings) :
    settings.doubleClickMs.AtLeastZero ∧ settings.movementThreshold.AtLeastZero := by
  have real (raw : Option String) (fallback : Float) :
      (Number.real (realOf raw fallback)).AtLeastZero := by
    cases raw <;> exact clampReal_atLeastZero _
  obtain ⟨parseTrace, _, loaded⟩ := bind_eq_ok loaded
  obtain ⟨inputTrace, _, loaded⟩ := bind_eq_ok loaded
  obtain ⟨doubleClickMs, _, loaded⟩ := bind_eq_ok loaded
  obtain ⟨threshold, _, loaded⟩ := bind_eq_ok loaded
  obtain ⟨level, _, loaded⟩ := bind_eq_ok loaded
  cases loaded
  exact ⟨real _ _, real _ _⟩

end Settings

def Direction.axis : Direction → Axis
  | left | right => .horizontal
  | up | down => .vertical

def Course.axis : Course → Axis
  | toward d => d.axis
  | along axis => axis

def Scene.distance (scene : Scene κ) : Axis → Float
  | .horizontal => total ((scene.turns.filterMap Turn.stroke?).flatMap Stroke.across)
  | .vertical => total ((scene.turns.filterMap Turn.stroke?).flatMap Stroke.along)

/-- A call that moves nothing, does not turn the wheel and does not take the left button down. -/
structure Turn.Calm (turn : Turn κ) : Prop where
  stroke : turn.stroke? = none
  scroll : turn.scroll? = none
  click : turn.isClick = false

theorem Turn.Calm.idle_after {turn : Turn κ} (calm : turn.Calm) (idle : turn.before.Idle) :
    turn.after.Idle := by
  obtain ⟨motion, wheel, dragged⟩ := turn.moves
  rw [calm.stroke] at motion
  rw [calm.scroll] at wheel
  have drags : turn.drags = false := by rw [Turn.drags, calm.stroke]; rfl
  refine ⟨motion.trans idle.motion, wheel.trans idle.wheel, ?_, ?_⟩
  · rw [dragged, idle.dragged, drags]
    rfl
  · rcases turn.click_cases with ⟨_, _, same⟩ | ⟨click, _⟩
    · exact same.trans idle.doubleClicked
    · rw [calm.click] at click
      cases click

namespace Scene.Sound

variable {moments : List (Moment κ)} {scene : Scene κ} (sound : scene.Sound moments)

include sound

theorem motion_eq :
    scene.now.tracker.motion = ⟨scene.distance .horizontal, scene.distance .vertical⟩ := by
  have motion := sound.chained.moves.1
  rw [sound.fresh.motion, Travel.foldl_add] at motion
  exact motion

theorem active_of_calm (calm : ∀ turn ∈ scene.turns, turn.Calm)
    (notNegative : scene.now.tracker.settings.movementThreshold.lt .zero = false) :
    scene.now.tracker.active = scene.now.tracker.held ∪ scene.now.tracker.pressed := by
  have idle := (sound.chained.keeps
    (fun turn member => (calm turn member).idle_after) sound.fresh.idle).2
  apply AtomSet.ext
  intro a
  rw [Tracker.mem_active, AtomSet.mem_union]
  simp [idle.not_mem_derived notNegative a]

theorem not_mem_derived (c : Course)
    (notNegative : scene.now.tracker.settings.movementThreshold.lt .zero = false)
    (covered : scene.now.tracker.settings.movementThreshold.Covers (scene.distance c.axis)) :
    .movement c ∉ scene.now.tracker.derived := by
  obtain ⟨below, above⟩ := covered.not_beyond notNegative
  cases c with
  | along axis => exact (Tracker.along_not_mem_derived _ axis).1
  | toward d =>
      rw [Tracker.movement_mem_derived _ notNegative, sound.motion_eq]
      cases d with
      | up => exact Bool.eq_false_iff.mp below
      | down => exact Bool.eq_false_iff.mp above
      | left => exact Bool.eq_false_iff.mp below
      | right => exact Bool.eq_false_iff.mp above

end Scene.Sound

/-- What is shown of a scene: no movement that the pointer did not make, unless it was pressed by
hand, and where nothing moves only what is held or was pressed. -/
structure Scene.ShowsRest (scene : Scene κ) (threshold : Number) (byHand : Atom → Prop)
    (pressed active : AtomSet) : Prop where
  movement : ∀ c : Course, ¬ byHand (.movement c) → threshold.Covers (scene.distance c.axis) →
    .movement c ∉ active
  calm : (∀ turn ∈ scene.turns, turn.Calm) → active = scene.now.tracker.held ∪ pressed

/-- From any environment of texts settings are read, and both their numbers are real numbers that
are not negative. In every run with them a frame whose distance along an axis is zero or within the
threshold shows no movement along this axis, if none was pressed by hand, and a frame without
motion, wheel and left press shows exactly what is held or was pressed. -/
theorem rest_shown [DecidableEq κ] [Quotable κ] (env : Environment) :
    (env.OfTexts → ∃ settings, Settings.load env = .ok settings) ∧
    ∀ settings, Settings.load env = .ok settings →
      settings.doubleClickMs.AtLeastZero ∧ settings.movementThreshold.AtLeastZero ∧
      ∀ (bindings : Option (Bindings κ)) (log : Option (List Log.Record))
        (moments : List (Moment κ)),
        let st := story ⟨.start settings bindings, log⟩ moments
        let byHand (a : Atom) := .occur (.operation (.press (.atom a))) ∈ moments
        st.scene.ShowsRest settings.movementThreshold byHand st.scene.now.tracker.pressed
          st.scene.now.tracker.active ∧
        ∀ shot ∈ st.shots,
          shot.scene.ShowsRest settings.movementThreshold byHand shot.taken.pressed
            shot.taken.active := by
  refine ⟨Settings.load_ofTexts, ?_⟩
  intro settings loaded
  obtain ⟨doubleClickMs, movementThreshold⟩ := Settings.load_atLeastZero loaded
  refine ⟨doubleClickMs, movementThreshold, ?_⟩
  intro bindings log moments st byHand
  have notNegative := Settings.load_threshold loaded
  obtain ⟨sound, soundNow⟩ := story_sound ⟨.start settings bindings, log⟩ moments
    (Tracker.start_fresh settings bindings)
  obtain ⟨kept, _, keptNow⟩ := story_settings ⟨.start settings bindings, log⟩ moments
  have within (c : Course) (free : ¬ byHand (.movement c)) :=
    story_within (· ≠ .movement c) settings bindings log moments
      (by rintro b physical rfl; cases physical) (by rintro b pressed rfl; exact free pressed)
  have rests (scene : Scene κ) (here : scene.Sound moments)
      (same : scene.now.tracker.settings = settings)
      (apart : ∀ c, ¬ byHand (.movement c) → scene.now.tracker.Within (· ≠ .movement c)) :
      scene.ShowsRest settings.movementThreshold byHand scene.now.tracker.pressed
        scene.now.tracker.active := by
    rw [← same] at notNegative ⊢
    refine ⟨?_, fun calm => here.active_of_calm calm notNegative⟩
    intro c free covered
    rw [(apart c free).mem_active_iff (by simp)]
    exact here.not_mem_derived c notNegative covered
  refine ⟨rests _ soundNow keptNow fun c free => (within c free).2, ?_⟩
  intro shot member
  rw [(sound shot member).active, (sound shot member).pressed]
  exact rests _ (sound shot member).toSound (kept shot member).2
    fun c free => (within c free).1 shot member

/-- A movement of two below a threshold of two and a half, then a key alone. -/
theorem rest_shown_short_move :
    let env : Environment := [("CHORDBIND_DOUBLE_CLICK_MS", .text "nan"),
      ("CHORDBIND_MOVEMENT_THRESHOLD", .text " 2.5\n")]
    let moments : List (Moment String) := [
      .occur (.operation (.addMotion (.real 2.0) (.real (-0.0)))), .snapshot 1,
      .occur (.operation (.press (.atom (.key .tab)))), .snapshot 2]
    ∃ settings first second, Settings.load env = .ok settings ∧
      settings.doubleClickMs.AtLeastZero ∧ settings.movementThreshold.AtLeastZero ∧
      (story ⟨.start settings none, none⟩ moments).shots = [first, second] ∧
      .movement (.toward .right) ∉ first.taken.active ∧
      second.taken.active = second.scene.now.tracker.held ∪ second.taken.pressed := by
  intro env moments
  obtain ⟨settings, loaded⟩ := (rest_shown (κ := String) env).1 (by
    intro entry member
    rcases List.mem_pair.mp member with rfl | rfl <;> exact ⟨_, rfl⟩)
  obtain ⟨doubleClickMs, movementThreshold, rests⟩ :=
    (rest_shown (κ := String) env).2 settings loaded
  obtain ⟨_, rested⟩ := rests none none moments
  have read : (Settings.load env).toOption =
      some { Settings.standard with
        doubleClickMs := .real 0.0, movementThreshold := .real 2.5 } := by
    decide +kernel
  rw [loaded] at read
  cases read
  let st := story ⟨.start { Settings.standard with
    doubleClickMs := .real 0.0, movementThreshold := .real 2.5 } none, none⟩ moments
  obtain ⟨first, second, shots⟩ := List.length_eq_two.mp
    (by decide +kernel : st.shots.length = 2)
  have distances : st.shots.map (·.scene.distance .horizontal) = [2.0, 0.0] := by decide +kernel
  have calm : st.shots.map (fun shot => shot.scene.turns.all fun turn =>
      turn.stroke?.isNone && turn.scroll?.isNone && !turn.isClick) = [false, true] := by
    decide +kernel
  change ∀ shot ∈ st.shots, _ at rested
  rw [shots] at rested distances calm
  have distance : first.scene.distance .horizontal = 2.0 := (List.cons.inj distances).1
  have quiet := (List.cons.inj (List.cons.inj calm).2).1
  refine ⟨_, first, second, loaded, doubleClickMs, movementThreshold, shots, ?_, ?_⟩
  · apply (rested first (by simp)).movement (.toward .right) (by simp [moments])
    show Number.Covers _ (first.scene.distance .horizontal)
    rw [distance]
    exact .inr (by decide +kernel)
  · apply (rested second (by simp)).calm
    intro turn member
    have here := List.all_eq_true.mp quiet turn member
    simp only [Bool.and_eq_true, Option.isNone_iff_eq_none, Bool.not_eq_true'] at here
    exact ⟨here.1.1, here.1.2, here.2⟩

end InputChords
