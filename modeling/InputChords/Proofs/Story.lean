import InputChords.Proofs.Turns

/-! Runs of a tracker as the scenes between its snapshots, each with what occurred in it and with
the turns that this came to. -/

namespace InputChords

variable {κ : Type}

/-- A stretch of a run in which no snapshot is taken. -/
structure Scene (κ : Type) where
  opened : Tracker κ
  told : List (Occurrence κ)
  turns : List (Turn κ)
  now : Session κ

structure Shot (κ : Type) where
  scene : Scene κ
  taken : Snapshot κ

structure Story (κ : Type) where
  shots : List (Shot κ)
  scene : Scene κ

def Scene.start (s : Session κ) : Scene κ := ⟨s.tracker, [], [], s⟩

namespace Story

def next [DecidableEq κ] [Quotable κ] (st : Story κ) : Moment κ → Story κ
  | .occur o =>
    { st with scene :=
      ⟨st.scene.opened, st.scene.told ++ [o], st.scene.turns ++ o.turns st.scene.now,
        o.act.after st.scene.now⟩ }
  | .snapshot frame =>
    match Act.snapshot frame st.scene.now with
    | .ok taken left => ⟨st.shots ++ [⟨st.scene, taken⟩], .start left⟩
    | .error _ left => { st with scene := { st.scene with now := left } }

def turns (st : Story κ) : List (Turn κ) := st.shots.flatMap (·.scene.turns) ++ st.scene.turns

end Story

/-- The turns of a scene lead through it, and they are due to what occurred in it. -/
structure Scene.Sound (moments : List (Moment κ)) (scene : Scene κ) : Prop where
  fresh : scene.opened.Fresh
  chained : Chained id scene.opened scene.turns scene.now.tracker
  told : ∀ turn ∈ scene.turns, ∃ o ∈ scene.told, o.Calls turn.deed
  occurred : ∀ o ∈ scene.told, .occur o ∈ moments

structure Shot.Sound (moments : List (Moment κ)) (shot : Shot κ) : Prop extends
    shot.scene.Sound moments where
  active : shot.taken.active = shot.scene.now.tracker.active
  pressed : shot.taken.pressed = shot.scene.now.tracker.pressed
  released : shot.taken.released = shot.scene.now.tracker.released

theorem Scene.sound_start (moments : List (Moment κ)) (s : Session κ) (fresh : s.tracker.Fresh) :
    (Scene.start s).Sound moments where
  fresh := fresh
  chained := rfl
  told := by simp [start]
  occurred := by simp [start]

structure Tracker.Outlives (t u : Tracker κ) : Prop where
  settings : u.settings = t.settings
  clock : u.clock = t.clock
  held : u.held = t.held
  lastLeftPress : u.lastLeftPress = t.lastLeftPress
  pointer : u.pointer = t.pointer

theorem Tracker.snapshot_keeps [DecidableEq κ] {t u : Tracker κ} {frame : Int} {taken : Snapshot κ}
    (done : t.snapshot frame = .ok (taken, u)) : t.Outlives u := by
  rw [snapshot] at done
  cases attached : t.bindings with
  | none =>
      rw [attached] at done
      cases done
      exact ⟨rfl, rfl, rfl, rfl, rfl⟩
  | some b =>
      rw [attached] at done
      obtain ⟨now, _, done⟩ := bind_eq_ok done
      cases done
      exact ⟨rfl, rfl, rfl, rfl, rfl⟩

variable [DecidableEq κ] [Quotable κ]

def story (s : Session κ) (moments : List (Moment κ)) : Story κ :=
  moments.foldl Story.next ⟨[], .start s⟩

theorem story_induction (s : Session κ) (moments : List (Moment κ)) {motive : Story κ → Prop}
    (start : motive ⟨[], .start s⟩)
    (step : ∀ moment ∈ moments, ∀ st, motive st → motive (st.next moment)) :
    motive (story s moments) := by
  rw [story]
  generalize (⟨[], .start s⟩ : Story κ) = st at start
  induction moments generalizing st with
  | nil => exact start
  | cons moment rest ih =>
      refine ih (fun later member => step later (.tail _ member)) _ ?_
      exact step moment (List.mem_cons_self ..) st start

theorem Story.next_of_error (st : Story κ) (frame : Int) (fault : Fault)
    (failed : st.scene.now.tracker.snapshot frame = .error fault) :
    st.next (.snapshot frame) = st := by
  rw [next, Act.snapshot_eq, failed]

theorem Story.next_of_ok (st : Story κ) (frame : Int) (taken : Snapshot κ) (t : Tracker κ)
    (done : st.scene.now.tracker.snapshot frame = .ok (taken, t)) :
    st.next (.snapshot frame) =
      ⟨st.shots ++ [⟨st.scene, taken⟩], .start { st.scene.now with tracker := t }⟩ := by
  rw [next, Act.snapshot_eq, done]

theorem story_sound (s : Session κ) (moments : List (Moment κ)) (fresh : s.tracker.Fresh) :
    (∀ shot ∈ (story s moments).shots, shot.Sound moments) ∧
      (story s moments).scene.Sound moments := by
  refine story_induction s moments
    (motive := fun st => (∀ shot ∈ st.shots, shot.Sound moments) ∧ st.scene.Sound moments)
    ⟨by simp, Scene.sound_start moments s fresh⟩ ?_
  rintro moment member st ⟨shots, scene⟩
  cases moment with
  | occur o =>
      refine ⟨shots, scene.fresh, scene.chained.append (o.chained_turns st.scene.now), ?_, ?_⟩
      · intro turn present
        rcases List.mem_append.mp present with before | here
        · obtain ⟨earlier, told, called⟩ := scene.told turn before
          exact ⟨earlier, List.mem_append_left _ told, called⟩
        · exact ⟨o, List.mem_append_right _ (List.mem_singleton_self o),
            o.calls_of_mem_turns st.scene.now turn here⟩
      · intro other present
        rcases List.mem_append.mp present with before | here
        · exact scene.occurred other before
        · cases List.mem_singleton.mp here
          exact member
  | snapshot frame =>
      cases done : st.scene.now.tracker.snapshot frame with
      | error fault =>
          rw [st.next_of_error frame fault done]
          exact ⟨shots, scene⟩
      | ok result =>
          obtain ⟨taken, t⟩ := result
          obtain ⟨active, pressed, released, _, freshNext⟩ :=
            Tracker.snapshot_eq_ok _ _ frame taken done
          rw [st.next_of_ok frame taken t done]
          refine ⟨?_, Scene.sound_start moments _ freshNext⟩
          intro shot present
          rcases List.mem_append.mp present with before | here
          · exact shots shot before
          · cases List.mem_singleton.mp here
            exact ⟨scene, active, pressed, released⟩

section Invariants

variable (s : Session κ) (moments : List (Moment κ))

theorem story_keeps {motive : Tracker κ → Prop} (start : motive s.tracker)
    (turn : ∀ o, .occur o ∈ moments → ∀ d, o.Calls d → ∀ t, motive t → motive (d.after t))
    (frame : ∀ n t taken u, motive t → t.snapshot n = .ok (taken, u) → motive u) :
    (∀ shot ∈ (story s moments).shots,
      motive shot.scene.opened ∧ motive shot.scene.now.tracker) ∧
    motive (story s moments).scene.opened ∧ motive (story s moments).scene.now.tracker := by
  refine story_induction s moments
    (motive := fun st =>
      (∀ shot ∈ st.shots, motive shot.scene.opened ∧ motive shot.scene.now.tracker) ∧
        motive st.scene.opened ∧ motive st.scene.now.tracker)
    ⟨by simp, start, start⟩ ?_
  rintro moment member st ⟨shots, opened, now⟩
  cases moment with
  | occur o =>
      refine ⟨shots, opened, ((o.chained_turns st.scene.now).keeps ?_ now).2⟩
      intro here present
      exact turn o member here.deed (o.calls_of_mem_turns _ here present) here.before
  | snapshot n =>
      cases done : st.scene.now.tracker.snapshot n with
      | error fault =>
          rw [st.next_of_error n fault done]
          exact ⟨shots, opened, now⟩
      | ok result =>
          obtain ⟨taken, t⟩ := result
          have kept := frame n _ taken t now done
          rw [st.next_of_ok n taken t done]
          refine ⟨?_, kept, kept⟩
          intro shot present
          rcases List.mem_append.mp present with before | here
          · exact shots shot before
          · cases List.mem_singleton.mp here
            exact ⟨opened, now⟩

theorem story_settings :
    (∀ shot ∈ (story s moments).shots,
      shot.scene.opened.settings = s.tracker.settings ∧
        shot.scene.now.tracker.settings = s.tracker.settings) ∧
    (story s moments).scene.opened.settings = s.tracker.settings ∧
      (story s moments).scene.now.tracker.settings = s.tracker.settings :=
  story_keeps s moments (motive := (·.settings = s.tracker.settings)) rfl
    (fun _ _ d _ t same => (d.settings_after t).trans same)
    (fun _ _ _ _ same done => (Tracker.snapshot_keeps done).settings.trans same)

/-- The turns follow each other through the whole run, as far as is seen what snapshots keep. -/
theorem story_chained {α : Type} (seen : Tracker κ → α)
    (frame : ∀ n t taken u, t.snapshot n = .ok (taken, u) → seen u = seen t) :
    Chained seen (seen s.tracker) (story s moments).turns
      (seen (story s moments).scene.now.tracker) := by
  refine story_induction s moments
    (motive := fun st => Chained seen (seen s.tracker) st.turns (seen st.scene.now.tracker)) rfl ?_
  intro moment member st chained
  cases moment with
  | occur o =>
      have later : Chained seen _ (o.turns st.scene.now) _ := (o.chained_turns st.scene.now).part
      have whole := chained.append later
      rwa [Story.turns, List.append_assoc] at whole
  | snapshot n =>
      cases done : st.scene.now.tracker.snapshot n with
      | error fault =>
          rw [st.next_of_error n fault done]
          exact chained
      | ok result =>
          obtain ⟨taken, t⟩ := result
          rw [st.next_of_ok n taken t done]
          -- The scene goes to the shots with its turns, and the next one has none yet.
          have turns : (⟨st.shots ++ [⟨st.scene, taken⟩],
              .start { st.scene.now with tracker := t }⟩ : Story κ).turns = st.turns := by
            simp [Story.turns, Scene.start]
          rw [turns]
          have kept := frame n _ taken t done
          show Chained seen _ _ (seen t)
          rwa [kept]

end Invariants

end InputChords
