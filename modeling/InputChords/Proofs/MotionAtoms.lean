import InputChords.Proofs.Physical

/-! The atoms of pointer, wheel and drag as functions of one frame: the directions in which its
distances add up, and whether one movement of it was long while the left button was held. -/

namespace InputChords

variable {κ : Type}

/-- Without its sign the value is a number above the threshold. -/
def Value.Exceeds (threshold : Number) (v : Value) : Prop :=
  ∃ n, v.magnitude = .ok n ∧ threshold.lt n = true

theorem Act.exceeds_eq_ok {threshold : Number} {dx dy : Value} {far : Bool}
    (asked : exceeds threshold dx dy = .ok far) :
    far = true ↔ dx.Exceeds threshold ∨ dy.Exceeds threshold := by
  obtain ⟨x, readX, asked⟩ := bind_eq_ok asked
  cases beyond : threshold.lt x with
  | true =>
      rw [if_pos beyond] at asked
      cases asked
      exact ⟨fun _ => .inl ⟨x, readX, beyond⟩, fun _ => rfl⟩
  | false =>
      rw [if_neg (Bool.eq_false_iff.mp beyond)] at asked
      obtain ⟨y, readY, asked⟩ := bind_eq_ok asked
      cases asked
      constructor
      · intro here
        exact .inr ⟨y, readY, here⟩
      · rintro (⟨n, read, here⟩ | ⟨n, read, here⟩)
        · rw [readX] at read
          cases read
          rw [beyond] at here
          cases here
        · rw [readY] at read
          cases read
          exact here

theorem Stroke.isLong_iff (threshold : Number) (m : Stroke) :
    m.isLong threshold = true ↔ (m.outcome threshold).isOk = true ∧
      (m.dx.Exceeds threshold ∨ m.dy.Exceeds threshold) := by
  rw [isLong]
  cases asked : m.outcome threshold with
  | error fault => simp [Except.isOk, Except.toBool]
  | ok far =>
      obtain ⟨x, _, asked⟩ := bind_eq_ok asked
      obtain ⟨y, _, asked⟩ := bind_eq_ok asked
      simp [Except.isOk, Except.toBool, Act.exceeds_eq_ok asked]

def total (distances : List Float) : Float := distances.foldl (· + ·) 0.0

theorem Travel.foldl_add (ms : List Stroke) (t : Travel) :
    ms.foldl Travel.add t =
      ⟨(ms.flatMap Stroke.across).foldl (· + ·) t.dx,
        (ms.flatMap Stroke.along).foldl (· + ·) t.dy⟩ := by
  induction ms generalizing t with
  | nil => rfl
  | cons m rest ih =>
      rw [List.foldl_cons, ih, List.flatMap_cons, List.flatMap_cons, List.foldl_append,
        List.foldl_append]
      rfl

namespace Turn

def stroke? (turn : Turn κ) : Option Stroke := turn.deed.stroke? turn.before

def scroll? (turn : Turn κ) : Option Stroke := turn.deed.scroll?

def drags (turn : Turn κ) : Bool :=
  turn.stroke?.any fun m => m.isLong turn.before.settings.movementThreshold &&
    decide (Tracker.leftClick ∈ turn.before.held)

theorem moves (turn : Turn κ) :
    turn.after.motion = turn.stroke?.toList.foldl Travel.add turn.before.motion ∧
    turn.after.wheel = turn.scroll?.toList.foldl Travel.add turn.before.wheel ∧
    turn.after.dragged = (turn.before.dragged || turn.drags) := by
  obtain ⟨d, t⟩ := turn
  have leaves := d.leaves_after t
  rw [after, stroke?, scroll?, drags, stroke?]
  generalize d.after t = u at leaves
  cases leaves with
  | nothing _ unmoved unturned =>
      rw [unmoved, unturned]
      exact ⟨rfl, rfl, (Bool.or_false _).symm⟩
  | click second free timed => cases second <;> exact ⟨rfl, rfl, (Bool.or_false _).symm⟩
  | arrive x y place unmoved =>
      rw [unmoved]
      exact ⟨rfl, rfl, (Bool.or_false _).symm⟩
  | move x y place m moved =>
      rw [moved]
      exact ⟨rfl, rfl, rfl⟩
  | addMotion dx dy => exact ⟨rfl, rfl, rfl⟩
  | _ => exact ⟨rfl, rfl, (Bool.or_false _).symm⟩

theorem outcome_of_stroke {turn : Turn κ} {m : Stroke} (told : turn.stroke? = some m) :
    (m.outcome turn.before.settings.movementThreshold).isOk = true ↔
      turn.deed.outcome turn.before = .ok () := by
  obtain ⟨d, t⟩ := turn
  cases d with
  | addMotion dx dy =>
      cases told
      show _ ↔ (Stroke.outcome _ _).bind _ = _
      cases Stroke.outcome t.settings.movementThreshold ⟨dx, dy⟩ with
      | error fault => constructor <;> intro succeeds <;> cases succeeds
      | ok far => exact ⟨fun _ => rfl, fun _ => rfl⟩
  | moveTo x y =>
      rw [Turn.stroke?, Deed.stroke?] at told
      rw [Deed.outcome]
      cases readX : x.toReal with
      | error fault => simp [readX] at told
      | ok across =>
          cases readY : y.toReal with
          | error fault => simp [readX, readY] at told
          | ok along =>
              simp only [readX, readY] at told
              obtain ⟨origin, _, rfl⟩ := Option.map_eq_some_iff.mp told
              refine ⟨fun _ => rfl, fun _ => ?_⟩
              show (Act.exceeds _ (.real _) (.real _)).isOk = true
              rw [Act.exceeds_real]
              rfl
  | _ => cases told

/-- A movement that does not fail drags if one of its distances is above the threshold while the
left button is held. -/
theorem drags_iff (turn : Turn κ) :
    turn.drags = true ↔ turn.deed.outcome turn.before = .ok () ∧
      ∃ m, turn.stroke? = some m ∧ Tracker.leftClick ∈ turn.before.held ∧
        (m.dx.Exceeds turn.before.settings.movementThreshold ∨
          m.dy.Exceeds turn.before.settings.movementThreshold) := by
  rw [drags]
  cases told : turn.stroke? with
  | none => simp
  | some m =>
      rw [← outcome_of_stroke told]
      simp [Stroke.isLong_iff, and_comm, and_left_comm]

end Turn

theorem Chained.moves {t u : Tracker κ} {turns : List (Turn κ)} (chained : Chained id t turns u) :
    u.motion = (turns.filterMap Turn.stroke?).foldl Travel.add t.motion ∧
    u.wheel = (turns.filterMap Turn.scroll?).foldl Travel.add t.wheel ∧
    u.dragged = (t.dragged || turns.any Turn.drags) := by
  induction turns generalizing t with
  | nil =>
      cases chained
      exact ⟨rfl, rfl, (Bool.or_false _).symm⟩
  | cons turn rest ih =>
      obtain ⟨rfl, later⟩ := chained
      change Chained id turn.after rest u at later
      obtain ⟨motion, wheel, dragged⟩ := turn.moves
      obtain ⟨motionLater, wheelLater, draggedLater⟩ := ih later
      refine ⟨?_, ?_, ?_⟩
      · rw [motionLater]
        show _ = List.foldl _ turn.before.motion _
        rw [motion, List.filterMap_cons]
        cases turn.stroke? <;> rfl
      · rw [wheelLater]
        show _ = List.foldl _ turn.before.wheel _
        rw [wheel, List.filterMap_cons]
        cases turn.scroll? <;> rfl
      · rw [draggedLater]
        show (turn.after.dragged || _) = (turn.before.dragged || _)
        rw [dragged, List.any_cons, Bool.or_assoc]

def Atom.isMotion : Atom → Bool
  | movement _ | wheel _ | drag => true
  | _ => false

/-- What one scene shows of motion. -/
structure Shot.ShowsMotion (threshold : Number) (shot : Shot κ) : Prop where
  movement : ∀ d : Direction, .movement (.toward d) ∈ shot.taken.active ↔
    d.Beyond threshold.neg threshold
      (total ((shot.scene.turns.filterMap Turn.stroke?).flatMap Stroke.across))
      (total ((shot.scene.turns.filterMap Turn.stroke?).flatMap Stroke.along))
  wheel : ∀ d : Direction, .wheel (.toward d) ∈ shot.taken.active ↔
    d.Beyond .zero .zero
      (total ((shot.scene.turns.filterMap Turn.scroll?).flatMap Stroke.across))
      (total ((shot.scene.turns.filterMap Turn.scroll?).flatMap Stroke.along))
  drag : .drag ∈ shot.taken.active ↔ ∃ turn ∈ shot.scene.turns,
    turn.deed.outcome turn.before = .ok () ∧
      ∃ m, turn.stroke? = some m ∧ Tracker.leftClick ∈ turn.before.held ∧
        (m.dx.Exceeds threshold ∨ m.dy.Exceeds threshold)
  toward : ∀ axis, .movement (.along axis) ∉ shot.taken.active ∧
    .wheel (.along axis) ∉ shot.taken.active

/-- In every frame the atoms of pointer and wheel show where the distances of that frame add up, and
there is a drag if one of its movements was long while the left button was held. A call that fails
counts with the distances it could read before, and it is no drag. -/
theorem motion_atoms [DecidableEq κ] [Quotable κ] (settings : Settings)
    (bindings : Option (Bindings κ)) (log : Option (List Log.Record)) (moments : List (Moment κ))
    (notNegative : settings.movementThreshold.lt .zero = false)
    (byHand : ∀ a : Atom, a.isMotion = true → .occur (.operation (.press (.atom a))) ∉ moments) :
    ∀ shot ∈ (story ⟨.start settings bindings, log⟩ moments).shots,
      shot.ShowsMotion settings.movementThreshold := by
  intro shot member
  let s : Session κ := ⟨.start settings bindings, log⟩
  have sound := (story_sound s moments (Tracker.start_fresh settings bindings)).1 shot member
  obtain ⟨opened, closing⟩ := (story_settings s moments).1 shot member
  have within := (story_within (·.isMotion = false) settings bindings log moments
    (by intro a physical; cases a <;> first | rfl | cases physical)
    (by intro a pressed; exact Bool.eq_false_iff.mpr fun motion => byHand a motion pressed)).1
      shot member
  obtain ⟨motion, wheel, dragged⟩ := sound.chained.moves
  rw [sound.fresh.motion, Travel.foldl_add] at motion
  rw [sound.fresh.wheel, Travel.foldl_add] at wheel
  rw [sound.fresh.dragged, Bool.false_or] at dragged
  have kept := (sound.chained.keeps (motive := (·.settings = settings))
    (fun turn _ same => (turn.deed.settings_after turn.before).trans same) opened).1
  have active (a : Atom) (isMotion : a.isMotion = true) :
      a ∈ shot.taken.active ↔ a ∈ shot.scene.now.tracker.derived := by
    rw [sound.active, within.mem_active_iff (by simp [isMotion])]
  have threshold : shot.scene.now.tracker.settings.movementThreshold =
      settings.movementThreshold := congrArg Settings.movementThreshold closing
  refine ⟨?_, ?_, ?_, ?_⟩
  · intro d
    rw [active _ rfl, Tracker.movement_mem_derived _ (threshold ▸ notNegative), threshold, motion]
    rfl
  · intro d
    rw [active _ rfl, Tracker.wheel_mem_derived, wheel]
    rfl
  · rw [active _ rfl, Tracker.drag_mem_derived, dragged, List.any_eq_true]
    refine exists_congr fun turn => and_congr_right fun present => ?_
    rw [turn.drags_iff, kept turn present]
  · intro axis
    rw [active _ rfl, active _ rfl]
    exact Tracker.along_not_mem_derived _ axis

/-- The pointer goes back and forth while the left button is held. -/
theorem motion_atoms_back_and_forth :
    let moments : List (Moment String) := [.occur (.operation (.press (.atom (.click .left)))),
      .occur (.operation (.addMotion (.real 5.0) (.real 0.0))),
      .occur (.operation (.addMotion (.real (-5.0)) (.real 0.0))),
      .occur (.operation (.release (.atom (.click .left)))), .snapshot 1, .snapshot 2]
    ∃ first second, (story ⟨.start .standard none, none⟩ moments).shots = [first, second] ∧
      first.taken.active.members = [.click .left, .drag] ∧ second.taken.active.members = [] ∧
      first.ShowsMotion (.real 0.0) ∧ second.ShowsMotion (.real 0.0) := by
  intro moments
  have byHand (a : Atom) (motion : a.isMotion = true) :
      .occur (.operation (.press (.atom a))) ∉ moments := by
    intro member
    have left : a = .click .left := by simpa [moments] using member
    subst left
    cases motion
  have shown := motion_atoms .standard none none moments
    (Number.not_lt_zero_of_sign (x := 0) (by decide) (by decide)) byHand
  obtain ⟨first, second, shots⟩ := List.length_eq_two.mp
    (by decide +kernel : (story ⟨.start .standard none, none⟩ moments).shots.length = 2)
  have active : (story ⟨.start .standard none, none⟩ moments).shots.map (·.taken.active.members) =
      [[.click .left, .drag], []] := by decide +kernel
  rw [shots] at shown active
  obtain ⟨here, later⟩ := List.cons.inj active
  exact ⟨first, second, shots, here, (List.cons.inj later).1, shown first (by simp),
    shown second (by simp)⟩

end InputChords
