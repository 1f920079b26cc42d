import InputChords.Proofs.Deed
import InputChords.Proofs.Frames

/-! What a failed call leaves of a tracker. A call checks what it is given before it changes
anything, except for the two distances of a movement or of a turn of the wheel: each of them is
added as soon as it can be read. -/

namespace InputChords

variable {κ : Type}

theorem Travel.add_eq_self_iff (t : Travel) (m : Stroke) :
    t.add m = t ↔ ∀ x, m.dx.toReal = .ok x →
      t.dx + x = t.dx ∧ ∀ y, m.dy.toReal = .ok y → t.dy + y = t.dy := by
  obtain ⟨across, along⟩ := t
  cases first : m.dx.toReal with
  | error fault => simp [add_unread m _ fault first]
  | ok x =>
      cases second : m.dy.toReal with
      | error fault => simp [add_half m _ x fault first second]
      | ok y => simp [add_read m _ x y first second]

theorem Tracker.addMotion_of_failed (t : Tracker κ) (m : Stroke) (fault : Fault)
    (failed : m.outcome t.settings.movementThreshold = .error fault) :
    t.addMotion m = { t with motion := t.motion.add m } := by
  rw [addMotion, Stroke.isLong, failed, Bool.false_and, Bool.or_false]

theorem Tracker.press_of_failed (t : Tracker κ) (a : Atom) (fault : Fault)
    (failed : t.pressOutcome a = .error fault) : t.press a = t := by
  rw [pressOutcome] at failed
  by_cases held : a ∈ t.held
  · rw [if_pos held] at failed
    cases failed
  · rw [if_neg held] at failed
    by_cases left : a = leftClick
    · rw [if_pos left] at failed
      rw [press, if_neg held, if_pos left]
      cases timed : t.leftPress with
      | error overflow => rfl
      | ok u =>
          rw [timed] at failed
          cases failed
    · rw [if_neg left] at failed
      cases failed

namespace Deed

/-- What a failed call leaves: only distances may have been added. -/
def remains : Deed κ → Tracker κ → Tracker κ
  | addMotion dx dy, t => { t with motion := t.motion.add ⟨dx, dy⟩ }
  | addWheel dx dy, t => { t with wheel := t.wheel.add ⟨dx, dy⟩ }
  | _, t => t

theorem after_of_failed (d : Deed κ) (t : Tracker κ) (fault : Fault)
    (failed : d.outcome t = .error fault) : d.after t = d.remains t := by
  cases d with
  | press v =>
      cases v with
      | atom a => exact t.press_of_failed a fault failed
      | _ => rfl
  | release v =>
      cases v with
      | atom a => cases failed
      | _ => rfl
  | addMotion dx dy =>
      apply t.addMotion_of_failed _ fault
      change (Stroke.outcome _ _).bind _ = _ at failed
      cases asked : Stroke.outcome t.settings.movementThreshold ⟨dx, dy⟩ with
      | error other =>
          rw [asked] at failed
          cases failed
          rfl
      | ok far =>
          rw [asked] at failed
          cases failed
  | moveTo x y =>
      rw [outcome] at failed
      rw [after]
      cases readX : x.toReal with
      | error other => rfl
      | ok x =>
          cases readY : y.toReal with
          | error other => rfl
          | ok y =>
              rw [readX, readY] at failed
              cases failed
  | addWheel dx dy => rfl
  | releaseAll => cases failed
  | attach bindings => cases failed
  | setClock now => cases failed

theorem tracker_of_error (d : Deed κ) (s left : Session κ) (fault : Fault)
    (failed : d.act s = .error fault left) : left.tracker = d.remains s.tracker := by
  have both := d.effect_act s
  rw [Act.effect, failed] at both
  obtain ⟨outcome, tracker⟩ := Prod.mk.inj both
  rw [← d.after_of_failed s.tracker fault outcome.symm]
  exact tracker

end Deed

theorem Act.snapshot_of_error [DecidableEq κ] (frame : Int) (s left : Session κ) (fault : Fault)
    (failed : snapshot frame s = .error fault left) : left = s := by
  rw [snapshot_eq] at failed
  cases taken : s.tracker.snapshot frame with
  | error other =>
      rw [taken] at failed
      cases failed
      rfl
  | ok result =>
      rw [taken] at failed
      cases failed

/-- A call that fails leaves the tracker as it was, but for the distances that could be read before
it failed: the first one, and with it the second one. -/
theorem failed_call [DecidableEq κ] (s left : Session κ) (fault : Fault) :
    (∀ v, Act.pressValue v s = .error fault left → left.tracker = s.tracker) ∧
    (∀ v, Act.releaseValue v s = .error fault left → left.tracker = s.tracker) ∧
    (∀ x y, Act.moveTo x y s = .error fault left → left.tracker = s.tracker) ∧
    (∀ frame, Act.snapshot frame s = .error fault left → left.tracker = s.tracker) ∧
    (∀ dx dy, Act.addMotion dx dy s = .error fault left →
      left.tracker = { s.tracker with motion := s.tracker.motion.add ⟨dx, dy⟩ } ∧
      (left.tracker = s.tracker ↔ ∀ x, dx.toReal = .ok x →
        s.tracker.motion.dx + x = s.tracker.motion.dx ∧
          ∀ y, dy.toReal = .ok y → s.tracker.motion.dy + y = s.tracker.motion.dy)) ∧
    ∀ dx dy, Act.addWheel dx dy s = .error fault left →
      left.tracker = { s.tracker with wheel := s.tracker.wheel.add ⟨dx, dy⟩ } ∧
      (left.tracker = s.tracker ↔ ∀ x, dx.toReal = .ok x →
        s.tracker.wheel.dx + x = s.tracker.wheel.dx ∧
          ∀ y, dy.toReal = .ok y → s.tracker.wheel.dy + y = s.tracker.wheel.dy) := by
  refine ⟨?_, ?_, ?_, ?_, ?_, ?_⟩
  · intro v failed
    exact (Deed.press v).tracker_of_error s left fault failed
  · intro v failed
    exact (Deed.release v).tracker_of_error s left fault failed
  · intro x y failed
    exact (Deed.moveTo x y).tracker_of_error s left fault failed
  · intro frame failed
    rw [Act.snapshot_of_error frame s left fault failed]
  · intro dx dy failed
    have tracker := (Deed.addMotion dx dy).tracker_of_error s left fault failed
    refine ⟨tracker, ?_⟩
    rw [tracker, ← Travel.add_eq_self_iff s.tracker.motion ⟨dx, dy⟩]
    exact ⟨fun same => congrArg Tracker.motion same,
      fun same => congrArg (fun motion => { s.tracker with motion := motion }) same⟩
  · intro dx dy failed
    have tracker := (Deed.addWheel dx dy).tracker_of_error s left fault failed
    refine ⟨tracker, ?_⟩
    rw [tracker, ← Travel.add_eq_self_iff s.tracker.wheel ⟨dx, dy⟩]
    exact ⟨fun same => congrArg Tracker.wheel same,
      fun same => congrArg (fun wheel => { s.tracker with wheel := wheel }) same⟩

theorem Value.toReal_beyond (n : Int) (negative : Bool)
    (beyond : Decimal.parts (Float.ofInt n) = .infinite negative) :
    (Value.whole n).toReal = .error .realOverflow := by
  show Value.realOverflow (Number.ofWhole n) = _
  rw [Number.ofWhole, beyond]
  rfl

theorem Act.addMotion_half (dx dy : Value) (x : Float) (fault : Fault) (s : Session κ)
    (first : dx.toReal = .ok x) (second : dy.toReal = .error fault) :
    Act.addMotion dx dy s = .error fault { s with tracker :=
      { s.tracker with motion := { s.tracker.motion with dx := s.tracker.motion.dx + x } } } := by
  rw [addMotion, first, second]
  rfl

/-- A refused press leaves everything, and a movement too long to be read along its second axis is
kept along its first. -/
theorem failed_call_kept :
    let start : Session String := ⟨.start .standard none, none⟩
    (∃ left fault, Act.pressValue .null start = .error fault left ∧
      left.tracker = .start .standard none) ∧
    ∃ left, Act.addMotion (.real 0.0) (.whole (10 ^ 400)) start = .error .realOverflow left ∧
      left.tracker = .start .standard none := by
  intro start
  have refused := failed_call start
  constructor
  · exact ⟨_, _, rfl, (refused _ _).1 .null rfl⟩
  · have failed := Act.addMotion_half (.real 0.0) (.whole (10 ^ 400)) 0.0 .realOverflow start rfl
      (Value.toReal_beyond _ false (by decide +kernel))
    refine ⟨_, failed, ((refused _ _).2.2.2.2.1 _ _ failed).2.mpr ?_⟩
    intro x first
    cases first
    refine ⟨by decide, ?_⟩
    intro y second
    rw [Value.toReal_beyond _ false (by decide +kernel)] at second
    cases second

/-- A movement that fails on its second distance has moved along the first axis. -/
theorem failed_call_moved :
    let start : Session String := ⟨.start .standard none, none⟩
    ∃ left, Act.addMotion (.real 1.0) (.whole (10 ^ 400)) start = .error .realOverflow left ∧
      left.tracker ≠ .start .standard none ∧
      .movement (.toward .right) ∈ left.tracker.active := by
  intro start
  have failed := Act.addMotion_half (.real 1.0) (.whole (10 ^ 400)) 1.0 .realOverflow start rfl
    (Value.toReal_beyond _ false (by decide +kernel))
  refine ⟨_, failed, ?_, by decide +kernel⟩
  intro same
  have moved : (0.0 : Float) + 1.0 = 0.0 := congrArg (·.motion.dx) same
  exact absurd moved (by decide)

end InputChords
