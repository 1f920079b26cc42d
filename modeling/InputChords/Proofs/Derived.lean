import InputChords.Proofs.NumberSign
import InputChords.Proofs.Story

/-! The atoms that are active in a frame: those that are held or were pressed, and those that are
derived from the motion, the wheel and the clicks of the frame. -/

namespace InputChords

variable {κ : Type}

namespace Direction

def opposite : Direction → Direction
  | up => down
  | down => up
  | left => right
  | right => left

/-- Where movement in this direction adds up: below `low`, or above `high`. -/
def Beyond (low high : Number) (across along : Float) : Direction → Prop
  | left => (Number.real across).lt low = true
  | right => high.lt (.real across) = true
  | up => (Number.real along).lt low = true
  | down => high.lt (.real along) = true

/-- The direction that is shown for these distances, for any threshold at all. Left and up go
first. -/
def Shown (threshold : Number) (across along : Float) : Direction → Prop
  | left => (Number.real across).lt threshold.neg = true
  | right => (Number.real across).lt threshold.neg = false ∧ threshold.lt (.real across) = true
  | up => (Number.real along).lt threshold.neg = true
  | down => (Number.real along).lt threshold.neg = false ∧ threshold.lt (.real along) = true

end Direction

theorem Motion.sideOf_eq_some {negative positive side : Direction} {threshold delta : Number} :
    sideOf negative positive threshold delta = some side ↔
      (side = negative ∧ delta.lt threshold.neg = true) ∨
        (side = positive ∧ delta.lt threshold.neg = false ∧ threshold.lt delta = true) := by
  rw [sideOf, @eq_comm _ side negative, @eq_comm _ side positive]
  cases delta.lt threshold.neg with
  | true => simp
  | false => cases threshold.lt delta <;> simp

theorem Travel.mem_directions_shown (t : Travel) (threshold : Number) (d : Direction) :
    d ∈ Motion.directions (t.bearing threshold) ↔ d.Shown threshold t.dx t.dy := by
  simp only [Motion.directions, bearing, movementOf, Motion.bearing, List.mem_append,
    Option.mem_toList, Motion.sideOf_eq_some]
  cases d <;> simp [Direction.Shown]

section Threshold

variable {threshold : Number} (notNegative : threshold.lt .zero = false)

include notNegative

theorem Motion.mem_sideOf (negative positive : Direction) (delta : Number) (side : Direction) :
    side ∈ sideOf negative positive threshold delta ↔
      (side = negative ∧ delta.lt threshold.neg = true) ∨
        (side = positive ∧ threshold.lt delta = true) := by
  rw [sideOf]
  by_cases below : delta.lt threshold.neg = true
  · simp [below, Number.not_beyond_both notNegative below, eq_comm]
  · by_cases above : threshold.lt delta = true
    · simp [below, above, eq_comm]
    · simp [below, above]

theorem Travel.mem_directions (t : Travel) (d : Direction) :
    d ∈ Motion.directions (t.bearing threshold) ↔
      d.Beyond threshold.neg threshold t.dx t.dy := by
  have sides := Motion.mem_sideOf notNegative
  simp only [Option.mem_def] at sides
  simp only [Motion.directions, bearing, movementOf, Motion.bearing, List.mem_append,
    Option.mem_toList, sides]
  cases d <;> simp [Direction.Beyond]

theorem Direction.Beyond.not_opposite {d : Direction} {across along : Float}
    (beyond : d.Beyond threshold.neg threshold across along) :
    ¬ d.opposite.Beyond threshold.neg threshold across along := by
  intro other
  cases d with
  | left => exact Number.not_beyond_both notNegative beyond other
  | right => exact Number.not_beyond_both notNegative other beyond
  | up => exact Number.not_beyond_both notNegative beyond other
  | down => exact Number.not_beyond_both notNegative other beyond

theorem Direction.not_beyond_none (d : Direction) :
    ¬ d.Beyond threshold.neg threshold Travel.none.dx Travel.none.dy := by
  have zero : (Number.real 0.0).sign = some 0 := by decide
  have below : ¬ (Number.real 0.0).lt threshold.neg = true := fun below => by
    have negative := Number.sign_of_beyond_neg notNegative below
    rw [zero] at negative
    cases negative
  have above : ¬ threshold.lt (.real 0.0) = true := fun above => by
    have positive := Number.sign_of_beyond notNegative above
    rw [zero] at positive
    cases positive
  cases d with
  | left => exact below
  | right => exact above
  | up => exact below
  | down => exact above

end Threshold

namespace Tracker

theorem mem_active (t : Tracker κ) (a : Atom) :
    a ∈ t.active ↔ a ∈ t.held ∨ a ∈ t.pressed ∨ a ∈ t.derived := by
  rw [active, AtomSet.mem_union, AtomSet.mem_union, or_assoc]

theorem mem_derived (t : Tracker κ) (a : Atom) :
    a ∈ t.derived ↔
      (∃ d ∈ Motion.directions (t.motion.bearing t.settings.movementThreshold),
        a = .movement (.toward d)) ∨
      (∃ d ∈ Motion.directions (t.wheel.bearing .zero), a = .wheel (.toward d)) ∨
      (t.dragged = true ∧ a = .drag) ∨ (t.doubleClicked = true ∧ a = .click .double) := by
  have flag (b : Bool) (c : Atom) : a ∈ (if b then [c] else []) ↔ b = true ∧ a = c := by
    cases b <;> simp
  rw [derived, AtomSet.mem_ofList, List.mem_append, List.mem_append, List.mem_append, flag, flag,
    List.mem_map, List.mem_map]
  simp only [Motion.pointerAtom, Motion.wheelAtom, eq_comm, or_assoc]

theorem movement_mem_derived (t : Tracker κ)
    (notNegative : t.settings.movementThreshold.lt .zero = false) (d : Direction) :
    .movement (.toward d) ∈ t.derived ↔ d.Beyond t.settings.movementThreshold.neg
      t.settings.movementThreshold t.motion.dx t.motion.dy := by
  simp [mem_derived, Travel.mem_directions notNegative]

theorem wheel_mem_derived (t : Tracker κ) (d : Direction) :
    .wheel (.toward d) ∈ t.derived ↔ d.Beyond .zero .zero t.wheel.dx t.wheel.dy := by
  have zero : Number.zero.neg = .zero := rfl
  simp [mem_derived, Travel.mem_directions Number.zero_not_negative, zero]

theorem drag_mem_derived (t : Tracker κ) : .drag ∈ t.derived ↔ t.dragged = true := by
  simp [mem_derived]

theorem double_mem_derived (t : Tracker κ) :
    .click .double ∈ t.derived ↔ t.doubleClicked = true := by
  simp [mem_derived]

theorem along_not_mem_derived (t : Tracker κ) (axis : Axis) :
    .movement (.along axis) ∉ t.derived ∧ .wheel (.along axis) ∉ t.derived := by
  simp [mem_derived]

structure Within (P : Atom → Prop) (t : Tracker κ) : Prop where
  held : ∀ a ∈ t.held, P a
  pressed : ∀ a ∈ t.pressed, P a
  released : ∀ a ∈ t.released, P a

theorem within_start (P : Atom → Prop) (settings : Settings) (bindings : Option (Bindings κ)) :
    (start settings bindings).Within P where
  held a member := absurd member (AtomSet.not_mem_empty a)
  pressed a member := absurd member (AtomSet.not_mem_empty a)
  released a member := absurd member (AtomSet.not_mem_empty a)

namespace Within

variable {P : Atom → Prop} {t u : Tracker κ}

theorem mem_active_iff (within : t.Within P) {a : Atom} (other : ¬ P a) :
    a ∈ t.active ↔ a ∈ t.derived := by
  rw [mem_active]
  constructor
  · rintro (held | pressed | derived)
    · exact absurd (within.held a held) other
    · exact absurd (within.pressed a pressed) other
    · exact derived
  · intro derived
    exact .inr (.inr derived)

theorem hold (within : t.Within P) (a : Atom) (here : P a) : (t.hold a).Within P where
  held b member := by
    rcases (mem_held_hold t a b).mp member with rfl | before
    · exact here
    · exact within.held b before
  pressed b member := by
    rcases (AtomSet.mem_insert t.pressed a b).mp member with rfl | before
    · exact here
    · exact within.pressed b before
  released := within.released

theorem after (within : t.Within P) (d : Deed κ) (pressed : ∀ a, d = .press (.atom a) → P a) :
    (d.after t).Within P := by
  have leaves := d.leaves_after t
  generalize d.after t = u at leaves
  cases leaves with
  | nothing => exact within
  | hold a free other => exact within.hold a (pressed a rfl)
  | click second free timed =>
      have clicked : (t.clicked second).Within P := by
        cases second <;> exact ⟨within.held, within.pressed, within.released⟩
      exact clicked.hold leftClick (pressed leftClick rfl)
  | letGo a held =>
      refine ⟨?_, within.pressed, ?_⟩
      · intro b member
        exact within.held b ((mem_held_letGo t a b).mp member).2
      · intro b member
        rcases (AtomSet.mem_insert t.released a b).mp member with rfl | before
        · exact within.held b held
        · exact within.released b before
  | releaseAll =>
      refine ⟨fun a member => absurd member (AtomSet.not_mem_empty a), within.pressed, ?_⟩
      intro a member
      rcases (AtomSet.mem_union t.released t.held a).mp member with before | held
      · exact within.released a before
      · exact within.held a held
  | _ => exact ⟨within.held, within.pressed, within.released⟩

theorem snapshot [DecidableEq κ] {frame : Int} {taken : Snapshot κ} (within : t.Within P)
    (done : t.snapshot frame = .ok (taken, u)) : u.Within P := by
  obtain ⟨_, _, _, held, fresh⟩ := snapshot_eq_ok t u frame taken done
  refine ⟨?_, ?_, ?_⟩
  · rw [held]
    exact within.held
  · rw [fresh.pressed]
    exact fun a member => absurd member (AtomSet.not_mem_empty a)
  · rw [fresh.released]
    exact fun a member => absurd member (AtomSet.not_mem_empty a)

end Within

end Tracker

end InputChords
