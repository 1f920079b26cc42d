import Mathlib.Data.Fintype.EquivFin
import InputChords.Proofs.Turns

/-! Calls that have nothing to do with each other may be made in either order. What depends on what
is read off the calls alone, and a batch leaves the same tracker in every order that keeps dependent
calls in theirs. -/

namespace InputChords

variable {κ : Type}

namespace AtomSet

theorem insert_comm (s : AtomSet) (a b : Atom) : (s.insert a).insert b = (s.insert b).insert a := by
  refine ext fun c => ?_
  simp only [mem_insert]
  exact or_left_comm

theorem erase_comm (s : AtomSet) (a b : Atom) : (s.erase a).erase b = (s.erase b).erase a := by
  refine ext fun c => ?_
  simp only [mem_erase]
  exact and_left_comm

theorem insert_erase (s : AtomSet) {a b : Atom} (other : a ≠ b) :
    (s.insert a).erase b = (s.erase b).insert a := by
  refine ext fun c => ?_
  simp only [mem_insert, mem_erase]
  by_cases same : c = a
  · subst same
    simp [other]
  · simp [same]

end AtomSet

namespace Tracker

variable {a b : Atom} {f : Tracker κ → Tracker κ}

/-- `f` neither sees nor changes what pressing and releasing `b` is about. -/
structure Clear (b : Atom) (f : Tracker κ → Tracker κ) : Prop where
  held : ∀ t, b ∈ (f t).held ↔ b ∈ t.held
  hold : ∀ t, (f t).hold b = f (t.hold b)
  letGo : ∀ t, (f t).letGo b = f (t.letGo b)
  leftPress : b = leftClick → ∀ t, (f t).leftPress = t.leftPress.map f

theorem Clear.press (clear : Clear b f) (t : Tracker κ) : (f t).press b = f (t.press b) := by
  rw [Tracker.press, Tracker.press]
  by_cases held : b ∈ t.held
  · rw [if_pos held, if_pos ((clear.held t).mpr held)]
  · rw [if_neg held, if_neg fun member => held ((clear.held t).mp member)]
    by_cases left : b = leftClick
    · rw [if_pos left, if_pos left, clear.leftPress left]
      cases t.leftPress with
      | error overflow => rfl
      | ok u => exact clear.hold u
    · rw [if_neg left, if_neg left]
      exact clear.hold t

theorem Clear.pressOutcome (clear : Clear b f) (t : Tracker κ) :
    (f t).pressOutcome b = t.pressOutcome b := by
  rw [Tracker.pressOutcome, Tracker.pressOutcome]
  by_cases held : b ∈ t.held
  · rw [if_pos held, if_pos ((clear.held t).mpr held)]
  · rw [if_neg held, if_neg fun member => held ((clear.held t).mp member)]
    by_cases left : b = leftClick
    · rw [if_pos left, if_pos left, clear.leftPress left]
      cases t.leftPress <;> rfl
    · rw [if_neg left, if_neg left]

theorem Clear.release (clear : Clear b f) (t : Tracker κ) : (f t).release b = f (t.release b) := by
  rw [Tracker.release, Tracker.release]
  by_cases held : b ∈ t.held
  · rw [if_pos held, if_pos ((clear.held t).mpr held)]
    exact clear.letGo t
  · rw [if_neg held, if_neg fun member => held ((clear.held t).mp member)]

theorem leftPress_map (settings : ∀ t, (f t).settings = t.settings)
    (clock : ∀ t, (f t).clock = t.clock) (last : ∀ t, (f t).lastLeftPress = t.lastLeftPress)
    (clicked : ∀ t second, (f t).clicked second = f (t.clicked second)) (t : Tracker κ) :
    (f t).leftPress = t.leftPress.map f := by
  have same : (f t).isSecond = t.isSecond := by
    rw [isSecond, isSecond, interval, interval, settings, clock, last]
  rw [leftPress_eq, leftPress_eq, same]
  cases t.isSecond with
  | error overflow => rfl
  | ok second => exact congrArg Except.ok (clicked t second)

theorem hold_hold (t : Tracker κ) (a b : Atom) : (t.hold a).hold b = (t.hold b).hold a := by
  show { t with held := (t.held.insert a).insert b, pressed := (t.pressed.insert a).insert b } = _
  rw [t.held.insert_comm a b, t.pressed.insert_comm a b]
  rfl

theorem letGo_letGo (t : Tracker κ) (a b : Atom) : (t.letGo a).letGo b = (t.letGo b).letGo a := by
  show { t with held := (t.held.erase a).erase b, released := (t.released.insert a).insert b } = _
  rw [t.held.erase_comm a b, t.released.insert_comm a b]
  rfl

theorem hold_letGo (t : Tracker κ) (other : a ≠ b) : (t.hold a).letGo b = (t.letGo b).hold a := by
  show { t with
    held := (t.held.insert a).erase b
    pressed := t.pressed.insert a
    released := t.released.insert b } = _
  rw [t.held.insert_erase other]
  rfl

theorem clear_hold (other : a ≠ b) : Clear (κ := κ) b (·.hold a) where
  held t := by
    rw [mem_held_hold]
    simp [other.symm]
  hold t := t.hold_hold a b
  letGo t := t.hold_letGo other
  leftPress _ :=
    leftPress_map (fun _ => rfl) (fun _ => rfl) (fun _ => rfl)
      fun _ second => by cases second <;> rfl

theorem clear_letGo (other : a ≠ b) : Clear (κ := κ) b (·.letGo a) where
  held t := by
    rw [mem_held_letGo]
    simp [other.symm]
  hold t := (t.hold_letGo other.symm).symm
  letGo t := t.letGo_letGo a b
  leftPress _ :=
    leftPress_map (fun _ => rfl) (fun _ => rfl) (fun _ => rfl)
      fun _ second => by cases second <;> rfl

theorem clear_id : Clear (κ := κ) b fun t => t where
  held _ := Iff.rfl
  hold _ := rfl
  letGo _ := rfl
  leftPress _ t := by cases t.leftPress <;> rfl

theorem Clear.ite {g : Tracker κ → Tracker κ} (first : Clear b f) (second : Clear b g)
    (other : a ≠ b) :
    Clear b fun t => if a ∈ t.held then f t else g t where
  held t := by
    by_cases held : a ∈ t.held
    · simp only [held, if_true, first.held t]
    · simp only [held, if_false, second.held t]
  hold t := by
    have kept := (clear_hold other.symm).held t
    by_cases held : a ∈ t.held
    · simp only [kept, held, if_true, first.hold t]
    · simp only [kept, held, if_false, second.hold t]
  letGo t := by
    have kept := (clear_letGo other.symm).held t
    by_cases held : a ∈ t.held
    · simp only [kept, held, if_true, first.letGo t]
    · simp only [kept, held, if_false, second.letGo t]
  leftPress left t := by
    have kept (u : Tracker κ) (timed : t.leftPress = .ok u) : u.held = t.held :=
      (leftPress_aside t u timed).held
    by_cases held : a ∈ t.held
    · simp only [held, if_true, first.leftPress left t]
      cases timed : t.leftPress with
      | error overflow => rfl
      | ok u => simp [Except.map, kept u timed, held]
    · simp only [held, if_false, second.leftPress left t]
      cases timed : t.leftPress with
      | error overflow => rfl
      | ok u => simp [Except.map, kept u timed, held]

theorem clear_release (other : a ≠ b) : Clear (κ := κ) b (·.release a) :=
  (clear_letGo other).ite clear_id other

theorem clear_press (other : a ≠ b) : Clear (κ := κ) b (·.press a) := by
  by_cases left : a = leftClick
  · -- A press of the left button is timed, so it is taken as a whole.
    refine ⟨fun t => ?_, fun t => ((clear_hold other.symm).press t).symm,
      fun t => ((clear_letGo other.symm).press t).symm,
      fun same => absurd (left.trans same.symm) other⟩
    have leaves := Deed.leaves_press a t
    generalize t.press a = u at leaves
    cases leaves with
    | nothing => rfl
    | hold a free notLeft => exact (clear_hold other).held t
    | click second free timed => cases second <;> exact (clear_hold other).held _
  · have known : (·.press a) = fun t : Tracker κ => if a ∈ t.held then t else t.hold a := by
      funext t
      rw [Tracker.press, if_neg left]
    rw [known]
    exact clear_id.ite (clear_hold other) other

theorem clear_addWheel (m : Stroke) : Clear (κ := κ) b (·.addWheel m) where
  held _ := Iff.rfl
  hold _ := rfl
  letGo _ := rfl
  leftPress _ :=
    leftPress_map (fun _ => rfl) (fun _ => rfl) (fun _ => rfl)
      fun _ second => by cases second <;> rfl

theorem clear_addMotion (m : Stroke) (other : leftClick ≠ b) :
    Clear (κ := κ) b (·.addMotion m) where
  held _ := Iff.rfl
  hold t := by
    simp only [addMotion, (clear_hold other.symm).held t]
    rfl
  letGo t := by
    simp only [addMotion, (clear_letGo other.symm).held t]
    rfl
  leftPress left := absurd left.symm other

theorem clear_moveTo (x y : Float) (other : leftClick ≠ b) : Clear (κ := κ) b (·.moveTo x y) where
  held t := by
    show b ∈ (t.moveTo x y).held ↔ _
    rw [moveTo]
    cases t.strokeTo x y <;> rfl
  hold t := by
    show (t.moveTo x y).hold b = (t.hold b).moveTo x y
    have stroke : (t.hold b).strokeTo x y = t.strokeTo x y := rfl
    rw [moveTo, moveTo, stroke]
    cases t.strokeTo x y with
    | none => rfl
    | some m => exact (clear_addMotion m other).hold { t with pointer := some (x, y) }
  letGo t := by
    show (t.moveTo x y).letGo b = (t.letGo b).moveTo x y
    have stroke : (t.letGo b).strokeTo x y = t.strokeTo x y := rfl
    rw [moveTo, moveTo, stroke]
    cases t.strokeTo x y with
    | none => rfl
    | some m => exact (clear_addMotion m other).letGo { t with pointer := some (x, y) }
  leftPress left := absurd left.symm other

theorem addWheel_moveTo (t : Tracker κ) (m : Stroke) (x y : Float) :
    (t.addWheel m).moveTo x y = (t.moveTo x y).addWheel m := by
  have stroke : (t.addWheel m).strokeTo x y = t.strokeTo x y := rfl
  rw [moveTo, moveTo, stroke]
  cases t.strokeTo x y <;> rfl

end Tracker

namespace Deed

def atom? : Deed κ → Option Atom
  | press (.atom a) | release (.atom a) => some a
  | _ => none

def IsMotion : Deed κ → Prop
  | addMotion _ _ | moveTo _ _ => True
  | _ => False

def IsWheel : Deed κ → Prop
  | addWheel _ _ => True
  | _ => False

/-- What a device tells of. The clock stands still, and the bindings stay. -/
def IsInput : Deed κ → Prop
  | press _ | release _ | addMotion _ _ | moveTo _ _ | addWheel _ _ => True
  | _ => False

/-- Which of two calls comes first may matter: both press or release one atom, both move the
pointer, both turn the wheel, or one moves the pointer and the other presses or releases the left
button. -/
inductive Dependent (d e : Deed κ) : Prop where
  | atom (a : Atom) (first : d.atom? = some a) (second : e.atom? = some a)
  | motion (first : d.IsMotion) (second : e.IsMotion)
  | wheel (first : d.IsWheel) (second : e.IsWheel)
  | drag (first : d.IsMotion) (second : e.atom? = some Tracker.leftClick)
  | click (first : d.atom? = some Tracker.leftClick) (second : e.IsMotion)

theorem Dependent.symm {d e : Deed κ} (dependent : Dependent d e) : Dependent e d := by
  cases dependent with
  | atom a first second => exact .atom a second first
  | motion first second => exact .motion second first
  | wheel first second => exact .wheel second first
  | drag first second => exact .click second first
  | click first second => exact .drag second first

theorem after_moveTo (x y : Value) :
    (∃ across along, (moveTo (κ := κ) x y).after = (·.moveTo across along)) ∨
      (moveTo (κ := κ) x y).after = fun t => t := by
  cases readX : x.toReal with
  | error fault =>
      refine .inr (funext fun t => ?_)
      rw [after, readX]
  | ok across =>
      cases readY : y.toReal with
      | error fault =>
          refine .inr (funext fun t => ?_)
          rw [after, readX, readY]
      | ok along =>
          refine .inl ⟨across, along, funext fun t => ?_⟩
          rw [after, readX, readY]

/-- An input that presses and releases other atoms is clear of this one; the left button is dragged
besides. -/
theorem clear_after (d : Deed κ) (input : d.IsInput) (a : Atom) (other : d.atom? ≠ some a)
    (still : d.IsMotion → Tracker.leftClick ≠ a) : Tracker.Clear a d.after := by
  cases d with
  | press v =>
      cases v with
      | atom b => exact Tracker.clear_press fun same => other (congrArg some same)
      | _ => exact Tracker.clear_id
  | release v =>
      cases v with
      | atom b => exact Tracker.clear_release fun same => other (congrArg some same)
      | _ => exact Tracker.clear_id
  | addMotion dx dy => exact Tracker.clear_addMotion _ (still trivial)
  | moveTo x y =>
      rcases after_moveTo x y with ⟨across, along, moves⟩ | nothing
      · exact moves ▸ Tracker.clear_moveTo across along (still trivial)
      · exact nothing ▸ Tracker.clear_id
  | addWheel dx dy => exact Tracker.clear_addWheel _
  | _ => cases input

section Clear

variable {d e : Deed κ} {a : Atom} {f : Tracker κ → Tracker κ}

theorem after_clear (touches : d.atom? = some a) (clear : Tracker.Clear a f) (t : Tracker κ) :
    d.after (f t) = f (d.after t) := by
  cases d with
  | press v =>
      cases v with
      | atom b =>
          cases touches
          exact clear.press t
      | _ => rfl
  | release v =>
      cases v with
      | atom b =>
          cases touches
          exact clear.release t
      | _ => rfl
  | _ => cases touches

theorem outcome_clear (touches : d.atom? = some a) (clear : Tracker.Clear a f) (t : Tracker κ) :
    d.outcome (f t) = d.outcome t := by
  cases d with
  | press v =>
      cases v with
      | atom b =>
          cases touches
          exact clear.pressOutcome t
      | _ => rfl
  | release v => cases v <;> rfl
  | _ => cases touches

theorem after_of_none (input : d.IsInput) (touches : d.atom? = none) (still : ¬ d.IsMotion)
    (stopped : ¬ d.IsWheel) (t : Tracker κ) : d.after t = t := by
  cases d with
  | press v =>
      cases v with
      | atom a => cases touches
      | _ => rfl
  | release v =>
      cases v with
      | atom a => cases touches
      | _ => rfl
  | addMotion dx dy => exact absurd trivial still
  | moveTo x y => exact absurd trivial still
  | addWheel dx dy => exact absurd trivial stopped
  | _ => cases input

theorem after_motion_wheel (motion : d.IsMotion) (wheel : e.IsWheel) (t : Tracker κ) :
    e.after (d.after t) = d.after (e.after t) := by
  cases e with
  | addWheel p q =>
      cases d with
      | addMotion dx dy => rfl
      | moveTo x y =>
          rcases after_moveTo x y with ⟨across, along, moves⟩ | nothing
          · rw [moves]
            exact (t.addWheel_moveTo ⟨p, q⟩ across along).symm
          · rw [nothing]
      | _ => cases motion
  | _ => cases wheel

theorem clear_of_independent (input : e.IsInput) (independent : ¬ Dependent d e)
    (touches : d.atom? = some a) : Tracker.Clear a e.after := by
  refine e.clear_after input a (fun same => independent (.atom a touches same)) ?_
  rintro motion rfl
  exact independent (.click touches motion)

theorem after_comm (inputFirst : d.IsInput) (inputSecond : e.IsInput)
    (independent : ¬ Dependent d e) (t : Tracker κ) :
    e.after (d.after t) = d.after (e.after t) := by
  cases first : d.atom? with
  | some a => exact (after_clear first (clear_of_independent inputSecond independent first) t).symm
  | none =>
      cases second : e.atom? with
      | some a =>
          have apart : ¬ Dependent e d := fun dependent => independent dependent.symm
          exact after_clear second (clear_of_independent inputFirst apart second) t
      | none =>
          by_cases motion : d.IsMotion
          · by_cases wheel : e.IsWheel
            · exact after_motion_wheel motion wheel t
            · have still : ¬ e.IsMotion := fun too => independent (.motion motion too)
              rw [after_of_none inputSecond second still wheel,
                after_of_none inputSecond second still wheel]
          · by_cases wheel : d.IsWheel
            · by_cases moved : e.IsMotion
              · exact (after_motion_wheel moved wheel t).symm
              · have stopped : ¬ e.IsWheel := fun too => independent (.wheel wheel too)
                rw [after_of_none inputSecond second moved stopped,
                  after_of_none inputSecond second moved stopped]
            · rw [after_of_none inputFirst first motion wheel,
                after_of_none inputFirst first motion wheel]

theorem outcome_after (inputFirst : d.IsInput) (inputSecond : e.IsInput)
    (independent : ¬ Dependent d e) (t : Tracker κ) : e.outcome (d.after t) = e.outcome t := by
  cases touches : e.atom? with
  | some a =>
      have apart : ¬ Dependent e d := fun dependent => independent dependent.symm
      exact outcome_clear touches (clear_of_independent inputFirst apart touches) t
  | none =>
      cases e with
      | press v =>
          cases v with
          | atom a => cases touches
          | _ => rfl
      | release v => cases v <;> rfl
      | addMotion dx dy => rw [outcome, outcome, d.settings_after]
      | moveTo x y => rfl
      | addWheel dx dy => rfl
      | _ => cases inputSecond

end Clear

def play : List (Deed κ) → Tracker κ → Except Fault (Tracker κ)
  | [], t => .ok t
  | d :: rest, t => do
    d.outcome t
    play rest (d.after t)

theorem play_cons_eq_ok {d : Deed κ} {rest : List (Deed κ)} {t u : Tracker κ} :
    play (d :: rest) t = .ok u ↔ d.outcome t = .ok () ∧ play rest (d.after t) = .ok u := by
  rw [play]
  cases d.outcome t with
  | error fault => exact ⟨nofun, nofun⟩
  | ok done => exact ⟨fun played => ⟨rfl, played⟩, fun both => both.2⟩

theorem each_act_eq_ok (calls : List (Deed κ)) (s : Session κ) (u : Tracker κ) :
    (∃ left, Act.each act calls s = .ok () left ∧ left.tracker = u) ↔
      play calls s.tracker = .ok u := by
  rw [← Act.effect_eq_ok]
  induction calls generalizing s with
  | nil =>
      show ((.ok (), s.tracker) : Except Fault Unit × Tracker κ) = (.ok (), u) ↔ _
      simp [play]
  | cons d rest ih =>
      have both := d.effect_act s
      rw [play_cons_eq_ok, Act.each, Act.effect_bind]
      cases outcome : d.outcome s.tracker with
      | ok done =>
          rw [outcome] at both
          obtain ⟨left, made, tracker⟩ := Act.effect_eq_ok.mp both
          rw [made, ← tracker]
          simpa using ih left
      | error fault =>
          rw [outcome] at both
          obtain ⟨left, failed, tracker⟩ := Act.effect_eq_error.mp both
          rw [failed]
          simp

theorem play_front {d : Deed κ} {before later : List (Deed κ)} {t u : Tracker κ} (input : d.IsInput)
    (inputs : ∀ e ∈ before, e.IsInput) (independent : ∀ e ∈ before, ¬ Dependent d e)
    (played : play (before ++ d :: later) t = .ok u) :
    play (d :: (before ++ later)) t = .ok u := by
  induction before generalizing t with
  | nil => exact played
  | cons e rest ih =>
      have here : ¬ Dependent d e := independent e (List.mem_cons_self ..)
      have apart : ¬ Dependent e d := fun dependent => here dependent.symm
      have inputHere : e.IsInput := inputs e (List.mem_cons_self ..)
      obtain ⟨done, played⟩ := play_cons_eq_ok.mp played
      have moved := ih (fun e member => inputs e (.tail _ member))
        (fun e member => independent e (.tail _ member)) played
      obtain ⟨doneToo, moved⟩ := play_cons_eq_ok.mp moved
      rw [outcome_after inputHere input apart] at doneToo
      rw [after_comm inputHere input apart] at moved
      refine play_cons_eq_ok.mpr ⟨doneToo, play_cons_eq_ok.mpr ⟨?_, moved⟩⟩
      rw [outcome_after input inputHere here]
      exact done

/-- Two lists of the same places, the second of which keeps the order `R` of the first wherever
calls depend on each other. -/
theorem play_perm {ι : Type} {R : ι → ι → Prop} (asymm : ∀ i j, R i j → ¬ R j i) (call : ι → Deed κ)
    {first second : List ι} (perm : first.Perm second) (inputs : ∀ i ∈ first, (call i).IsInput)
    (ordered : first.Pairwise R)
    (kept : second.Pairwise fun i j => Dependent (call i) (call j) → R i j) {t u : Tracker κ}
    (played : play (first.map call) t = .ok u) : play (second.map call) t = .ok u := by
  induction second generalizing first t with
  | nil =>
      cases perm.eq_nil
      exact played
  | cons x rest ih =>
      obtain ⟨before, later, rfl⟩ := List.append_of_mem (perm.mem_iff.mpr (List.mem_cons_self ..))
      have others : (before ++ later).Perm rest := (List.perm_middle.symm.trans perm).cons_inv
      obtain ⟨head, kept⟩ := List.pairwise_cons.mp kept
      obtain ⟨orderedBefore, orderedLater, across⟩ := List.pairwise_append.mp ordered
      -- Whatever stood before the call comes after it now, so the call does not depend on it.
      have independent : ∀ e ∈ before.map call, ¬ Dependent (call x) e := by
        intro e member dependent
        obtain ⟨y, present, rfl⟩ := List.mem_map.mp member
        have earlier : R y x := across y present x (List.mem_cons_self ..)
        have listed : y ∈ rest := others.mem_iff.mp (List.mem_append_left _ present)
        exact asymm y x earlier (head y listed dependent)
      have inputsBefore : ∀ e ∈ before.map call, e.IsInput := by
        intro e member
        obtain ⟨y, present, rfl⟩ := List.mem_map.mp member
        exact inputs y (List.mem_append_left _ present)
      have input : (call x).IsInput := inputs x (by simp)
      rw [List.map_append, List.map_cons] at played
      obtain ⟨done, played⟩ :=
        play_cons_eq_ok.mp (play_front input inputsBefore independent played)
      rw [← List.map_append] at played
      refine play_cons_eq_ok.mpr ⟨done, ih others ?_ ?_ kept played⟩
      · intro i member
        refine inputs i ?_
        rcases List.mem_append.mp member with member | member
        · exact List.mem_append_left _ member
        · exact List.mem_append_right _ (.tail _ member)
      · refine ordered.sublist ?_
        exact (List.Sublist.refl before).append (List.sublist_cons_self x later)

def reordered (calls : List (Deed κ)) (σ : Equiv.Perm (Fin calls.length)) : List (Deed κ) :=
  List.ofFn fun i => calls.get (σ i)

/-- Of two dependent calls the one that is now first was first before. -/
def KeepsOrder (calls : List (Deed κ)) (σ : Equiv.Perm (Fin calls.length)) : Prop :=
  ∀ i j, i < j → Dependent (calls.get (σ i)) (calls.get (σ j)) → σ i < σ j

theorem play_reordered (calls : List (Deed κ)) (σ : Equiv.Perm (Fin calls.length))
    (inputs : ∀ d ∈ calls, d.IsInput) (keeps : KeepsOrder calls σ) {t u : Tracker κ}
    (played : play calls t = .ok u) : play (reordered calls σ) t = .ok u := by
  have places : calls = (List.finRange calls.length).map calls.get :=
    (List.map_get_finRange calls).symm
  have moved : reordered calls σ = ((List.finRange calls.length).map σ).map calls.get := by
    rw [reordered, List.ofFn_eq_map, List.map_map]
    rfl
  rw [moved]
  rw [places] at played
  refine play_perm (R := (· < ·)) (fun i j less => less.asymm) calls.get
    (Equiv.Perm.map_finRange_perm σ).symm ?_ (List.pairwise_lt_finRange _) ?_ played
  · intro i _
    exact inputs _ (List.get_mem calls i)
  · rw [List.pairwise_map]
    exact (List.pairwise_lt_finRange _).imp fun {i j} less => keeps i j less

end Deed

/-- A batch of inputs that all succeed leaves the same tracker, and is followed by the same
snapshot, in every order that keeps dependent calls in theirs. What lets go of everything leaves
nothing held and adds what was held to the released atoms, in whatever order it goes through
them. -/
theorem independent_inputs_commute [DecidableEq κ] :
    (∀ (calls : List (Deed κ)) (σ : Equiv.Perm (Fin calls.length)) (s left : Session κ),
      (∀ d ∈ calls, d.IsInput) → Deed.KeepsOrder calls σ →
      Act.each Deed.act calls s = .ok () left →
      ∃ other, Act.each Deed.act (Deed.reordered calls σ) s = .ok () other ∧
        other.tracker = left.tracker ∧
        ∀ frame, (Act.snapshot frame).effect other = (Act.snapshot frame).effect left) ∧
    ∀ s : Session κ,
      let dropped : Tracker κ :=
        { s.tracker with held := ∅, released := s.tracker.released ∪ s.tracker.held }
      (∀ atoms : List Atom, (∀ a, a ∈ atoms ↔ a ∈ s.tracker.held) →
        ∃ left, Act.releaseEach atoms s = .ok () left ∧ left.tracker = dropped) ∧
      (∃ left, Act.releaseAll s = .ok () left ∧ left.tracker = dropped) ∧
      ∀ focused : Value, focused.truthy = false →
        ∃ left, Window.onFocus focused s = .ok () left ∧ left.tracker = dropped := by
  constructor
  · intro calls σ s left inputs keeps made
    have played := (Deed.each_act_eq_ok calls s left.tracker).mp ⟨left, made, rfl⟩
    have again := Deed.play_reordered calls σ inputs keeps played
    obtain ⟨other, madeToo, tracker⟩ := (Deed.each_act_eq_ok _ s _).mpr again
    exact ⟨other, madeToo, tracker, fun frame => Act.matches_snapshot frame other left tracker⟩
  · intro s dropped
    have all := Act.effect_eq_ok.mp (Act.effect_releaseAll s)
    refine ⟨fun atoms listed => ?_, all, fun focused lost => ?_⟩
    · have each := Act.effect_releaseEach atoms s
      rw [s.tracker.foldl_release_listed listed] at each
      exact Act.effect_eq_ok.mp each
    · rw [Window.onFocus, lost]
      exact all

/-- `A` may be pressed before the left button, and the wheel may be turned last, but the pointer
moves after the button is pressed. -/
theorem independent_inputs_commute_drag :
    let start : Session String := ⟨.start .standard none, none⟩
    let calls : List (Deed String) := [.press (.atom Tracker.leftClick),
      .addMotion (.real 3.0) (.real 4.0), .addWheel (.real 0.0) (.real 1.0),
      .press (.atom (.key (.letter 0)))]
    let σ : Equiv.Perm (Fin 4) := (finRotate 4)⁻¹
    Deed.reordered calls σ = [.press (.atom (.key (.letter 0))), .press (.atom Tracker.leftClick),
      .addMotion (.real 3.0) (.real 4.0), .addWheel (.real 0.0) (.real 1.0)] ∧
    ∃ left other, Act.each Deed.act calls start = .ok () left ∧
      Act.each Deed.act (Deed.reordered calls σ) start = .ok () other ∧
      other.tracker = left.tracker := by
  intro start calls σ
  have inputs : ∀ d ∈ calls, d.IsInput := by
    intro d member
    simp only [calls, List.mem_cons, List.not_mem_nil, or_false] at member
    rcases member with rfl | rfl | rfl | rfl <;> trivial
  -- Only the press of the button and the movement depend on each other.
  have keeps : Deed.KeepsOrder calls σ := by
    have places : ∀ i j : Fin 4, i < j → σ i < σ j ∨ i = 0 := by decide
    have others : ∀ j : Fin 4, 0 < j → (calls.get (σ j)).atom? ≠ some (.key (.letter 0)) := by
      decide
    intro i j less dependent
    refine (places i j less).resolve_right ?_
    rintro rfl
    cases dependent with
    | atom a first second =>
        cases first
        exact others j less second
    | motion first second => exact first.elim
    | wheel first second => exact first.elim
    | drag first second => exact first.elim
    | click first second => cases first
  obtain ⟨left, made⟩ : ∃ left, Act.each Deed.act calls start = .ok () left := ⟨_, rfl⟩
  obtain ⟨other, madeToo, tracker, _⟩ :=
    independent_inputs_commute.1 calls σ start left inputs keeps made
  exact ⟨rfl, left, other, made, madeToo, tracker⟩

end InputChords
