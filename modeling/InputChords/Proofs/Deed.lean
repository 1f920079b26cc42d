import InputChords.Proofs.FrontEnds

/-! The single calls of a tracker, each as a function from the tracker before it to the tracker
after it. Whether a call ends in a fault or not, it leaves what that function says. -/

namespace InputChords

variable {κ : Type}

structure Stroke where
  dx : Value
  dy : Value

namespace Stroke

def across (m : Stroke) : List Float := m.dx.toReal.toOption.toList

/-- What it adds along the second axis, which is only looked at after the first. -/
def along (m : Stroke) : List Float :=
  match m.dx.toReal with
  | .error _ => []
  | .ok _ => m.dy.toReal.toOption.toList

def outcome (threshold : Number) (m : Stroke) : Except Fault Bool := do
  let _ ← m.dx.toReal
  let _ ← m.dy.toReal
  Act.exceeds threshold m.dx m.dy

def isLong (threshold : Number) (m : Stroke) : Bool :=
  match m.outcome threshold with
  | .ok far => far
  | .error _ => false

end Stroke

namespace Travel

def add (t : Travel) (m : Stroke) : Travel :=
  ⟨m.across.foldl (· + ·) t.dx, m.along.foldl (· + ·) t.dy⟩

variable (m : Stroke) (t : Travel) (x y : Float) (fault : Fault)

theorem add_unread (first : m.dx.toReal = .error fault) : t.add m = t := by
  simp [add, Stroke.across, Stroke.along, first, Except.toOption]

theorem add_half (first : m.dx.toReal = .ok x) (second : m.dy.toReal = .error fault) :
    t.add m = { t with dx := t.dx + x } := by
  simp [add, Stroke.across, Stroke.along, first, second, Except.toOption]

theorem add_read (first : m.dx.toReal = .ok x) (second : m.dy.toReal = .ok y) :
    t.add m = ⟨t.dx + x, t.dy + y⟩ := by
  simp [add, Stroke.across, Stroke.along, first, second, Except.toOption]

end Travel

def Settings.isSoon (settings : Settings) (previous now : Number) : Bool :=
  match settings.doubleClickMs.toReal, now.sub previous with
  | .ok ms, .ok elapsed => elapsed.le (.real (ms / 1000.0))
  | _, _ => false

namespace Tracker

def isSecond (t : Tracker κ) : Except Number.Overflow Bool := do
  let interval ← t.interval
  match t.lastLeftPress with
  | none => return false
  | some previous => return (← t.clock.sub previous).le interval

def clicked (t : Tracker κ) (second : Bool) : Tracker κ :=
  if second then { t with doubleClicked := true, lastLeftPress := none }
  else { t with lastLeftPress := some t.clock }

theorem leftPress_eq (t : Tracker κ) : t.leftPress = t.isSecond.map t.clicked := by
  rw [leftPress, isSecond]
  cases t.interval with
  | error overflow => rfl
  | ok interval =>
      cases t.lastLeftPress with
      | none => rfl
      | some previous =>
          show Except.bind (t.clock.sub previous) _ =
            Except.map t.clicked (Except.bind (t.clock.sub previous) _)
          cases t.clock.sub previous with
          | error overflow => rfl
          | ok elapsed =>
              show (if elapsed.le interval then pure (t.clicked true) else pure (t.clicked false)) =
                (pure (t.clicked (elapsed.le interval)) : Except Number.Overflow (Tracker κ))
              cases elapsed.le interval <;> rfl

theorem isSecond_eq_ok {t : Tracker κ} {second : Bool} (timed : t.isSecond = .ok second) :
    second = t.lastLeftPress.any (t.settings.isSoon · t.clock) := by
  obtain ⟨interval, asked, timed⟩ := bind_eq_ok timed
  obtain ⟨ms, read, asked⟩ := bind_eq_ok asked
  cases asked
  cases last : t.lastLeftPress with
  | none =>
      rw [last] at timed
      cases timed
      rfl
  | some previous =>
      rw [last] at timed
      obtain ⟨elapsed, passed, timed⟩ := bind_eq_ok timed
      cases timed
      rw [Option.any_some, Settings.isSoon, read, passed]

/-- Pressing what is held changes nothing, nor does a press that cannot be timed. -/
def press (t : Tracker κ) (a : Atom) : Tracker κ :=
  if a ∈ t.held then t
  else if a = leftClick then
    match t.leftPress with
    | .ok u => u.hold a
    | .error _ => t
  else t.hold a

def pressOutcome (t : Tracker κ) (a : Atom) : Except Fault Unit :=
  if a ∈ t.held then .ok ()
  else if a = leftClick then (Value.realOverflow t.leftPress).map fun _ => ()
  else .ok ()

def release (t : Tracker κ) (a : Atom) : Tracker κ := if a ∈ t.held then t.letGo a else t

def releaseAll (t : Tracker κ) : Tracker κ := { t with held := ∅, released := t.released ∪ t.held }

def addMotion (t : Tracker κ) (m : Stroke) : Tracker κ :=
  { t with
    motion := t.motion.add m
    dragged := t.dragged || (m.isLong t.settings.movementThreshold && decide (leftClick ∈ t.held)) }

/-- The movement to a place, unless it is the first place that is ever seen. -/
def strokeTo (t : Tracker κ) (x y : Float) : Option Stroke :=
  t.pointer.map fun origin => ⟨.real (x - origin.1), .real (y - origin.2)⟩

def moveTo (t : Tracker κ) (x y : Float) : Tracker κ :=
  let u := { t with pointer := some (x, y) }
  match t.strokeTo x y with
  | none => u
  | some m => u.addMotion m

def addWheel (t : Tracker κ) (m : Stroke) : Tracker κ := { t with wheel := t.wheel.add m }

end Tracker

inductive Deed (κ : Type) where
  | press (v : Value)
  | release (v : Value)
  | releaseAll
  | addMotion (dx dy : Value)
  | moveTo (x y : Value)
  | addWheel (dx dy : Value)
  | attach (bindings : Option (Bindings κ))
  | setClock (now : Number)

namespace Deed

def act : Deed κ → Act κ Unit
  | press v => Act.pressValue v
  | release v => Act.releaseValue v
  | releaseAll => Act.releaseAll
  | addMotion dx dy => Act.addMotion dx dy
  | moveTo x y => Act.moveTo x y
  | addWheel dx dy => Act.addWheel dx dy
  | attach bindings => Act.attach bindings
  | setClock now => Act.setClock now

def outcome : Deed κ → Tracker κ → Except Fault Unit
  | press (.atom a), t => t.pressOutcome a
  | press v, _ => .error (v.blame .notAnAtom)
  | release (.atom _), _ => .ok ()
  | release v, _ => .error (v.blame .notAnAtom)
  | addMotion dx dy, t => do
    let _ ← Stroke.outcome t.settings.movementThreshold ⟨dx, dy⟩
    return ()
  | moveTo x y, _ | addWheel x y, _ => do
    let _ ← x.toReal
    let _ ← y.toReal
    return ()
  | releaseAll, _ | attach _, _ | setClock _, _ => .ok ()

theorem outcome_addMotion_real (x y : Float) (t : Tracker κ) :
    (addMotion (.real x) (.real y)).outcome t = .ok () := by
  show (Act.exceeds _ (.real x) (.real y)).bind (fun _ => .ok ()) = .ok ()
  rw [Act.exceeds_real]
  rfl

/-- What the call leaves, whatever its outcome. Only atoms can be pressed and released, and no place
is seen unless both of its coordinates can be read. -/
def after : Deed κ → Tracker κ → Tracker κ
  | press (.atom a), t => t.press a
  | press _, t => t
  | release (.atom a), t => t.release a
  | release _, t => t
  | releaseAll, t => t.releaseAll
  | addMotion dx dy, t => t.addMotion ⟨dx, dy⟩
  | moveTo x y, t =>
    match x.toReal, y.toReal with
    | .ok x, .ok y => t.moveTo x y
    | _, _ => t
  | addWheel dx dy, t => t.addWheel ⟨dx, dy⟩
  | attach bindings, t => { t with bindings := bindings }
  | setClock now, t => { t with clock := now }

end Deed

namespace Act

variable {α β : Type}

theorem effect_bind_ok {act : Act κ α} {next : α → Act κ β} {s : Session κ} {x : α} {t : Tracker κ}
    {result : Except Fault β × Tracker κ} (first : act.effect s = (.ok x, t))
    (later : ∀ left : Session κ, left.tracker = t → (next x).effect left = result) :
    (act >>= next).effect s = result := by
  rw [effect] at first
  rw [effect_bind]
  cases done : act s with
  | ok y left =>
      rw [done] at first
      obtain ⟨value, tracker⟩ := Prod.mk.inj first
      cases value
      exact later left tracker
  | error fault left =>
      rw [done] at first
      cases congrArg Prod.fst first

theorem effect_trace (message : Except Fault String) (s : Session κ) :
    (trace message).effect s = (.ok (), s.tracker) :=
  matches_trace message s s rfl

theorem effect_press (a : Atom) (s : Session κ) :
    (press a).effect s = (s.tracker.pressOutcome a, s.tracker.press a) := by
  rw [Tracker.press, Tracker.pressOutcome]
  by_cases held : a ∈ s.tracker.held
  · rw [if_pos held, if_pos held, effect, press_held a s held]
  · rw [if_neg held, if_neg held]
    by_cases left : a = Tracker.leftClick
    · subst left
      have opened : press Tracker.leftClick s =
          (demand (Value.realOverflow s.tracker.leftPress) >>= fun t => do
            update fun _ => t
            update (·.hold Tracker.leftClick)
            trace (.ok ("input_pressed atom=" ++ Tracker.leftClick.name))) s := by
        rw [press, get_bind]
        simp only [held, if_false, if_true]
      rw [if_pos rfl, if_pos rfl, effect, opened]
      cases timed : s.tracker.leftPress with
      | error overflow => rfl
      | ok t => exact effect_trace _ { s with tracker := t.hold Tracker.leftClick }
    · have opened : press a s = trace (.ok ("input_pressed atom=" ++ a.name))
          { s with tracker := s.tracker.hold a } := by
        rw [press, get_bind]
        simp only [held, left, if_false]
        rfl
      rw [if_neg left, if_neg left, effect, opened]
      exact effect_trace _ { s with tracker := s.tracker.hold a }

theorem effect_release (a : Atom) (s : Session κ) :
    (release a).effect s = (.ok (), s.tracker.release a) := by
  rw [Tracker.release]
  by_cases held : a ∈ s.tracker.held
  · have opened : release a s = trace (.ok ("input_released atom=" ++ a.name))
        { s with tracker := s.tracker.letGo a } := by
      rw [release, get_bind]
      simp only [held, not_true_eq_false, if_false]
      rfl
    rw [if_pos held, effect, opened]
    exact effect_trace _ { s with tracker := s.tracker.letGo a }
  · rw [if_neg held, effect, release_free a s held]

theorem effect_releaseEach (atoms : List Atom) (s : Session κ) :
    (releaseEach atoms).effect s = (.ok (), atoms.foldl Tracker.release s.tracker) := by
  induction atoms generalizing s with
  | nil => rfl
  | cons a rest ih =>
      refine effect_bind_ok (effect_release a s) fun left tracker => ?_
      rw [ih left, tracker]
      rfl

end Act

namespace Tracker

theorem release_eq (t : Tracker κ) (a : Atom) :
    t.release a =
      { t with
        held := .ofPred fun b => decide (b ∈ t.held ∧ b ≠ a)
        released := .ofPred fun b => decide (b ∈ t.released ∨ (b ∈ t.held ∧ b = a)) } := by
  rw [release]
  by_cases held : a ∈ t.held
  · rw [if_pos held, letGo]
    congr 1 <;> refine AtomSet.ext fun b => ?_
    · simp [AtomSet.mem_erase, AtomSet.mem_ofPred, and_comm]
    · rw [AtomSet.mem_insert, AtomSet.mem_ofPred, decide_eq_true_eq]
      grind
  · rw [if_neg held]
    have same : t.held = .ofPred fun b => decide (b ∈ t.held ∧ b ≠ a) :=
      AtomSet.ext fun b => by
        rw [AtomSet.mem_ofPred, decide_eq_true_eq]
        grind
    have before : t.released = .ofPred fun b => decide (b ∈ t.released ∨ (b ∈ t.held ∧ b = a)) :=
      AtomSet.ext fun b => by
        rw [AtomSet.mem_ofPred, decide_eq_true_eq]
        grind
    rw [← same, ← before]

theorem foldl_release (atoms : List Atom) (t : Tracker κ) :
    atoms.foldl release t =
      { t with
        held := .ofPred fun a => decide (a ∈ t.held ∧ a ∉ atoms)
        released := .ofPred fun a => decide (a ∈ t.released ∨ (a ∈ t.held ∧ a ∈ atoms)) } := by
  induction atoms generalizing t with
  | nil =>
      have held : t.held = .ofPred fun a => decide (a ∈ t.held ∧ a ∉ ([] : List Atom)) :=
        AtomSet.ext fun a => by simp [AtomSet.mem_ofPred]
      have released : t.released =
          .ofPred fun a => decide (a ∈ t.released ∨ (a ∈ t.held ∧ a ∈ ([] : List Atom))) :=
        AtomSet.ext fun a => by simp [AtomSet.mem_ofPred]
      rw [List.foldl_nil, ← held, ← released]
  | cons a rest ih =>
      rw [List.foldl_cons, ih, release_eq]
      congr 1 <;> refine AtomSet.ext fun b => ?_ <;>
        simp only [AtomSet.mem_ofPred, decide_eq_true_eq, List.mem_cons]
      · tauto
      · tauto

theorem foldl_release_listed (t : Tracker κ) {atoms : List Atom}
    (listed : ∀ a, a ∈ atoms ↔ a ∈ t.held) : atoms.foldl release t = t.releaseAll := by
  rw [foldl_release, releaseAll]
  congr 1 <;> refine AtomSet.ext fun a => ?_
  · simp [AtomSet.mem_ofPred, AtomSet.not_mem_empty, listed]
  · simp [AtomSet.mem_ofPred, AtomSet.mem_union, listed]

theorem foldl_release_members (t : Tracker κ) : t.held.members.foldl release t = t.releaseAll :=
  t.foldl_release_listed fun _ => Iff.rfl

end Tracker

namespace Act

theorem effect_releaseAll (s : Session κ) :
    releaseAll.effect s = (.ok (), s.tracker.releaseAll) := by
  rw [← Tracker.foldl_release_members]
  exact effect_releaseEach s.tracker.held.members s

theorem effect_addMotion (dx dy : Value) (s : Session κ) :
    (addMotion dx dy).effect s =
      ((Deed.addMotion dx dy).outcome s.tracker, s.tracker.addMotion ⟨dx, dy⟩) := by
  rw [Deed.outcome, Tracker.addMotion, Stroke.isLong, Stroke.outcome]
  cases readX : dx.toReal with
  | error fault =>
      rw [Travel.add_unread ⟨dx, dy⟩ _ fault readX, addMotion, readX]
      show (Except.error fault, s.tracker) =
        (.error fault, { s.tracker with dragged := s.tracker.dragged || false })
      rw [Bool.or_false]
  | ok x =>
      cases readY : dy.toReal with
      | error fault =>
          rw [Travel.add_half ⟨dx, dy⟩ _ x fault readX readY, addMotion, readX, readY]
          let t := { s.tracker with
            motion := { s.tracker.motion with dx := s.tracker.motion.dx + x } }
          show (Except.error fault, t) =
            (.error fault, { t with dragged := s.tracker.dragged || false })
          rw [Bool.or_false]
      | ok y =>
          rw [Travel.add_read ⟨dx, dy⟩ _ x y readX readY, addMotion, readX, readY]
          let t := { s.tracker with
            motion := ⟨s.tracker.motion.dx + x, s.tracker.motion.dy + y⟩ }
          -- Both distances are added by now, whether they can be compared or not.
          cases asked : exceeds s.tracker.settings.movementThreshold dx dy with
          | error fault =>
              show (demand (exceeds s.tracker.settings.movementThreshold dx dy) >>= _).effect
                { s with tracker := t } =
                (.error fault, { t with dragged := s.tracker.dragged || false })
              rw [Bool.or_false, asked]
              rfl
          | ok far =>
              show (demand (exceeds s.tracker.settings.movementThreshold dx dy) >>= fun far =>
                  if (far && decide (Tracker.leftClick ∈ s.tracker.held)) = true
                    then update fun t => { t with dragged := true } else pure ()).effect
                { s with tracker := t } =
                (.ok (), { t with dragged :=
                  s.tracker.dragged || (far && decide (Tracker.leftClick ∈ s.tracker.held)) })
              rw [asked]
              refine effect_bind_ok rfl fun left tracker => ?_
              by_cases dragging : (far && decide (Tracker.leftClick ∈ s.tracker.held)) = true
              · rw [if_pos dragging, dragging, Bool.or_true]
                exact Prod.ext rfl (congrArg (fun u => { u with dragged := true }) tracker)
              · rw [if_neg dragging, Bool.eq_false_iff.mpr dragging, Bool.or_false]
                exact Prod.ext rfl tracker

theorem effect_moveTo (x y : Value) (s : Session κ) :
    (moveTo x y).effect s =
      ((Deed.moveTo x y).outcome s.tracker, (Deed.moveTo x y).after s.tracker) := by
  rw [Deed.outcome, Deed.after, moveTo]
  cases readX : x.toReal with
  | error fault => rfl
  | ok x =>
      cases readY : y.toReal with
      | error fault => rfl
      | ok y =>
          show (moveTo (.real x) (.real y)).effect s = (.ok (), s.tracker.moveTo x y)
          rw [effect, moveTo_real_eq, Tracker.moveTo, Tracker.strokeTo]
          cases s.tracker.pointer with
          | none => rfl
          | some origin =>
              refine (effect_addMotion _ _ _).trans ?_
              rw [Deed.outcome_addMotion_real]
              rfl

theorem effect_addWheel (dx dy : Value) (s : Session κ) :
    (addWheel dx dy).effect s =
      ((Deed.addWheel dx dy).outcome s.tracker, s.tracker.addWheel ⟨dx, dy⟩) := by
  rw [Deed.outcome, Tracker.addWheel, addWheel]
  cases readX : dx.toReal with
  | error fault =>
      rw [Travel.add_unread ⟨dx, dy⟩ _ fault readX]
      rfl
  | ok x =>
      cases readY : dy.toReal with
      | error fault =>
          rw [Travel.add_half ⟨dx, dy⟩ _ x fault readX readY]
          rfl
      | ok y =>
          rw [Travel.add_read ⟨dx, dy⟩ _ x y readX readY]
          rfl

end Act

theorem Deed.effect_act (d : Deed κ) (s : Session κ) :
    d.act.effect s = (d.outcome s.tracker, d.after s.tracker) := by
  cases d with
  | press v =>
      cases v with
      | atom a => exact Act.effect_press a s
      | _ => rfl
  | release v =>
      cases v with
      | atom a => exact Act.effect_release a s
      | _ => rfl
  | releaseAll => exact Act.effect_releaseAll s
  | addMotion dx dy => exact Act.effect_addMotion dx dy s
  | moveTo x y => exact Act.effect_moveTo x y s
  | addWheel dx dy => exact Act.effect_addWheel dx dy s
  | attach bindings => rfl
  | setClock now => rfl

/-! All that a call can leave of a tracker. -/

namespace Deed

def stroke? (t : Tracker κ) : Deed κ → Option Stroke
  | addMotion dx dy => some ⟨dx, dy⟩
  | moveTo x y =>
    match x.toReal, y.toReal with
    | .ok x, .ok y => t.strokeTo x y
    | _, _ => none
  | _ => none

def scroll? : Deed κ → Option Stroke
  | addWheel dx dy => some ⟨dx, dy⟩
  | _ => none

inductive Leaves (t : Tracker κ) : Deed κ → Tracker κ → Prop where
  | nothing (d : Deed κ) (unmoved : d.stroke? t = none) (unturned : d.scroll? = none) : Leaves t d t
  | hold (a : Atom) (free : a ∉ t.held) (other : a ≠ Tracker.leftClick) :
    Leaves t (press (.atom a)) (t.hold a)
  | click (second : Bool) (free : Tracker.leftClick ∉ t.held) (timed : t.isSecond = .ok second) :
    Leaves t (press (.atom Tracker.leftClick)) ((t.clicked second).hold Tracker.leftClick)
  | letGo (a : Atom) (held : a ∈ t.held) : Leaves t (release (.atom a)) (t.letGo a)
  | releaseAll : Leaves t releaseAll t.releaseAll
  | addMotion (dx dy : Value) : Leaves t (addMotion dx dy) (t.addMotion ⟨dx, dy⟩)
  | arrive (x y : Value) (place : Float × Float) (unmoved : (moveTo x y).stroke? t = none) :
    Leaves t (moveTo x y) { t with pointer := some place }
  | move (x y : Value) (place : Float × Float) (m : Stroke)
    (moved : (moveTo x y).stroke? t = some m) :
    Leaves t (moveTo x y) ({ t with pointer := some place }.addMotion m)
  | addWheel (dx dy : Value) : Leaves t (addWheel dx dy) (t.addWheel ⟨dx, dy⟩)
  | attach (bindings : Option (Bindings κ)) :
    Leaves t (attach bindings) { t with bindings := bindings }
  | setClock (now : Number) : Leaves t (setClock now) { t with clock := now }

theorem leaves_press (a : Atom) (t : Tracker κ) : Leaves t (press (.atom a)) (t.press a) := by
  rw [Tracker.press, t.leftPress_eq]
  by_cases held : a ∈ t.held
  · rw [if_pos held]
    exact .nothing _ rfl rfl
  · rw [if_neg held]
    by_cases left : a = Tracker.leftClick
    · subst left
      rw [if_pos rfl]
      cases timed : t.isSecond with
      | error overflow => exact .nothing _ rfl rfl
      | ok second => exact .click second held timed
    · rw [if_neg left]
      exact .hold a held left

theorem leaves_moveTo (x y : Value) (t : Tracker κ) :
    Leaves t (moveTo x y) ((moveTo x y).after t) := by
  rw [after]
  cases readX : x.toReal with
  | error fault => exact .nothing _ (by simp [stroke?, readX]) rfl
  | ok across =>
      cases readY : y.toReal with
      | error fault => exact .nothing _ (by simp [stroke?, readY]) rfl
      | ok along =>
          have stroke : (moveTo x y).stroke? t = t.strokeTo across along := by
            simp [stroke?, readX, readY]
          show Leaves t (moveTo x y) (t.moveTo across along)
          rw [Tracker.moveTo]
          cases moved : t.strokeTo across along with
          | none => exact .arrive x y _ (stroke.trans moved)
          | some m => exact .move x y _ m (stroke.trans moved)

theorem leaves_after (d : Deed κ) (t : Tracker κ) : Leaves t d (d.after t) := by
  cases d with
  | press v =>
      cases v with
      | atom a => exact leaves_press a t
      | _ => exact .nothing _ rfl rfl
  | release v =>
      cases v with
      | atom a =>
          show Leaves t _ (t.release a)
          rw [Tracker.release]
          by_cases held : a ∈ t.held
          · rw [if_pos held]
            exact .letGo a held
          · rw [if_neg held]
            exact .nothing _ rfl rfl
      | _ => exact .nothing _ rfl rfl
  | releaseAll => exact .releaseAll
  | addMotion dx dy => exact .addMotion dx dy
  | moveTo x y => exact leaves_moveTo x y t
  | addWheel dx dy => exact .addWheel dx dy
  | attach bindings => exact .attach bindings
  | setClock now => exact .setClock now

theorem settings_after (d : Deed κ) (t : Tracker κ) : (d.after t).settings = t.settings := by
  have leaves := d.leaves_after t
  generalize d.after t = u at leaves
  cases leaves with
  | click second free timed => cases second <;> rfl
  | _ => rfl

end Deed

end InputChords
