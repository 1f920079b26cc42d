import Mathlib.Logic.Relation
import InputChords.Proofs.Act
import InputChords.Tracker.Canvas
import InputChords.Tracker.Window

/-! The single changes that operations are made of. Whatever a host, a canvas or a window does, and
whatever fault it ends in, a tracker goes from change to change, each under its own condition. -/

namespace InputChords

variable {κ : Type}

namespace Tracker

/-- What happens at once is one change: the press that completes a double click also holds the
button. -/
inductive Change : Tracker κ → Tracker κ → Prop where
  | press (t : Tracker κ) (a : Atom) (free : a ∉ t.held) (other : a ≠ leftClick) :
    Change t (t.hold a)
  | pressLeft (t u : Tracker κ) (free : leftClick ∉ t.held) (timed : t.leftPress = .ok u) :
    Change t (u.hold leftClick)
  | release (t : Tracker κ) (a : Atom) (held : a ∈ t.held) : Change t (t.letGo a)
  | moveAcross (t : Tracker κ) (x : Float) :
    Change t { t with motion := { t.motion with dx := t.motion.dx + x } }
  | moveAlong (t : Tracker κ) (y : Float) :
    Change t { t with motion := { t.motion with dy := t.motion.dy + y } }
  | drag (t : Tracker κ) (held : leftClick ∈ t.held) : Change t { t with dragged := true }
  | point (t : Tracker κ) (x y : Float) : Change t { t with pointer := some (x, y) }
  | turnAcross (t : Tracker κ) (x : Float) :
    Change t { t with wheel := { t.wheel with dx := t.wheel.dx + x } }
  | turnAlong (t : Tracker κ) (y : Float) :
    Change t { t with wheel := { t.wheel with dy := t.wheel.dy + y } }
  | attach (t : Tracker κ) (bindings : Option (Bindings κ)) :
    Change t { t with bindings := bindings }
  | tick (t : Tracker κ) (now : Number) : Change t { t with clock := now }

abbrev Path : Tracker κ → Tracker κ → Prop := Relation.ReflTransGen Change

theorem leftPress_activeActions (t u : Tracker κ) (timed : t.leftPress = .ok u) :
    u.activeActions = t.activeActions := by
  rw [leftPress] at timed
  obtain ⟨interval, _, timed⟩ := bind_eq_ok timed
  cases last : t.lastLeftPress with
  | none =>
      rw [last] at timed
      cases timed
      rfl
  | some previous =>
      rw [last] at timed
      obtain ⟨elapsed, _, timed⟩ := bind_eq_ok timed
      by_cases soon : elapsed.le interval = true
      · rw [if_pos soon] at timed
        cases timed
        rfl
      · rw [if_neg soon] at timed
        cases timed
        rfl

theorem Change.activeActions {t u : Tracker κ} (change : Change t u) :
    u.activeActions = t.activeActions := by
  cases change with
  | pressLeft u free timed => exact leftPress_activeActions t u timed
  | _ => rfl

theorem Path.activeActions {t u : Tracker κ} (path : t.Path u) :
    u.activeActions = t.activeActions := by
  induction path with
  | refl => rfl
  | tail _ change ih => rw [change.activeActions, ih]

end Tracker

namespace Act

variable {α β : Type}

def Leads (act : Act κ α) : Prop := ∀ s : Session κ, s.tracker.Path (act.after s).tracker

theorem leads_pure (x : α) : Leads (pure x : Act κ α) := fun _ => .refl

theorem leads_get : Leads (get : Act κ (Session κ)) := fun _ => .refl

theorem leads_throw (fault : Fault) : Leads (throw fault : Act κ α) := fun _ => .refl

theorem Leads.bind {act : Act κ α} {next : α → Act κ β} (first : act.Leads)
    (second : ∀ x, (next x).Leads) : (act >>= next).Leads :=
  after_bind_of Tracker.Path Tracker.Path Tracker.Path Relation.ReflTransGen.trans id first second

theorem leads_demand (x : Except Fault α) : Leads (demand x : Act κ α) := by
  cases x with
  | ok x => exact leads_pure x
  | error fault => exact leads_throw fault

theorem leads_update (f : Tracker κ → Tracker κ) (change : ∀ t : Tracker κ, t.Change (f t)) :
    Leads (update f) :=
  fun s => .single (change s.tracker)

theorem leads_append (records : List Log.Record) :
    Leads (append records : Act κ Unit) := fun _ => .refl

theorem leads_write (logger : String) (message : Except Fault String) :
    Leads (write logger message : Act κ Unit) := by
  cases message with
  | ok text => exact leads_append [Log.debug logger text]
  | error fault => exact leads_pure ()

theorem leads_trace (message : Except Fault String) : Leads (trace message : Act κ Unit) := by
  refine leads_get.bind fun s => ?_
  by_cases traced : s.tracker.settings.inputTrace = true
  · rw [if_pos traced]
    exact leads_write logger message
  · rw [if_neg traced]
    exact leads_pure ()

theorem leads_attach (bindings : Option (Bindings κ)) : Leads (attach bindings) :=
  leads_update _ fun t => .attach t bindings

theorem leads_setClock (now : Number) :
    Leads (setClock now : Act κ Unit) := leads_update _ fun t => .tick t now

theorem path_trace (s : Session κ) (t : Tracker κ) (message : Except Fault String)
    (change : s.tracker.Change t) :
    s.tracker.Path ((trace message).after { s with tracker := t }).tracker :=
  .head change (leads_trace message { s with tracker := t })

theorem leads_press (a : Atom) : Leads (press a : Act κ Unit) := by
  intro s
  by_cases held : a ∈ s.tracker.held
  · rw [after_ok (press_held a s held)]
  · by_cases left : a = Tracker.leftClick
    · subst left
      rw [after_press_left s held]
      cases timed : s.tracker.leftPress with
      | error overflow => exact .refl
      | ok t => exact path_trace s _ _ (.pressLeft s.tracker t held timed)
    · rw [after_press_other a s held left]
      exact path_trace s _ _ (.press s.tracker a held left)

theorem leads_release (a : Atom) : Leads (release a : Act κ Unit) := by
  intro s
  by_cases held : a ∈ s.tracker.held
  · rw [after_release_held a s held]
    exact path_trace s _ _ (.release s.tracker a held)
  · rw [after_ok (release_free a s held)]

theorem leads_releaseEach (atoms : List Atom) : Leads (releaseEach atoms : Act κ Unit) := by
  induction atoms with
  | nil => exact leads_pure ()
  | cons a rest ih => exact (leads_release a).bind fun _ => ih

theorem leads_releaseAll : Leads (releaseAll : Act κ Unit) :=
  leads_get.bind fun s => leads_releaseEach s.tracker.held.members

theorem leads_atomOf (v : Value) : Leads (atomOf v : Act κ Atom) := by
  cases v <;> first | exact leads_pure _ | exact leads_throw _

theorem after_get_bind (next : Session κ → Act κ α) (s : Session κ) :
    (get >>= next).after s = (next s).after s := rfl

theorem leads_addMotion (dx dy : Value) : Leads (addMotion dx dy : Act κ Unit) := by
  refine (leads_demand _).bind fun x => ?_
  refine Leads.bind (leads_update _ fun t => .moveAcross t x) fun _ => ?_
  refine (leads_demand _).bind fun y => ?_
  refine Leads.bind (leads_update _ fun t => .moveAlong t y) fun _ => ?_
  -- The flag is set in the very state that is looked at, so the button is still held.
  intro s
  rw [after_get_bind, after_bind]
  cases exceeds s.tracker.settings.movementThreshold dx dy with
  | error fault => exact .refl
  | ok long =>
      show s.tracker.Path (after (if (long && decide (Tracker.leftClick ∈ s.tracker.held)) = true
        then update fun t => { t with dragged := true } else pure ()) s).tracker
      by_cases dragging : (long && decide (Tracker.leftClick ∈ s.tracker.held)) = true
      · rw [if_pos dragging]
        rw [Bool.and_eq_true, decide_eq_true_iff] at dragging
        exact .single (.drag s.tracker dragging.2)
      · rw [if_neg dragging]
        exact .refl

theorem leads_moveTo (x y : Value) : Leads (moveTo x y : Act κ Unit) := by
  refine (leads_demand _).bind fun x => ?_
  refine (leads_demand _).bind fun y => ?_
  refine leads_get.bind fun s => ?_
  refine Leads.bind (leads_update _ fun t => .point t x y) fun _ => ?_
  cases s.tracker.pointer with
  | none => exact leads_pure ()
  | some origin => exact leads_addMotion _ _

theorem leads_addWheel (dx dy : Value) : Leads (addWheel dx dy : Act κ Unit) := by
  refine (leads_demand _).bind fun x => ?_
  refine Leads.bind (leads_update _ fun t => .turnAcross t x) fun _ => ?_
  refine (leads_demand _).bind fun y => ?_
  exact leads_update _ fun t => .turnAlong t y

theorem leads_pointer (action : PointerAction) (x y button : Value) :
    Leads (pointer action x y button : Act κ Unit) := by
  cases action with
  | move => exact leads_moveTo x y
  | down =>
      refine (leads_demand _).bind fun click => ?_
      cases click with
      | none => exact leads_trace _
      | some c => exact (leads_moveTo x y).bind fun _ => leads_press (.click c)
  | up =>
      refine (leads_demand _).bind fun click => ?_
      cases click with
      | none => exact leads_trace _
      | some c => exact (leads_moveTo x y).bind fun _ => leads_release (.click c)

theorem leads_key (pressed : Bool) (name : Value) : Leads (key pressed name : Act κ Unit) := by
  refine (leads_demand _).bind fun found => ?_
  cases found with
  | none => exact leads_trace _
  | some k =>
      cases pressed with
      | true => exact leads_press (.key k)
      | false => exact leads_release (.key k)

theorem leads_consume (event : InputEvent) : Leads (consume event : Act κ Unit) := by
  cases event with
  | pointer action x y button => exact leads_pointer action x y button
  | key pressed name => exact leads_key pressed name
  | wheel dx dy => exact leads_addWheel dx dy
  | foreign v => exact leads_throw _

theorem leads_consumeAll (events : List InputEvent) : Leads (consumeAll events : Act κ Unit) := by
  induction events with
  | nil => exact leads_pure ()
  | cons event rest ih => exact (leads_consume event).bind fun _ => ih

theorem leads_stepOn (step : Bindings.Step κ α) : Leads (stepOn step) := by
  refine (leads_append _).bind fun _ => ?_
  refine (leads_demand _).bind fun edited => ?_
  exact (leads_attach (some edited.1)).bind fun _ => leads_pure edited.2

theorem leads_bindings (operation : String) : Leads (bindings operation : Act κ (Bindings κ)) := by
  refine leads_get.bind fun s => ?_
  cases s.tracker.bindings with
  | none => exact leads_throw _
  | some b => exact leads_pure b

end Act

theorem CanvasHandler.leads_run (h : CanvasHandler) (event : CanvasEvent) :
    Act.Leads (h.run event : Act κ Unit) := by
  refine (Act.leads_demand _).bind fun found => ?_
  cases found with
  | none => exact Act.leads_pure ()
  | some e => exact Act.leads_consume e

theorem Canvas.leads_runEach (event : CanvasEvent) (handlers : List CanvasHandler) :
    Act.Leads (runEach event handlers : Act κ Unit) := by
  induction handlers with
  | nil => exact Act.leads_pure ()
  | cons h rest ih => exact (h.leads_run event).bind fun _ => ih

namespace Window

theorem leads_apply (b : Backend) (a : Atom) (action : Value) :
    Act.Leads (apply b a action : Act κ Unit) := by
  rw [apply]
  cases actionOf b action with
  | none => exact Act.leads_pure ()
  | some found =>
      cases found with
      | press => exact Act.leads_press a
      | release => exact Act.leads_release a

theorem leads_onKey (b : Backend) (key scancode action : Value) :
    Act.Leads (onKey b key scancode action : Act κ Unit) := by
  refine (Act.leads_demand _).bind fun found => ?_
  cases found with
  | none => exact Act.leads_write _ _
  | some k => exact leads_apply b (.key k) action

theorem leads_onButton (b : Backend) (button action : Value) :
    Act.Leads (onButton b button action : Act κ Unit) := by
  refine (Act.leads_demand _).bind fun found => ?_
  cases found with
  | none => exact Act.leads_write _ _
  | some c => exact leads_apply b (.click c) action

theorem leads_onScroll (dx dy : Value) : Act.Leads (onScroll dx dy : Act κ Unit) := by
  refine (Act.leads_demand _).bind fun x => ?_
  refine (Act.leads_demand _).bind fun y => ?_
  exact Act.leads_addWheel _ _

theorem leads_onFocus (focused : Value) : Act.Leads (onFocus focused : Act κ Unit) := by
  rw [onFocus]
  by_cases lost : (!focused.truthy) = true
  · rw [if_pos lost]
    exact Act.leads_releaseAll
  · rw [if_neg lost]
    exact Act.leads_pure ()

end Window

end InputChords
