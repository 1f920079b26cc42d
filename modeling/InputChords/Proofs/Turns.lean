import InputChords.Proofs.ActionEdges
import InputChords.Proofs.Deed

/-! The calls that an occurrence comes to, one after the other, each with the tracker in which it is
made. Whatever an occurrence does to a tracker is done by these calls. -/

namespace InputChords

variable {κ : Type}

structure Turn (κ : Type) where
  deed : Deed κ
  before : Tracker κ

def Turn.after (turn : Turn κ) : Tracker κ := turn.deed.after turn.before

/-- Each turn begins where the one before it ended, as far as is seen of the trackers. -/
def Chained {α : Type} (seen : Tracker κ → α) (x : α) : List (Turn κ) → α → Prop
  | [], y => x = y
  | turn :: rest, y => seen turn.before = x ∧ Chained seen (seen turn.after) rest y

namespace Chained

variable {α : Type} {seen : Tracker κ → α} {x y z : α} {t u : Tracker κ}

theorem append {first second : List (Turn κ)} (here : Chained seen x first y)
    (next : Chained seen y second z) : Chained seen x (first ++ second) z := by
  induction first generalizing x with
  | nil =>
      cases here
      exact next
  | cons turn rest ih => exact ⟨here.1, ih here.2⟩

theorem part {turns : List (Turn κ)} (chained : Chained id t turns u) :
    Chained seen (seen t) turns (seen u) := by
  induction turns generalizing t with
  | nil =>
      cases chained
      rfl
  | cons turn rest ih =>
      obtain ⟨rfl, later⟩ := chained
      exact ⟨rfl, ih later⟩

theorem keeps {turns : List (Turn κ)} {motive : Tracker κ → Prop} (chained : Chained id t turns u)
    (step : ∀ turn ∈ turns, motive turn.before → motive turn.after) (start : motive t) :
    (∀ turn ∈ turns, motive turn.before) ∧ motive u := by
  induction turns generalizing t with
  | nil =>
      cases chained
      exact ⟨by simp, start⟩
  | cons turn rest ih =>
      obtain ⟨rfl, later⟩ := chained
      have next := step turn (List.mem_cons_self ..) start
      obtain ⟨all, last⟩ := ih later (fun other member => step other (.tail _ member)) next
      refine ⟨?_, last⟩
      intro other member
      rcases List.mem_cons.mp member with rfl | member
      · exact start
      · exact all other member

end Chained

namespace Deed

def turns : List (Deed κ) → Tracker κ → List (Turn κ)
  | [], _ => []
  | d :: rest, t =>
    ⟨d, t⟩ ::
      match d.outcome t with
      | .ok _ => turns rest (d.after t)
      | .error _ => []

def run : List (Deed κ) → Tracker κ → Tracker κ
  | [], t => t
  | d :: rest, t =>
    match d.outcome t with
    | .ok _ => run rest (d.after t)
    | .error _ => d.after t

theorem chained_turns (calls : List (Deed κ)) (t : Tracker κ) :
    Chained id t (turns calls t) (run calls t) := by
  induction calls generalizing t with
  | nil => rfl
  | cons d rest ih =>
      rw [turns, run]
      cases d.outcome t with
      | ok done => exact ⟨rfl, ih (d.after t)⟩
      | error fault => exact ⟨rfl, rfl⟩

theorem mem_of_mem_turns {calls : List (Deed κ)} {t : Tracker κ} {turn : Turn κ}
    (member : turn ∈ turns calls t) : turn.deed ∈ calls := by
  induction calls generalizing t with
  | nil => cases member
  | cons d rest ih =>
      rw [turns] at member
      rcases List.mem_cons.mp member with rfl | later
      · exact List.mem_cons_self ..
      · cases outcome : d.outcome t with
        | ok done =>
            rw [outcome] at later
            exact .tail _ (ih later)
        | error fault =>
            rw [outcome] at later
            cases later

section Found

variable {α : Type} {found : Except Fault (Option α)} {calls : α → List (Deed κ)}

def ifFound (found : Except Fault (Option α)) (calls : α → List (Deed κ)) : List (Deed κ) :=
  match found with
  | .ok (some x) => calls x
  | _ => []

theorem mem_ifFound {d : Deed κ} :
    d ∈ ifFound found calls ↔ ∃ x, found = .ok (some x) ∧ d ∈ calls x := by
  cases found with
  | error fault => simp [ifFound]
  | ok known => cases known <;> simp [ifFound]

end Found

end Deed

namespace InputEvent

def clickCalls (step : Value → Deed κ) (x y button : Value) : List (Deed κ) :=
  Deed.ifFound (Button.ofValue button) fun c => [.moveTo x y, step (.atom (.click c))]

def calls : InputEvent → List (Deed κ)
  | pointer .move x y _ => [.moveTo x y]
  | pointer .down x y button => clickCalls .press x y button
  | pointer .up x y button => clickCalls .release x y button
  | key pressed name =>
    Deed.ifFound (KeyName.ofValue name) fun k =>
      [if pressed then .press (.atom (.key k)) else .release (.atom (.key k))]
  | wheel dx dy => [.addWheel dx dy]
  | foreign _ => []

end InputEvent

def CanvasHandler.calls (h : CanvasHandler) (event : CanvasEvent) : List (Deed κ) :=
  Deed.ifFound (h.read event) InputEvent.calls

namespace Window

def calls (b : Backend) (a : Atom) (action : Value) : List (Deed κ) :=
  match actionOf b action with
  | some .press => [.press (.atom a)]
  | some .release => [.release (.atom a)]
  | none => []

def keyCalls (b : Backend) (key action : Value) : List (Deed κ) :=
  Deed.ifFound (b.keyOf key) fun k => calls b (.key k) action

def buttonCalls (b : Backend) (button action : Value) : List (Deed κ) :=
  Deed.ifFound (b.clickOf button) fun c => calls b (.click c) action

def scrollCalls (dx dy : Value) : List (Deed κ) :=
  match dx.toReal, dy.toReal with
  | .ok x, .ok y => [.addWheel (.real x) (.real (-y))]
  | _, _ => []

def focusCalls (focused : Value) : List (Deed κ) := if focused.truthy then [] else [.releaseAll]

theorem mem_calls {b : Backend} {a : Atom} {action : Value} {d : Deed κ}
    (called : d ∈ calls b a action) :
    d = .press (.atom a) ∨ d = .release (.atom a) := by
  rw [calls] at called
  split at called
  · exact .inl (List.mem_singleton.mp called)
  · exact .inr (List.mem_singleton.mp called)
  · cases called

theorem mem_scrollCalls {dx dy : Value} {d : Deed κ} (called : d ∈ scrollCalls dx dy) :
    ∃ x y, d = .addWheel x y := by
  rw [scrollCalls] at called
  split at called
  · exact ⟨_, _, List.mem_singleton.mp called⟩
  · cases called

theorem mem_focusCalls {focused : Value} {d : Deed κ} (called : d ∈ focusCalls focused) :
    d = .releaseAll := by
  rw [focusCalls] at called
  split at called
  · cases called
  · exact List.mem_singleton.mp called

end Window

namespace Act

variable {α β : Type}

def ComesTo (act : Act κ α) (calls : List (Deed κ)) : Prop :=
  ∀ s : Session κ, (act.after s).tracker = Deed.run calls s.tracker

theorem comesTo_pure (x : α) : ComesTo (pure x : Act κ α) [] := fun _ => rfl

theorem comesTo_throw (fault : Fault) : ComesTo (throw fault : Act κ α) [] := fun _ => rfl

theorem comesTo_write (logger : String) (message : Except Fault String) :
    ComesTo (write logger message : Act κ Unit) [] := by
  intro s
  cases message <;> rfl

theorem comesTo_trace (message : Except Fault String) :
    ComesTo (trace message : Act κ Unit) [] := by
  intro s
  rw [trace, after_get_bind]
  by_cases traced : s.tracker.settings.inputTrace = true
  · rw [if_pos traced]
    exact comesTo_write logger message s
  · rw [if_neg traced]
    rfl

theorem comesTo_act (d : Deed κ) : d.act.ComesTo [d] := by
  intro s
  rw [tracker_after, d.effect_act, Deed.run]
  cases d.outcome s.tracker <;> rfl

theorem comesTo_act_bind (d : Deed κ) {next : Unit → Act κ β} {calls : List (Deed κ)}
    (later : (next ()).ComesTo calls) : (d.act >>= next).ComesTo (d :: calls) := by
  intro s
  have both := d.effect_act s
  rw [effect] at both
  rw [after_bind, Deed.run]
  cases done : d.act s with
  | ok x left =>
      rw [done] at both
      obtain ⟨outcome, tracker⟩ := Prod.mk.inj both
      rw [← outcome, ← tracker]
      exact later left
  | error fault left =>
      rw [done] at both
      obtain ⟨outcome, tracker⟩ := Prod.mk.inj both
      rw [← outcome, ← tracker]

theorem comesTo_ifFound {found : Except Fault (Option α)} {next : Option α → Act κ Unit}
    {calls : α → List (Deed κ)} (nothing : (next none).ComesTo [])
    (something : ∀ x, (next (some x)).ComesTo (calls x)) :
    (demand found >>= next).ComesTo (Deed.ifFound found calls) := by
  cases found with
  | error fault => exact comesTo_throw fault
  | ok known =>
      cases known with
      | none => exact nothing
      | some x => exact something x

theorem comesTo_pointer (action : PointerAction) (x y button : Value) :
    (pointer action x y button : Act κ Unit).ComesTo
      (InputEvent.pointer action x y button).calls := by
  cases action with
  | move => exact comesTo_act (.moveTo x y)
  | down =>
      refine comesTo_ifFound (comesTo_trace _) fun c => ?_
      exact comesTo_act_bind (.moveTo x y) (comesTo_act (.press (.atom (.click c))))
  | up =>
      refine comesTo_ifFound (comesTo_trace _) fun c => ?_
      exact comesTo_act_bind (.moveTo x y) (comesTo_act (.release (.atom (.click c))))

theorem comesTo_key (pressed : Bool) (name : Value) :
    (key pressed name : Act κ Unit).ComesTo (InputEvent.key pressed name).calls := by
  refine comesTo_ifFound (comesTo_trace _) fun k => ?_
  cases pressed with
  | true => exact comesTo_act (.press (.atom (.key k)))
  | false => exact comesTo_act (.release (.atom (.key k)))

theorem comesTo_consume (event : InputEvent) :
    (consume event : Act κ Unit).ComesTo event.calls := by
  cases event with
  | pointer action x y button => exact comesTo_pointer action x y button
  | key pressed name => exact comesTo_key pressed name
  | wheel dx dy => exact comesTo_act (.addWheel dx dy)
  | foreign v => exact comesTo_throw _

def each (step : α → Act κ Unit) : List α → Act κ Unit
  | [] => return ()
  | x :: rest => do
    step x
    each step rest

theorem consumeAll_eq_each (events : List InputEvent) :
    (consumeAll events : Act κ Unit) = each consume events := by
  induction events with
  | nil => rfl
  | cons event rest ih => rw [consumeAll, each, ih]

def eachTurns (step : α → Act κ Unit) (calls : α → List (Deed κ)) :
    List α → Session κ → List (Turn κ)
  | [], _ => []
  | x :: rest, s =>
    Deed.turns (calls x) s.tracker ++
      match step x s with
      | .ok _ left => eachTurns step calls rest left
      | .error _ _ => []

theorem chained_each (step : α → Act κ Unit) (calls : α → List (Deed κ))
    (comes : ∀ x, (step x).ComesTo (calls x)) (xs : List α) (s : Session κ) :
    Chained id s.tracker (eachTurns step calls xs s) ((each step xs).after s).tracker := by
  induction xs generalizing s with
  | nil => rfl
  | cons x rest ih =>
      -- What a step leaves is where the next one begins, and where the run ends after a fault.
      have here := Deed.chained_turns (calls x) s.tracker
      have left := comes x s
      rw [after] at left
      rw [each, after_bind, eachTurns]
      cases done : step x s with
      | ok _ next =>
          rw [done] at left
          rw [← left] at here
          exact here.append (ih next)
      | error fault next =>
          rw [done] at left
          rw [← left] at here
          rw [List.append_nil]
          exact here

theorem mem_of_mem_eachTurns {step : α → Act κ Unit} {calls : α → List (Deed κ)} {xs : List α}
    {s : Session κ} {turn : Turn κ} (member : turn ∈ eachTurns step calls xs s) :
    ∃ x ∈ xs, turn.deed ∈ calls x := by
  induction xs generalizing s with
  | nil => cases member
  | cons x rest ih =>
      rw [eachTurns] at member
      rcases List.mem_append.mp member with here | later
      · exact ⟨x, List.mem_cons_self .., Deed.mem_of_mem_turns here⟩
      · cases done : step x s with
        | ok _ left =>
            rw [done] at later
            obtain ⟨y, present, called⟩ := ih later
            exact ⟨y, .tail _ present, called⟩
        | error fault left =>
            rw [done] at later
            cases later

def Edits (act : Act κ α) : Prop :=
  ∀ s : Session κ, ∃ b, (act.after s).tracker = { s.tracker with bindings := b }

theorem edits_pure (x : α) : Edits (pure x : Act κ α) := fun s => ⟨s.tracker.bindings, rfl⟩

theorem Edits.bind {act : Act κ α} {next : α → Act κ β} (first : act.Edits)
    (second : ∀ x, (next x).Edits) : (act >>= next).Edits := by
  intro s
  obtain ⟨b, here⟩ := first s
  rw [after] at here
  rw [after_bind]
  cases done : act s with
  | ok x left =>
      rw [done] at here
      obtain ⟨c, later⟩ := second x left
      exact ⟨c, later.trans (by rw [here])⟩
  | error fault left =>
      rw [done] at here
      exact ⟨b, here⟩

theorem edits_bindings (operation : String) : Edits (bindings operation : Act κ (Bindings κ)) := by
  intro s
  rw [bindings, after_get_bind]
  cases s.tracker.bindings <;> exact ⟨_, rfl⟩

theorem edits_stepOn (step : Bindings.Step κ α) : Edits (stepOn step) := by
  intro s
  rw [stepOn]
  cases step.outcome <;> exact ⟨_, rfl⟩

theorem chained_calls {act : Act κ α} {calls : List (Deed κ)} (comes : act.ComesTo calls)
    (s : Session κ) :
    Chained id s.tracker (Deed.turns calls s.tracker) (act.after s).tracker := by
  rw [comes s]
  exact Deed.chained_turns calls s.tracker

theorem chained_edit {act : Act κ α} (edits : act.Edits) (s : Session κ) :
    Chained id s.tracker [⟨.attach (act.after s).tracker.bindings, s.tracker⟩]
      (act.after s).tracker := by
  obtain ⟨b, edited⟩ := edits s
  rw [edited]
  exact ⟨rfl, rfl⟩

end Act

theorem Canvas.runEach_eq_each (event : CanvasEvent) (handlers : List CanvasHandler) :
    (runEach event handlers : Act κ Unit) = Act.each (·.run event) handlers := by
  induction handlers with
  | nil => rfl
  | cons h rest ih => rw [runEach, Act.each, ih]

theorem CanvasHandler.comesTo_run (event : CanvasEvent) (h : CanvasHandler) :
    (h.run event : Act κ Unit).ComesTo (h.calls event) :=
  Act.comesTo_ifFound (Act.comesTo_pure ()) Act.comesTo_consume

namespace Window

theorem comesTo_apply (b : Backend) (a : Atom) (action : Value) :
    (apply b a action : Act κ Unit).ComesTo (calls b a action) := by
  rw [apply, calls]
  cases actionOf b action with
  | none => exact Act.comesTo_pure ()
  | some found =>
      cases found with
      | press => exact Act.comesTo_act (.press (.atom a))
      | release => exact Act.comesTo_act (.release (.atom a))

theorem comesTo_onKey (b : Backend) (key scancode action : Value) :
    (onKey b key scancode action : Act κ Unit).ComesTo (keyCalls b key action) :=
  Act.comesTo_ifFound (Act.comesTo_write logger _) fun k => comesTo_apply b (.key k) action

theorem comesTo_onButton (b : Backend) (button action : Value) :
    (onButton b button action : Act κ Unit).ComesTo (buttonCalls b button action) :=
  Act.comesTo_ifFound (Act.comesTo_write logger _) fun c => comesTo_apply b (.click c) action

theorem comesTo_onScroll (dx dy : Value) :
    (onScroll dx dy : Act κ Unit).ComesTo (scrollCalls dx dy) := by
  rw [onScroll, scrollCalls]
  cases dx.toReal with
  | error fault => exact Act.comesTo_throw fault
  | ok x =>
      cases dy.toReal with
      | error fault => exact Act.comesTo_throw fault
      | ok y => exact Act.comesTo_act (.addWheel (.real x) (.real (-y)))

theorem comesTo_onFocus (focused : Value) :
    (onFocus focused : Act κ Unit).ComesTo (focusCalls focused) := by
  rw [onFocus, focusCalls]
  cases focused.truthy with
  | true => exact Act.comesTo_pure ()
  | false => exact Act.comesTo_act .releaseAll

end Window

def Canvas.called (c : Canvas) (name : String) : List CanvasHandler :=
  (c.filter fun entry => entry.1 == name).map (·.2)

namespace Occurrence

/-- The turns of an occurrence. An edit of the bindings attaches what it makes of them. -/
def turns [DecidableEq κ] [Quotable κ] (o : Occurrence κ) (s : Session κ) : List (Turn κ) :=
  match o with
  | operation (.press v) => Deed.turns [.press v] s.tracker
  | operation (.release v) => Deed.turns [.release v] s.tracker
  | operation .releaseAll => Deed.turns [.releaseAll] s.tracker
  | operation (.addMotion dx dy) => Deed.turns [.addMotion dx dy] s.tracker
  | operation (.moveTo x y) => Deed.turns [.moveTo x y] s.tracker
  | operation (.addWheel dx dy) => Deed.turns [.addWheel dx dy] s.tracker
  | operation (.consume events) => Act.eachTurns Act.consume InputEvent.calls events s
  | operation (.attach bindings) => Deed.turns [.attach bindings] s.tracker
  | operation (.setClock now) => Deed.turns [.setClock now] s.tracker
  | canvas c name event => Act.eachTurns (·.run event) (·.calls event) (c.called name) s
  | windowKey b key _ action => Deed.turns (Window.keyCalls b key action) s.tracker
  | windowButton b button action => Deed.turns (Window.buttonCalls b button action) s.tracker
  | windowPosition x y => Deed.turns [.moveTo x y] s.tracker
  | windowScroll dx dy => Deed.turns (Window.scrollCalls dx dy) s.tracker
  | windowFocus focused => Deed.turns (Window.focusCalls focused) s.tracker
  | o@(bind _ _) | o@(bindChord _ _) | o@(unbind _) =>
    [⟨.attach (o.act.after s).tracker.bindings, s.tracker⟩]

theorem chained_turns [DecidableEq κ] [Quotable κ] (o : Occurrence κ) (s : Session κ) :
    Chained id s.tracker (o.turns s) (o.act.after s).tracker := by
  cases o with
  | operation o =>
      cases o with
      | consume events =>
          show Chained id _ _ ((Act.consumeAll events).after s).tracker
          rw [Act.consumeAll_eq_each]
          exact Act.chained_each _ _ Act.comesTo_consume events s
      | press v => exact Act.chained_calls (Act.comesTo_act (.press v)) s
      | release v => exact Act.chained_calls (Act.comesTo_act (.release v)) s
      | releaseAll => exact Act.chained_calls (Act.comesTo_act .releaseAll) s
      | addMotion dx dy => exact Act.chained_calls (Act.comesTo_act (.addMotion dx dy)) s
      | moveTo x y => exact Act.chained_calls (Act.comesTo_act (.moveTo x y)) s
      | addWheel dx dy => exact Act.chained_calls (Act.comesTo_act (.addWheel dx dy)) s
      | attach bindings => exact Act.chained_calls (Act.comesTo_act (.attach bindings)) s
      | setClock now => exact Act.chained_calls (Act.comesTo_act (.setClock now)) s
  | bind action expression =>
      have step := (Act.edits_bindings "bind").bind fun b =>
        Act.edits_stepOn (b.bind action expression)
      exact Act.chained_edit (step.bind fun _ => Act.edits_pure ()) s
  | bindChord action chord =>
      exact Act.chained_edit ((Act.edits_bindings _).bind fun b => Act.edits_stepOn _) s
  | unbind action =>
      exact Act.chained_edit ((Act.edits_bindings _).bind fun b => Act.edits_stepOn _) s
  | canvas c name event =>
      show Chained id _ _ ((Canvas.runEach event (c.called name)).after s).tracker
      rw [Canvas.runEach_eq_each]
      exact Act.chained_each _ _ (CanvasHandler.comesTo_run event) (c.called name) s
  | windowKey b key scancode action =>
      exact Act.chained_calls (Window.comesTo_onKey b key scancode action) s
  | windowButton b button action =>
      exact Act.chained_calls (Window.comesTo_onButton b button action) s
  | windowPosition x y => exact Act.chained_calls (Act.comesTo_act (.moveTo x y)) s
  | windowScroll dx dy => exact Act.chained_calls (Window.comesTo_onScroll dx dy) s
  | windowFocus focused => exact Act.chained_calls (Window.comesTo_onFocus focused) s

/-- The calls that an occurrence may come to. -/
def Calls (o : Occurrence κ) (d : Deed κ) : Prop :=
  match o with
  | operation (.press v) => d = .press v
  | operation (.release v) => d = .release v
  | operation .releaseAll => d = .releaseAll
  | operation (.addMotion dx dy) => d = .addMotion dx dy
  | operation (.moveTo x y) | windowPosition x y => d = .moveTo x y
  | operation (.addWheel dx dy) => d = .addWheel dx dy
  | operation (.consume events) => ∃ event ∈ events, d ∈ event.calls
  | operation (.attach bindings) => d = .attach bindings
  | operation (.setClock now) => d = .setClock now
  | canvas c name event => ∃ h ∈ c.called name, d ∈ h.calls event
  | windowKey b key _ action => d ∈ Window.keyCalls b key action
  | windowButton b button action => d ∈ Window.buttonCalls b button action
  | windowScroll dx dy => d ∈ Window.scrollCalls dx dy
  | windowFocus focused => d ∈ Window.focusCalls focused
  | bind _ _ | bindChord _ _ | unbind _ => ∃ b, d = .attach b

theorem calls_of_mem_turns [DecidableEq κ] [Quotable κ] (o : Occurrence κ) (s : Session κ)
    (turn : Turn κ) (member : turn ∈ o.turns s) : o.Calls turn.deed := by
  have single {d : Deed κ} (member : turn ∈ Deed.turns [d] s.tracker) : turn.deed = d :=
    List.mem_singleton.mp (Deed.mem_of_mem_turns member)
  have edit {b : Option (Bindings κ)} (member : turn ∈ [(⟨.attach b, s.tracker⟩ : Turn κ)]) :
      ∃ b, turn.deed = .attach b :=
    ⟨b, congrArg Turn.deed (List.mem_singleton.mp member)⟩
  cases o with
  | operation o =>
      cases o with
      | consume events => exact Act.mem_of_mem_eachTurns member
      | _ => exact single member
  | canvas c name event => exact Act.mem_of_mem_eachTurns member
  | windowPosition x y => exact single member
  | windowKey b key scancode action => exact Deed.mem_of_mem_turns member
  | windowButton b button action => exact Deed.mem_of_mem_turns member
  | windowScroll dx dy => exact Deed.mem_of_mem_turns member
  | windowFocus focused => exact Deed.mem_of_mem_turns member
  | bind action expression => exact edit member
  | bindChord action chord => exact edit member
  | unbind action => exact edit member

end Occurrence

end InputChords
