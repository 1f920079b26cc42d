import InputChords.Proofs.Effect
import InputChords.Proofs.SignBit
import InputChords.Tracker.Canvas
import InputChords.Tracker.Window

/-! The three ways in which input comes to a tracker: events of a host, events of a canvas, and
callbacks of a window. Told of the same signals, they show the same held atoms and the same
snapshots. -/

namespace InputChords

variable {κ : Type}

/-- What is done to an input device. Positive distances of a wheel are to the right and down. -/
inductive Signal where
  | pointer (action : PointerAction) (x y : Float) (button : Int)
  | key (pressed : Bool) (name : String)
  | wheel (dx dy : Float)

namespace Signal

def event : Signal → InputEvent
  | pointer action x y button => .pointer action (.real x) (.real y) (.whole button)
  | key pressed name => .key pressed (.text name)
  | wheel dx dy => .wheel (.real dx) (.real dy)

def type : Signal → String
  | pointer .down _ _ _ => "pointer_down"
  | pointer .up _ _ _ => "pointer_up"
  | pointer .move _ _ _ => "pointer_move"
  | key true _ => "key_down"
  | key false _ => "key_up"
  | wheel _ _ => "wheel"

def fields (g : Signal) : CanvasEvent :=
  ("event_type", .text g.type) ::
    match g with
    | pointer _ x y button => [("x", .real x), ("y", .real y), ("button", .whole button)]
    | key _ name => [("key", .text name)]
    | wheel dx dy => [("dx", .real dx), ("dy", .real dy)]

/-- A press or a release of a button, at a place. Unknown buttons have no place. -/
def clicked (step : Atom → Act κ Unit) (x y : Float) (button : Int) : Act κ Unit :=
  match Button.click? button with
  | none => return ()
  | some c => do
    Act.moveTo (.real x) (.real y)
    step (.click c)

def act : Signal → Act κ Unit
  | pointer .move x y _ => Act.moveTo (.real x) (.real y)
  | pointer .down x y button => clicked Act.press x y button
  | pointer .up x y button => clicked Act.release x y button
  | key pressed name =>
    match KeyName.key? name with
    | none => return ()
    | some k => if pressed then Act.press (.key k) else Act.release (.key k)
  | wheel dx dy => Act.addWheel (.real dx) (.real dy)

/-- Window backends have a code for the key, if the name is that of a key. -/
def Coded : Signal → Prop
  | key _ name => ∀ k, KeyName.key? name = some k → k ∈ KeyCode.coded
  | _ => True

end Signal

section Codes

variable {α : Type}

theorem lookup_of_mem {κ : Type} [BEq κ] [LawfulBEq κ] (codes : List (κ × α))
    (distinct : (codes.map (·.1)).Nodup) (code : κ) (x : α) (member : (code, x) ∈ codes) :
    codes.lookup code = some x := by
  induction codes with
  | nil => cases member
  | cons entry rest ih =>
      obtain ⟨first, y⟩ := entry
      rw [List.map_cons, List.nodup_cons] at distinct
      rcases List.mem_cons.mp member with here | later
      · cases here
        simp
      · have other : code ≠ first := by
          rintro rfl
          exact distinct.1 (List.mem_map.mpr ⟨(_, x), later, rfl⟩)
        rw [List.lookup_cons, beq_eq_false_iff_ne.mpr other]
        exact ih distinct.2 later

variable [DecidableEq α]

def codeIn (codes : List (Int × α)) (x : α) : Option Int :=
  (codes.find? fun entry => entry.2 = x).map (·.1)

theorem exists_codeIn (codes : List (Int × α)) (distinct : (codes.map (·.1)).Nodup) (x : α)
    (known : x ∈ codes.map (·.2)) :
    ∃ code, codeIn codes x = some code ∧ codes.lookup code = some x := by
  obtain ⟨entry, member, same⟩ := List.mem_map.mp known
  have found : (codes.find? fun entry => entry.2 = x).isSome := by
    rw [List.find?_isSome]
    exact ⟨entry, member, by simpa using same⟩
  obtain ⟨⟨code, y⟩, hit⟩ := Option.isSome_iff_exists.mp found
  have listed : y = x := by simpa using List.find?_some hit
  subst listed
  refine ⟨code, ?_, lookup_of_mem codes distinct code _ (List.mem_of_find?_eq_some hit)⟩
  rw [codeIn, hit]
  rfl

end Codes

/-- What a front end may add to a signal: further fields of an event, the scancode of a key, and
whether a key that is held down is told as such or as pressed again. -/
structure Manner where
  fields : CanvasEvent
  scancode : Value
  again : Bool

/-- The calls by which a signal is told, given the atoms that are held. -/
abbrev FrontEnd (κ : Type) := AtomSet → Signal → Manner → List (Act κ Unit)

namespace FrontEnd

def host : FrontEnd κ := fun _ g _ => [Act.consumeAll [g.event]]

def canvas : FrontEnd κ := fun _ g m =>
  [Canvas.deliver Canvas.handlers g.type (g.fields ++ m.fields)]

def clicked (b : Backend) (x y : Float) (button action : Int) : List (Act κ Unit) :=
  match (Button.click? button).bind (codeIn b.clicks) with
  | none => []
  | some code =>
    [Window.onPosition (.real x) (.real y), Window.onButton b (.whole code) (.whole action)]

def typed (b : Backend) (held : AtomSet) (pressed : Bool) (name : String) (m : Manner) :
    List (Act κ Unit) :=
  match KeyName.key? name with
  | none => []
  | some k =>
    let action :=
      if !pressed then b.release else if m.again ∧ .key k ∈ held then b.again else b.press
    match codeIn b.keys k with
    | none => []
    | some code => [Window.onKey b (.whole code) m.scancode (.whole action)]

/-- For a window a wheel that turns up turns a positive distance. -/
def window (b : Backend) : FrontEnd κ
  | _, .pointer .move x y _, _ => [Window.onPosition (.real x) (.real y)]
  | _, .pointer .down x y button, _ => clicked b x y button b.press
  | _, .pointer .up x y button, _ => clicked b x y button b.release
  | held, .key pressed name, m => typed b held pressed name m
  | _, .wheel dx dy, _ => [Window.onScroll (.real dx) (.real (-dy))]

end FrontEnd

def afterAll (calls : List (Act κ Unit)) (s : Session κ) : Session κ :=
  calls.foldl (fun s call => call.after s) s

namespace FrontEnd

inductive Moment where
  | signal (g : Signal) (m : Manner)
  | clock (now : Number)
  | snapshot (frame : Int)

inductive Sight (κ : Type) where
  | held (atoms : AtomSet)
  | taken (snapshot : Except Fault (Snapshot κ))

/-- What can be seen of a tracker: the held atoms after each signal, and the snapshots. -/
def watch [DecidableEq κ] (f : FrontEnd κ) (s : Session κ) : List Moment → List (Sight κ)
  | [] => []
  | .signal g m :: rest =>
    let left := afterAll (f s.tracker.held g m) s
    .held left.tracker.held :: watch f left rest
  | .clock now :: rest => watch f ((Act.setClock now).after s) rest
  | .snapshot frame :: rest =>
    .taken ((Act.snapshot frame).effect s).1 :: watch f ((Act.snapshot frame).after s) rest

def Tells (kind : Signal → Prop) (f : FrontEnd κ) : Prop :=
  ∀ g m, kind g → ∀ s u : Session κ, s.tracker = u.tracker →
    (afterAll (f s.tracker.held g m) s).tracker = (g.act.after u).tracker

theorem Tells.watch [DecidableEq κ] {kind : Signal → Prop} {first second : FrontEnd κ}
    (tells : Tells kind first) (tellsToo : Tells kind second) (moments : List Moment)
    (all : ∀ g m, .signal g m ∈ moments → kind g) (s u : Session κ)
    (tracker : s.tracker = u.tracker) : watch first s moments = watch second u moments := by
  induction moments generalizing s u with
  | nil => rfl
  | cons moment rest ih =>
      have later : ∀ g m, .signal g m ∈ rest → kind g :=
        fun g m member => all g m (List.mem_cons_of_mem _ member)
      cases moment with
      | signal g m =>
          have here := all g m (List.mem_cons_self ..)
          have step := (tells g m here s u tracker).trans (tellsToo g m here u u rfl).symm
          rw [FrontEnd.watch, FrontEnd.watch, ih later _ _ step, step]
      | clock now =>
          rw [FrontEnd.watch, FrontEnd.watch]
          exact ih later _ _ ((Act.matches_setClock now).after tracker)
      | snapshot frame =>
          have same := Act.matches_snapshot (κ := κ) frame
          rw [FrontEnd.watch, FrontEnd.watch, same s u tracker, ih later _ _ (same.after tracker)]

end FrontEnd

namespace Signal

theorem clicked_matches (step : Atom → Act κ Unit) (steps : ∀ a, (step a).Matches (step a))
    (x y : Float) (button : Int) :
    Act.Matches (do
      match ← Act.demand (Button.ofValue (.whole button)) with
      | none => Act.pointer.ignored (.whole button)
      | some c => do
        Act.moveTo (.real x) (.real y)
        step (.click c)) (clicked step x y button) := by
  have read : Button.ofValue (.whole button) = .ok (Button.click? button) := rfl
  rw [read, clicked]
  cases Button.click? button with
  | none => exact Act.matches_trace _
  | some c => exact (Act.matches_moveTo _ _).bind fun _ => steps (.click c)

theorem consume_event (g : Signal) : (Act.consume g.event : Act κ Unit).Matches g.act := by
  cases g with
  | pointer action x y button =>
      cases action with
      | move => exact Act.matches_moveTo _ _
      | down => exact clicked_matches Act.press Act.matches_press x y button
      | up => exact clicked_matches Act.release Act.matches_release x y button
  | key pressed name =>
      have read : KeyName.ofValue (.text name) = .ok (KeyName.key? name) := rfl
      rw [event, Act.consume, Act.key, act, read]
      cases KeyName.key? name with
      | none => exact Act.matches_trace _
      | some k =>
          cases pressed with
          | true => exact Act.matches_press (.key k)
          | false => exact Act.matches_release (.key k)
  | wheel dx dy => exact Act.matches_addWheel _ _

end Signal

namespace FrontEnd

theorem after_consumeAll (event : InputEvent) (s : Session κ) :
    (Act.consumeAll [event]).after s = (Act.consume event).after s := by
  rw [Act.consumeAll, Act.after_bind, Act.after]
  cases Act.consume event s <;> rfl

theorem tracker_consumeAll (g : Signal) {s u : Session κ} (tracker : s.tracker = u.tracker) :
    ((Act.consumeAll [g.event]).after s).tracker = (g.act.after u).tracker := by
  rw [after_consumeAll]
  exact g.consume_event.after tracker

theorem host_tells (kind : Signal → Prop) : Tells kind (host : FrontEnd κ) :=
  fun g _ _ _ _ tracker => tracker_consumeAll g tracker

theorem deliver_fields (g : Signal) (others : CanvasEvent) :
    (Canvas.deliver Canvas.handlers g.type (g.fields ++ others) : Act κ Unit) =
      Act.consumeAll [g.event] := by
  have read (h : CanvasHandler) (event : CanvasEvent) (e : InputEvent)
      (shape : h.read event = .ok (some e)) :
      (Canvas.runEach event [h] : Act κ Unit) = Act.consumeAll [e] := by
    rw [Canvas.runEach, CanvasHandler.run, shape]
    rfl
  cases g with
  | pointer action x y button => cases action <;> exact read .pointer _ _ rfl
  | key pressed name => cases pressed <;> exact read .key _ _ rfl
  | wheel dx dy => exact read .wheel _ _ rfl

theorem canvas_tells (kind : Signal → Prop) : Tells kind (canvas : FrontEnd κ) := by
  intro g m _ s u tracker
  show ((Canvas.deliver Canvas.handlers g.type (g.fields ++ m.fields)).after s).tracker = _
  rw [deliver_fields]
  exact tracker_consumeAll g tracker

end FrontEnd

namespace Window

theorem equals_whole (m n : Int) : (Value.whole m).equals (.whole n) = (m == n) := by
  simp [Value.whole, Value.equals, Value.number?, Number.eq]

theorem actionOf_whole (b : Backend) (n : Int) : actionOf b (.whole n) =
    if n = b.press then some .press else if n = b.release then some .release else none := by
  simp only [actionOf, equals_whole, beq_iff_eq]

theorem apply_press (b : Backend) (a : Atom) :
    (apply b a (.whole b.press) : Act κ Unit) = Act.press a := by
  rw [apply, actionOf_whole, if_pos rfl]

theorem apply_release (b : Backend) (a : Atom) :
    (apply b a (.whole b.release) : Act κ Unit) = Act.release a := by
  rw [apply, actionOf_whole, if_neg b.press_ne_release.symm, if_pos rfl]

theorem apply_again (b : Backend) (a : Atom) (s : Session κ) (held : a ∈ s.tracker.held) :
    apply b a (.whole b.again) s = .ok () s := by
  rw [apply, actionOf_whole, if_neg b.again_ne_release]
  by_cases first : b.again = b.press
  · rw [if_pos first]
    exact Act.press_held a s held
  · rw [if_neg first]
    rfl

theorem onKey_code (b : Backend) (k : Key) (code : Int) (known : b.key? code = some k)
    (scancode action : Value) :
    (onKey b (.whole code) scancode action : Act κ Unit) = apply b (.key k) action := by
  have found : b.keyOf (.whole code) = .ok (some k) := by
    rw [← known]
    rfl
  rw [onKey, found]
  rfl

theorem onButton_code (b : Backend) (c : Click) (code : Int) (known : b.click? code = some c)
    (action : Value) :
    (onButton b (.whole code) action : Act κ Unit) = apply b (.click c) action := by
  have found : b.clickOf (.whole code) = .ok (some c) := by
    rw [← known]
    rfl
  rw [onButton, found]
  rfl

end Window

namespace Act

theorem exceeds_real (threshold : Number) (x y : Float) :
    exceeds threshold (.real x) (.real y) =
      .ok (threshold.lt (.real x.abs) || threshold.lt (.real y.abs)) := by
  show (if threshold.lt (.real x.abs) = true then (.ok true : Except Fault Bool)
    else .ok (threshold.lt (.real y.abs))) = _
  cases threshold.lt (.real x.abs) <;> rfl

theorem addMotion_real (x y : Float) (s : Session κ) :
    ∃ left, addMotion (.real x) (.real y) s = .ok () left := by
  have asked : addMotion (.real x) (.real y) s =
      (demand (exceeds s.tracker.settings.movementThreshold (.real x) (.real y)) >>= fun long =>
        if long && decide (Tracker.leftClick ∈ s.tracker.held)
          then update fun t => { t with dragged := true } else pure ())
        { s with tracker := { s.tracker with
            motion := ⟨s.tracker.motion.dx + x, s.tracker.motion.dy + y⟩ } } := rfl
  rw [asked, exceeds_real]
  generalize (_ || _) = long
  show ∃ left, (if long && decide (Tracker.leftClick ∈ s.tracker.held)
    then update fun t => { t with dragged := true } else pure ()) _ = _
  split <;> exact ⟨_, rfl⟩

theorem moveTo_real_eq (x y : Float) (s : Session κ) :
    moveTo (.real x) (.real y) s =
      (s.tracker.pointer.elim (pure ()) fun last =>
          addMotion (.real (x - last.1)) (.real (y - last.2)))
        { s with tracker := { s.tracker with pointer := some (x, y) } } := by
  have known (pointer : Option (Float × Float)) (last : s.tracker.pointer = pointer) :
      moveTo (.real x) (.real y) s =
        moveTo (.real x) (.real y) { s with tracker := { s.tracker with pointer := pointer } } := by
    rw [← last]
  cases last : s.tracker.pointer with
  | none => exact known _ last
  | some origin => exact known _ last

theorem moveTo_real (x y : Float) (s : Session κ) :
    ∃ left, moveTo (.real x) (.real y) s = .ok () left := by
  rw [moveTo_real_eq]
  cases s.tracker.pointer with
  | none => exact ⟨_, rfl⟩
  | some origin => exact addMotion_real _ _ _

end Act

namespace FrontEnd

theorem click_known (button : Int) (c : Click) (known : Button.click? button = some c) :
    c ∈ [Click.left, .right, .middle] := by
  rw [Button.click?] at known
  split at known
  · cases known
    decide
  · split at known
    · cases known
      decide
    · split at known
      · cases known
        decide
      · cases known

theorem clicked_tells (b : Backend) (x y : Float) (button action : Int) (step : Atom → Act κ Unit)
    (steps : ∀ a, (step a).Matches (step a))
    (means : ∀ a, Window.apply b a (.whole action) = step a) {s u : Session κ}
    (tracker : s.tracker = u.tracker) :
    (afterAll (clicked b x y button action) s).tracker =
      ((Signal.clicked step x y button).after u).tracker := by
  rw [clicked, Signal.clicked]
  cases known : Button.click? button with
  | none => exact tracker
  | some c =>
      have coded : c ∈ b.clicks.map (·.2) := by
        rw [b.clicks_coded]
        exact click_known button c known
      obtain ⟨code, found, back⟩ := exists_codeIn b.clicks b.clicks_nodup c coded
      simp only [Option.bind_some, found]
      show ((Window.onButton b (.whole code) (.whole action)).after
        ((Act.moveTo (.real x) (.real y)).after s)).tracker = _
      obtain ⟨left, moved⟩ := Act.moveTo_real x y u
      rw [Window.onButton_code b c code back, means, Act.after_bind, moved]
      apply (steps (.click c)).after
      rw [(Act.matches_moveTo (.real x) (.real y)).after tracker, Act.after_ok moved]

theorem typed_tells (b : Backend) (pressed : Bool) (name : String) (m : Manner)
    (coded : (Signal.key pressed name).Coded) {s u : Session κ} (tracker : s.tracker = u.tracker) :
    (afterAll (typed b s.tracker.held pressed name m) s).tracker =
      ((Signal.key pressed name).act.after u).tracker := by
  rw [typed, Signal.act]
  cases known : KeyName.key? name with
  | none => exact tracker
  | some k =>
      have listed : k ∈ b.keys.map (·.2) := by
        rw [b.keys_coded]
        exact coded k known
      obtain ⟨code, found, back⟩ := exists_codeIn b.keys b.keys_nodup k listed
      have told (action : Int) :
          (Window.onKey b (.whole code) m.scancode (.whole action) : Act κ Unit) =
            Window.apply b (.key k) (.whole action) :=
        Window.onKey_code b k code back m.scancode _
      simp only [found, told]
      cases pressed with
      | false =>
          show ((Window.apply b (.key k) (.whole b.release)).after s).tracker = _
          rw [Window.apply_release]
          exact (Act.matches_release (.key k)).after tracker
      | true =>
          by_cases again : m.again = true ∧ Atom.key k ∈ s.tracker.held
          · simp only [Bool.not_true, Bool.false_eq_true, if_false, again, and_self, if_true]
            show ((Window.apply b (.key k) (.whole b.again)).after s).tracker =
              ((Act.press (.key k)).after u).tracker
            have held : Atom.key k ∈ u.tracker.held := tracker ▸ again.2
            rw [Act.after_ok (Window.apply_again b _ s again.2),
              Act.after_ok (Act.press_held _ u held), tracker]
          · simp only [Bool.not_true, Bool.false_eq_true, if_false, again]
            show ((Window.apply b (.key k) (.whole b.press)).after s).tracker = _
            rw [Window.apply_press]
            exact (Act.matches_press (.key k)).after tracker

theorem window_tells (b : Backend) : Tells Signal.Coded (window b : FrontEnd κ) := by
  intro g m coded s u tracker
  cases g with
  | pointer action x y button =>
      cases action with
      | move => exact (Act.matches_moveTo _ _).after tracker
      | down =>
          exact clicked_tells b x y button b.press Act.press Act.matches_press
            (Window.apply_press b) tracker
      | up =>
          exact clicked_tells b x y button b.release Act.release Act.matches_release
            (Window.apply_release b) tracker
  | key pressed name => exact typed_tells b pressed name m coded tracker
  | wheel dx dy =>
      show ((Window.onScroll (.real dx) (.real (-dy))).after s).tracker = _
      have turned : (Window.onScroll (.real dx) (.real (-dy)) : Act κ Unit) =
          Act.addWheel (.real dx) (.real (- -dy)) := rfl
      rw [turned, SignBit.neg_neg]
      exact (Act.matches_addWheel _ _).after tracker

end FrontEnd

theorem consumeAll_ok (events : List InputEvent) (s left : Session κ)
    (done : Act.consumeAll events s = .ok () left) :
    left = afterAll (events.map fun e => Act.consumeAll [e]) s := by
  induction events generalizing s with
  | nil =>
      cases done
      rfl
  | cons event rest ih =>
      change EStateM.bind (Act.consume event) (fun _ => Act.consumeAll rest) s = _ at done
      rw [EStateM.bind] at done
      cases step : Act.consume event s with
      | error fault between =>
          rw [step] at done
          cases done
      | ok x between =>
          rw [step] at done
          show left = afterAll _ ((Act.consumeAll [event]).after s)
          rw [FrontEnd.after_consumeAll, Act.after_ok step]
          exact ih between done

/-- Host, canvas and window show the same, whatever they log and whatever else they tell. -/
theorem front_ends_agree [DecidableEq κ] :
    (∀ (b : Backend) (moments : List FrontEnd.Moment),
      (∀ g m, .signal g m ∈ moments → g.Coded) →
      ∀ (t : Tracker κ) (log canvasLog windowLog : Option (List Log.Record)),
        FrontEnd.canvas.watch ⟨t, canvasLog⟩ moments = FrontEnd.host.watch ⟨t, log⟩ moments ∧
        (FrontEnd.window b).watch ⟨t, windowLog⟩ moments = FrontEnd.host.watch ⟨t, log⟩ moments) ∧
    ∀ (events : List InputEvent) (s left : Session κ), Act.consumeAll events s = .ok () left →
      left = afterAll (events.map fun e => Act.consumeAll [e]) s := by
  refine ⟨?_, consumeAll_ok⟩
  intro b moments coded t log canvasLog windowLog
  have host := FrontEnd.host_tells (κ := κ) Signal.Coded
  constructor
  · exact (FrontEnd.canvas_tells Signal.Coded).watch host moments coded _ _ rfl
  · exact (FrontEnd.window_tells b).watch host moments coded _ _ rfl

def FrontEnd.heldKey : List FrontEnd.Moment :=
  [.signal (.key true "Control") ⟨[], .whole 29, false⟩,
    .signal (.key true "Control") ⟨[("repeat", .bool true)], .whole 29, true⟩,
    .signal (.pointer .down 1.0 2.0 9) ⟨[], .null, false⟩,
    .signal (.pointer .down 1.0 2.0 1) ⟨[("modifiers", .list [.text "Control"])], .null, false⟩,
    .signal (.wheel 0.0 3.0) ⟨[], .null, false⟩,
    .snapshot 1,
    .signal (.key false "Control") ⟨[], .whole 29, false⟩,
    .snapshot 2]

theorem front_ends_agree_held_key :
    let t : Tracker String := .start .standard none
    (∀ g m, .signal g m ∈ FrontEnd.heldKey → g.Coded) ∧
    (∃ atoms rest, FrontEnd.host.watch ⟨t, some []⟩ FrontEnd.heldKey = .held atoms :: rest ∧
      .key (.modifier .ctrl (some .left)) ∈ atoms) ∧
    FrontEnd.canvas.watch ⟨t, none⟩ FrontEnd.heldKey =
      FrontEnd.host.watch ⟨t, some []⟩ FrontEnd.heldKey ∧
    (FrontEnd.window .standard).watch ⟨t, none⟩ FrontEnd.heldKey =
      FrontEnd.host.watch ⟨t, some []⟩ FrontEnd.heldKey ∧
    ∃ left, Act.consumeAll [.wheel (.real 0.0) (.real 3.0), .wheel (.real 1.0) (.real 2.0)]
        ⟨t, none⟩ = .ok () left ∧
      left = afterAll [Act.consumeAll [.wheel (.real 0.0) (.real 3.0)],
        Act.consumeAll [.wheel (.real 1.0) (.real 2.0)]] ⟨t, none⟩ := by
  intro t
  have known : KeyName.key? "Control" = some (.modifier .ctrl (some .left)) := by decide +kernel
  have key (pressed : Bool) : (Signal.key pressed "Control").Coded := by
    intro k found
    rw [known] at found
    cases found
    decide
  have coded : ∀ g m, .signal g m ∈ FrontEnd.heldKey → g.Coded := by
    intro g m member
    simp only [FrontEnd.heldKey, List.mem_cons, List.not_mem_nil, FrontEnd.Moment.signal.injEq,
      reduceCtorEq, false_or, or_false] at member
    rcases member with ⟨rfl, _⟩ | ⟨rfl, _⟩ | ⟨rfl, _⟩ | ⟨rfl, _⟩ | ⟨rfl, _⟩ | ⟨rfl, _⟩
    · exact key true
    · exact key true
    · trivial
    · trivial
    · trivial
    · exact key false
  have agree := front_ends_agree.1 .standard FrontEnd.heldKey coded t (some []) none none
  refine ⟨coded, ⟨_, _, rfl, by decide +kernel⟩, agree.1, agree.2, _, rfl, ?_⟩
  exact front_ends_agree.2 [.wheel (.real 0.0) (.real 3.0), .wheel (.real 1.0) (.real 2.0)] _ _ rfl

end InputChords
