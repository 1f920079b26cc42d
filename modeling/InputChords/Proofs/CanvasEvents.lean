import InputChords.Proofs.Failure
import InputChords.Proofs.Turns

/-! Events of a canvas, whatever stands in their fields. A handler passes over an event that it can
make nothing of, unless it cannot even look up its type, and it changes nothing where a number is
too large to be read. -/

namespace InputChords

variable {κ : Type}

namespace Value

theorem toReal_of_number {v : Value} {n : Number} (number : v.number? = some n) :
    v.toReal = realOverflow n.toReal := by
  cases v with
  | bool b =>
      cases number
      rfl
  | number m =>
      cases number
      rfl
  | _ => cases number

theorem toReal_error {v : Value} {n : Number} {fault : Fault} (number : v.number? = some n)
    (failed : v.toReal = .error fault) : fault = .realOverflow := by
  rw [toReal_of_number number] at failed
  cases read : n.toReal with
  | error overflow =>
      rw [read] at failed
      cases failed
      rfl
  | ok x =>
      rw [read] at failed
      cases failed

end Value

namespace CanvasEvent

def distance (event : CanvasEvent) (name : String) : Value :=
  (Named.get? event name).getD (.real 0.0)

inductive Pairs (v w : Value) : Except Fault (Option (Float × Float)) → Prop where
  | other (unlike : v.number? = none ∨ w.number? = none) : Pairs v w (.ok none)
  | large (numbers : v.number? ≠ none ∧ w.number? ≠ none)
    (large : v.toReal = .error .realOverflow ∨ w.toReal = .error .realOverflow) :
    Pairs v w (.error .realOverflow)
  | read (numbers : v.number? ≠ none ∧ w.number? ≠ none) (x y : Float)
    (across : v.toReal = .ok x) (along : w.toReal = .ok y) : Pairs v w (.ok (some (x, y)))

theorem real?_eq (v : Value) : real? v = v.number?.map fun _ => v.toReal := by
  cases number : v.number? with
  | none => rw [real?, number, Option.map_none, Option.map_none]
  | some n => rw [real?, number, Option.map_some, Option.map_some, v.toReal_of_number number]

theorem pairs_reals? (v w : Value) : Pairs v w (reals? v w) := by
  rw [reals?, real?_eq, real?_eq]
  cases first : v.number? with
  | none => exact .other (.inl first)
  | some m =>
      cases second : w.number? with
      | none => exact .other (.inr second)
      | some n =>
          have numbers : v.number? ≠ none ∧ w.number? ≠ none := by simp [first, second]
          cases across : v.toReal with
          | error fault =>
              cases Value.toReal_error first across
              exact .large numbers (.inl across)
          | ok x =>
              cases along : w.toReal with
              | error fault =>
                  cases Value.toReal_error second along
                  exact .large numbers (.inr along)
              | ok y => exact .read numbers x y across along

theorem hashable_type {event : CanvasEvent} {name : String}
    (type : event.field "event_type" = .text name) :
    (event.field "event_type").hashable = .ok () := by
  rw [type]
  rfl

section Types

variable {α : Type} (known : String → Option α) (event : CanvasEvent)

inductive Looks : Except Fault (Option α) → Prop where
  | refused (fault : Fault) (failed : (event.field "event_type").hashable = .error fault) :
    Looks (.error fault)
  | unknown (member : (event.field "event_type").hashable = .ok ())
    (other : ∀ name, event.field "event_type" = .text name → known name = none) : Looks (.ok none)
  | known (name : String) (x : α) (type : event.field "event_type" = .text name)
    (found : known name = some x) : Looks (.ok (some x))

theorem looks_typeAmong : event.Looks known (event.typeAmong known) := by
  rw [typeAmong]
  cases type : event.field "event_type" with
  | text name =>
      show event.Looks known (.ok (known name))
      cases found : known name with
      | some x => exact .known name x type found
      | none =>
          refine .unknown (hashable_type type) fun other same => ?_
          cases type.symm.trans same
          exact found
  | _ =>
      cases member : Value.hashable _ with
      | error fault => exact .refused fault (type ▸ member)
      | ok _ =>
          refine .unknown (type ▸ member) fun name same => ?_
          cases type.symm.trans same

end Types

end CanvasEvent

namespace CanvasHandler

variable (h : CanvasHandler) (event : CanvasEvent)

def types : CanvasHandler → List String
  | pointer => ["pointer_down", "pointer_move", "pointer_up"]
  | key => ["key_down", "key_up"]
  | wheel => ["wheel"]

def numbers : CanvasHandler → List Value
  | pointer => [event.field "x", event.field "y"]
  | key => []
  | wheel => [event.distance "dx", event.distance "dy"]

/-- The event is of a type that the handler takes, and what it looks at is of the right kind. -/
structure Suits : Prop where
  type : ∃ name ∈ h.types, event.field "event_type" = .text name
  name : h = key → ∃ name, event.field "key" = .text name
  numbers : ∀ v ∈ h.numbers event, v.number? ≠ none

def Refuses (fault : Fault) : Prop :=
  h ≠ wheel ∧ (event.field "event_type").hashable = .error fault

structure Overflows : Prop where
  suits : h.Suits event
  large : ∃ v ∈ h.numbers event, v.toReal = .error .realOverflow

/-- The left button goes down, and it cannot be told how long ago it went down before. -/
structure Untimed (t : Tracker κ) : Prop where
  suits : h.Suits event
  fits : ¬ h.Overflows event
  pressed : event.field "event_type" = .text "pointer_down"
  button : Button.ofValue event.button = .ok (some .left)
  free : Tracker.leftClick ∉ t.held
  late : t.isSecond = .error .tooLarge

def Fails (t : Tracker κ) (fault : Fault) : Prop :=
  h.Refuses event fault ∨ fault = .realOverflow ∧ (h.Overflows event ∨ h.Untimed event t)

inductive Tells : Signal → Prop where
  | pointer (action : PointerAction) (x y : Float) (n : Int)
    (type : event.field "event_type" = .text (Signal.pointer action x y n).type)
    (across : (event.field "x").toReal = .ok x) (along : (event.field "y").toReal = .ok y)
    (button : event.button.number? = some (.whole n)) : Tells (.pointer action x y n)
  | key (pressed : Bool) (name : String)
    (type : event.field "event_type" = .text (Signal.key pressed name).type)
    (named : event.field "key" = .text name) : Tells (.key pressed name)
  | wheel (dx dy : Float) (type : event.field "event_type" = .text (Signal.wheel dx dy).type)
    (across : (event.distance "dx").toReal = .ok dx)
    (along : (event.distance "dy").toReal = .ok dy) : Tells (.wheel dx dy)

inductive Meets : Act κ Unit → Prop where
  | refused (fault : Fault) (refuses : h.Refuses event fault) : Meets (throw fault)
  | passed (taken : ∀ fault, ¬ h.Refuses event fault) (unsuited : ¬ h.Suits event) :
    Meets (pure ())
  | overflowed (overflows : h.Overflows event) : Meets (throw .realOverflow)
  | told (suits : h.Suits event) (fits : ¬ h.Overflows event) (g : Signal) (told : Tells event g) :
    Meets (Act.consume g.event)

variable {h event}

theorem not_refuses (member : (event.field "event_type").hashable = .ok ()) (fault : Fault) :
    ¬ h.Refuses event fault :=
  fun refuses => nomatch member.symm.trans refuses.2

theorem Suits.not_refuses (suits : h.Suits event) (fault : Fault) : ¬ h.Refuses event fault := by
  obtain ⟨name, _, type⟩ := suits.type
  exact CanvasHandler.not_refuses (CanvasEvent.hashable_type type) fault

theorem not_suits (other : ∀ name ∈ h.types, event.field "event_type" ≠ .text name) :
    ¬ h.Suits event := by
  rintro ⟨⟨name, taken, type⟩, -, -⟩
  exact other name taken type

end CanvasHandler

theorem PointerAction.type_of_ofName? {name : String} {action : PointerAction}
    (found : ofName? name = some action) (x y : Float) (n : Int) :
    name = (Signal.pointer action x y n).type := by
  rw [ofName?] at found
  split_ifs at found with down up move
  · cases found
    exact down
  · cases found
    exact up
  · cases found
    exact move

theorem Button.ofValue_of_number {v : Value} {n : Int} (number : v.number? = some (.whole n)) :
    ofValue v = .ok (click? n) := by
  cases v with
  | bool b =>
      cases number
      rfl
  | number m =>
      cases number
      rfl
  | _ => cases number

theorem KeyAction.type_of_ofName? {name : String} {pressed : Bool}
    (found : ofName? name = some pressed) (k : String) : name = (Signal.key pressed k).type := by
  rw [ofName?] at found
  split_ifs at found with down up
  · cases found
    exact down
  · cases found
    exact up

namespace CanvasHandler

theorem mem_types_pointer {name : String} :
    name ∈ pointer.types ↔ PointerAction.ofName? name ≠ none := by
  rw [PointerAction.ofName?, types]
  split_ifs <;> simp [*]

theorem mem_types_key {name : String} : name ∈ key.types ↔ KeyAction.ofName? name ≠ none := by
  rw [KeyAction.ofName?, types]
  split_ifs <;> simp [*]

end CanvasHandler

namespace CanvasEvent

theorem button_number (event : CanvasEvent) : ∃ n, event.button.number? = some (.whole n) := by
  rw [button]
  split
  · exact ⟨_, rfl⟩
  · exact ⟨_, rfl⟩
  · exact ⟨_, rfl⟩

theorem consume_pointer (event : CanvasEvent) (action : PointerAction) (x y : Value) {n : Int}
    (number : event.button.number? = some (.whole n)) :
    (Act.consume (.pointer action x y event.button) : Act κ Unit) =
      Act.consume (.pointer action x y (.whole n)) := by
  rw [button] at number ⊢
  split at number
  · cases number
    cases action <;> rfl
  · cases number
    rfl
  · cases number
    rfl

end CanvasEvent

namespace CanvasHandler

section Pair

variable {h : CanvasHandler} {event : CanvasEvent} {v w : Value} (two : h.numbers event = [v, w])

include two

theorem suits_pair (type : ∃ name ∈ h.types, event.field "event_type" = .text name)
    (other : h ≠ key) : h.Suits event ↔ v.number? ≠ none ∧ w.number? ≠ none := by
  constructor
  · intro suits
    exact ⟨suits.numbers v (by simp [two]), suits.numbers w (by simp [two])⟩
  · rintro ⟨first, second⟩
    refine ⟨type, fun same => absurd same other, fun u member => ?_⟩
    rw [two] at member
    rcases List.mem_pair.mp member with rfl | rfl
    · exact first
    · exact second

theorem meets_pair (type : ∃ name ∈ h.types, event.field "event_type" = .text name)
    (other : h ≠ key) (made : Float → Float → InputEvent)
    (tells : ∀ x y, v.toReal = .ok x → w.toReal = .ok y →
      ∃ g, Tells event g ∧ (Act.consume (made x y) : Act κ Unit) = Act.consume g.event) :
    Meets (κ := κ) h event (do
      match ← Act.demand (do
        match ← CanvasEvent.reals? v w with
        | none => return none
        | some (x, y) => return some (made x y)) with
      | none => return ()
      | some e => Act.consume e) := by
  have suits := suits_pair two type other
  have pairs := CanvasEvent.pairs_reals? v w
  generalize CanvasEvent.reals? v w = read at pairs
  cases pairs with
  | other unlike =>
      refine .passed (fun fault => ?_) fun suited => ?_
      · obtain ⟨name, -, type⟩ := type
        exact not_refuses (CanvasEvent.hashable_type type) fault
      · obtain ⟨first, second⟩ := suits.mp suited
        exact unlike.elim first second
  | large numbers large =>
      refine .overflowed ⟨suits.mpr numbers, ?_⟩
      rcases large with large | large
      · exact ⟨v, by simp [two], large⟩
      · exact ⟨w, by simp [two], large⟩
  | read numbers x y across along =>
      obtain ⟨g, told, same⟩ := tells x y across along
      show Meets h event (Act.consume (made x y))
      rw [same]
      refine .told (suits.mpr numbers) ?_ g told
      rintro ⟨-, u, member, large⟩
      rw [two] at member
      rcases List.mem_pair.mp member with rfl | rfl
      · cases across.symm.trans large
      · cases along.symm.trans large

end Pair

variable (event : CanvasEvent)

theorem meets_pointer : Meets (κ := κ) pointer event (pointer.run event) := by
  rw [run, read, CanvasEvent.asPointer]
  have looks := event.looks_typeAmong PointerAction.ofName?
  generalize event.typeAmong PointerAction.ofName? = looked at looks
  cases looks with
  | refused fault failed => exact .refused fault ⟨by decide, failed⟩
  | unknown member other =>
      refine .passed (not_refuses member) (not_suits fun name taken type => ?_)
      exact mem_types_pointer.mp taken (other name type)
  | known name action type found =>
      have taken : name ∈ pointer.types := mem_types_pointer.mpr (by simp [found])
      refine meets_pair rfl ⟨name, taken, type⟩ (by decide)
        (fun x y => .pointer action (.real x) (.real y) event.button) fun x y across along => ?_
      obtain ⟨n, number⟩ := event.button_number
      have kind := PointerAction.type_of_ofName? found x y n
      exact ⟨_, .pointer action x y n (kind ▸ type) across along number,
        event.consume_pointer action (.real x) (.real y) number⟩

theorem meets_wheel : Meets (κ := κ) wheel event (wheel.run event) := by
  rw [run, read, CanvasEvent.asWheel]
  split
  · rename_i type
    exact meets_pair (h := wheel) rfl ⟨"wheel", List.mem_singleton_self _, type⟩ (by decide)
      (fun x y => .wheel (.real x) (.real y)) fun x y across along =>
        ⟨_, .wheel x y type across along, rfl⟩
  · rename_i other
    refine .passed (fun fault refuses => refuses.1 rfl) (not_suits fun name taken type => ?_)
    cases List.mem_singleton.mp taken
    exact other type

theorem meets_key : Meets (κ := κ) key event (key.run event) := by
  rw [run, read, CanvasEvent.asKey]
  have looks := event.looks_typeAmong KeyAction.ofName?
  generalize event.typeAmong KeyAction.ofName? = looked at looks
  cases looks with
  | refused fault failed => exact .refused fault ⟨by decide, failed⟩
  | unknown member other =>
      have unsuited : ¬ key.Suits event := not_suits fun name taken type =>
        mem_types_key.mp taken (other name type)
      exact .passed (not_refuses member) unsuited
  | known name pressed type found =>
      have taken : name ∈ key.types := mem_types_key.mpr (by simp [found])
      cases named : event.field "key" with
      | text k =>
          have suits : key.Suits event :=
            ⟨⟨name, taken, type⟩, fun _ => ⟨k, named⟩, by simp [numbers]⟩
          have kind := KeyAction.type_of_ofName? found k
          refine .told suits ?_ (.key pressed k) (.key pressed k (kind ▸ type) named)
          rintro ⟨-, v, listed, -⟩
          cases listed
      | _ =>
          refine .passed (not_refuses (CanvasEvent.hashable_type type)) fun suits => ?_
          obtain ⟨k, text⟩ := suits.name rfl
          cases named.symm.trans text

theorem meets_run (h : CanvasHandler) : Meets (κ := κ) h event (h.run event) := by
  cases h with
  | pointer => exact meets_pointer event
  | key => exact meets_key event
  | wheel => exact meets_wheel event

end CanvasHandler

namespace Tracker

theorem pressOutcome_eq_error {t : Tracker κ} {a : Atom} {fault : Fault} :
    t.pressOutcome a = .error fault ↔
      a = leftClick ∧ a ∉ t.held ∧ t.isSecond = .error .tooLarge ∧ fault = .realOverflow := by
  rw [pressOutcome, leftPress_eq]
  by_cases held : a ∈ t.held
  · simp [held]
  · by_cases left : a = leftClick
    · rw [if_neg held, if_pos left]
      cases t.isSecond with
      | error overflow =>
          cases overflow
          subst left
          simp [Except.map, Value.realOverflow, held, eq_comm]
      | ok second => simp [Except.map, Value.realOverflow]
    · simp [held, left]

theorem held_moveTo (t : Tracker κ) (x y : Float) : (t.moveTo x y).held = t.held := by
  rw [moveTo]
  cases t.strokeTo x y <;> rfl

theorem isSecond_moveTo (t : Tracker κ) (x y : Float) : (t.moveTo x y).isSecond = t.isSecond := by
  rw [moveTo]
  cases t.strokeTo x y <;> rfl

end Tracker

namespace Signal

theorem effect_clicked {step : Atom → Act κ Unit} (x y : Float) {n : Int} {c : Click}
    (known : Button.click? n = some c) {s : Session κ} {result : Except Fault Unit × Tracker κ}
    (stepped : ∀ left : Session κ, left.tracker = s.tracker.moveTo x y →
      (step (.click c)).effect left = result) : (clicked step x y n).effect s = result := by
  rw [clicked, known]
  exact Act.effect_bind_ok (Act.effect_moveTo (.real x) (.real y) s) fun left tracker =>
    stepped left tracker

theorem effect_clicked_unknown {step : Atom → Act κ Unit} (x y : Float) {n : Int}
    (unknown : Button.click? n = none) (s : Session κ) :
    (clicked step x y n).effect s = (.ok (), s.tracker) := by
  rw [clicked, unknown]
  rfl

def Late (t : Tracker κ) : Signal → Prop
  | pointer .down _ _ n =>
    Button.click? n = some .left ∧ Tracker.leftClick ∉ t.held ∧ t.isSecond = .error .tooLarge
  | _ => False

theorem pressed_of_late {g : Signal} {t : Tracker κ} (late : g.Late t) :
    ∃ x y n, g = .pointer .down x y n := by
  cases g with
  | pointer action x y n =>
      cases action with
      | down => exact ⟨x, y, n, rfl⟩
      | _ => cases late
  | _ => cases late

theorem act_late {x y : Float} {n : Int} {s : Session κ}
    (late : (pointer .down x y n).Late s.tracker) :
    (pointer .down x y n).act.effect s = (.error .realOverflow, s.tracker.moveTo x y) := by
  obtain ⟨known, free, untimed⟩ := late
  refine effect_clicked x y known fun left tracker => ?_
  have failed : left.tracker.pressOutcome Tracker.leftClick = .error .realOverflow := by
    rw [tracker, Tracker.pressOutcome_eq_error, Tracker.held_moveTo, Tracker.isSecond_moveTo]
    exact ⟨rfl, free, untimed, rfl⟩
  show (Act.press Tracker.leftClick).effect left = _
  rw [Act.effect_press, failed, left.tracker.press_of_failed _ _ failed, tracker]

theorem effect_press_timed {a : Atom} {s : Session κ}
    (timed : a = Tracker.leftClick → a ∉ s.tracker.held → s.tracker.isSecond ≠ .error .tooLarge) :
    (Act.press a).effect s = (.ok (), s.tracker.press a) := by
  rw [Act.effect_press]
  cases outcome : s.tracker.pressOutcome a with
  | ok done => rfl
  | error fault =>
      obtain ⟨same, free, late, -⟩ := Tracker.pressOutcome_eq_error.mp outcome
      exact absurd late (timed same free)

theorem act_done {g : Signal} {s : Session κ} (timed : ¬ g.Late s.tracker) :
    ∃ t, g.act.effect s = (.ok (), t) := by
  cases g with
  | wheel dx dy => exact ⟨_, Act.effect_addWheel (.real dx) (.real dy) s⟩
  | key down name =>
      rw [act]
      cases KeyName.key? name with
      | none => exact ⟨_, rfl⟩
      | some k =>
          cases down with
          | true => exact ⟨_, effect_press_timed (by simp [Tracker.leftClick])⟩
          | false => exact ⟨_, Act.effect_release (.key k) s⟩
  | pointer action x y n =>
      cases known : Button.click? n with
      | none =>
          cases action with
          | move => exact ⟨_, Act.effect_moveTo (.real x) (.real y) s⟩
          | up => exact ⟨_, effect_clicked_unknown x y known s⟩
          | down => exact ⟨_, effect_clicked_unknown x y known s⟩
      | some c =>
          let moved := s.tracker.moveTo x y
          cases action with
          | move => exact ⟨_, Act.effect_moveTo (.real x) (.real y) s⟩
          | up =>
              refine ⟨moved.release (.click c), effect_clicked x y known fun left tracker => ?_⟩
              rw [Act.effect_release, tracker]
          | down =>
              refine ⟨moved.press (.click c), effect_clicked x y known fun left tracker => ?_⟩
              rw [effect_press_timed, tracker]
              rw [tracker, Tracker.held_moveTo, Tracker.isSecond_moveTo]
              intro same free late
              cases same
              exact timed ⟨known, free, late⟩

end Signal

namespace CanvasHandler

variable {h : CanvasHandler} {event : CanvasEvent}

theorem Tells.type {g : Signal} (told : Tells event g) :
    event.field "event_type" = .text g.type := by
  cases told with
  | pointer action x y n type across along button => exact type
  | key pressed name type named => exact type
  | wheel dx dy type across along => exact type

theorem Tells.late_iff {g : Signal} (told : Tells event g) (suits : h.Suits event)
    (fits : ¬ h.Overflows event) (t : Tracker κ) : g.Late t ↔ h.Untimed event t := by
  have pressed (untimed : h.Untimed event t) : g.type = "pointer_down" :=
    Value.text.inj (told.type.symm.trans untimed.pressed)
  cases told with
  | pointer action x y n type across along button =>
      have known : Button.ofValue event.button = .ok (Button.click? n) :=
        Button.ofValue_of_number button
      cases action with
      | down =>
          constructor
          · rintro ⟨left, free, late⟩
            exact ⟨suits, fits, type, left ▸ known, free, late⟩
          · intro untimed
            exact ⟨Except.ok.inj (known.symm.trans untimed.button), untimed.free, untimed.late⟩
      | up => exact ⟨False.elim, fun untimed => absurd (pressed untimed) (by simp [Signal.type])⟩
      | move => exact ⟨False.elim, fun untimed => absurd (pressed untimed) (by simp [Signal.type])⟩
  | key down name type named =>
      refine ⟨False.elim, fun untimed => absurd (pressed untimed) ?_⟩
      cases down <;> simp [Signal.type]
  | wheel dx dy type across along =>
      exact ⟨False.elim, fun untimed => absurd (pressed untimed) (by simp [Signal.type])⟩

theorem after_unsuited (idle : ¬ h.Suits event ∨ h.Overflows event) (s : Session κ) :
    (h.run event).after s = s := by
  have meets := meets_run (κ := κ) event h
  generalize h.run event = act at meets
  cases meets with
  | told suits fits g told => exact absurd idle (by simp [suits, fits])
  | _ => rfl

section Fails

variable {t : Tracker κ} {fault : Fault}

theorem fails_of_unsuited (unsuited : ¬ h.Suits event) :
    h.Fails event t fault ↔ h.Refuses event fault := by
  refine or_iff_left ?_
  rintro ⟨-, overflows | untimed⟩
  · exact unsuited overflows.suits
  · exact unsuited untimed.suits

theorem Suits.fails_iff (suits : h.Suits event) :
    h.Fails event t fault ↔ fault = .realOverflow ∧ (h.Overflows event ∨ h.Untimed event t) :=
  or_iff_right (suits.not_refuses fault)

theorem run_fails (s : Session κ) (fault : Fault) :
    (∃ left, h.run event s = .error fault left) ↔ h.Fails event s.tracker fault := by
  have meets := meets_run (κ := κ) event h
  generalize h.run event = act at meets
  cases meets with
  | refused other refuses =>
      rw [fails_of_unsuited fun suits => suits.not_refuses other refuses]
      constructor
      · rintro ⟨left, failed⟩
        cases failed
        exact refuses
      · intro refusesToo
        cases refuses.2.symm.trans refusesToo.2
        exact ⟨s, rfl⟩
  | passed taken unsuited =>
      rw [fails_of_unsuited unsuited]
      constructor
      · exact fun ⟨left, failed⟩ => nomatch failed
      · exact fun refuses => absurd refuses (taken fault)
  | overflowed overflows =>
      rw [overflows.suits.fails_iff]
      constructor
      · rintro ⟨left, failed⟩
        cases failed
        exact ⟨rfl, .inl overflows⟩
      · rintro ⟨rfl, -⟩
        exact ⟨s, rfl⟩
  | told suits fits g told =>
      rw [suits.fails_iff, or_iff_right fits, ← told.late_iff suits fits, ← Act.outcome_eq_error,
        g.consume_event s s rfl]
      -- The numbers have been read, so nothing but the clock can be in the way.
      by_cases late : g.Late s.tracker
      · obtain ⟨x, y, n, rfl⟩ := Signal.pressed_of_late late
        rw [Signal.act_late late]
        simp [late, eq_comm]
      · obtain ⟨t, done⟩ := Signal.act_done late
        rw [done]
        simp [late]

end Fails

theorem Suits.effect_run (suits : h.Suits event) (fits : ¬ h.Overflows event) :
    ∃ g, Tells event g ∧ ∀ s : Session κ, (h.run event).effect s = g.act.effect s := by
  have meets := meets_run (κ := κ) event h
  generalize h.run event = act at meets
  cases meets with
  | refused fault refuses => exact absurd refuses (suits.not_refuses fault)
  | passed taken unsuited => exact absurd suits unsuited
  | overflowed overflows => exact absurd overflows fits
  | told _ _ g told => exact ⟨g, told, fun s => g.consume_event s s rfl⟩

theorem after_untimed {s : Session κ} (untimed : h.Untimed event s.tracker) :
    ((h.run event).after s).tracker =
      (Deed.moveTo (event.field "x") (event.field "y")).after s.tracker := by
  obtain ⟨g, told, same⟩ := untimed.suits.effect_run (κ := κ) untimed.fits
  have late := (told.late_iff untimed.suits untimed.fits s.tracker).mpr untimed
  rw [Act.tracker_after, same]
  obtain ⟨x, y, n, rfl⟩ := Signal.pressed_of_late late
  cases told with
  | pointer action x y n type across along button =>
      rw [Signal.act_late late, Deed.after, across, along]

end CanvasHandler

theorem Canvas.after_runEach {event : CanvasEvent} {s : Session κ} {handlers : List CanvasHandler}
    (idle : ∀ h ∈ handlers, (h.run event).after s = s) : (runEach event handlers).after s = s := by
  induction handlers with
  | nil => rfl
  | cons h rest ih =>
      have here := idle h (List.mem_cons_self ..)
      have later := ih fun h member => idle h (.tail _ member)
      rw [Act.after] at here
      rw [runEach, Act.after_bind]
      cases done : h.run event s with
      | ok x left =>
          rw [done] at here
          exact here ▸ later
      | error fault left =>
          rw [done] at here
          exact here

/-- A handler fails on a type that cannot be looked up, on a number beyond the range of the reals,
and on a press of the left button that cannot be timed. Events that do not suit it and numbers that
are too large change nothing, and a press that cannot be timed has only moved the pointer. Any other
event does to the tracker what the signal does that it stands for. -/
theorem malformed_canvas_events (event : CanvasEvent) (s : Session κ) :
    (∀ h : CanvasHandler,
      (∀ fault, (∃ left, h.run event s = .error fault left) ↔ h.Fails event s.tracker fault) ∧
      (¬ h.Suits event ∨ h.Overflows event → (h.run event).after s = s) ∧
      (h.Untimed event s.tracker → ((h.run event).after s).tracker =
        (Deed.moveTo (event.field "x") (event.field "y")).after s.tracker) ∧
      (h.Suits event → ¬ h.Overflows event →
        ∃ g, CanvasHandler.Tells event g ∧ (h.run event).effect s = g.act.effect s)) ∧
    ∀ (c : Canvas) (name : String),
      (∀ h ∈ c.called name, ¬ h.Suits event ∨ h.Overflows event) →
        (c.deliver name event).after s = s := by
  constructor
  · intro h
    refine ⟨h.run_fails s, fun idle => CanvasHandler.after_unsuited idle s,
      CanvasHandler.after_untimed, fun suits fits => ?_⟩
    obtain ⟨g, told, same⟩ := suits.effect_run (κ := κ) fits
    exact ⟨g, told, same s⟩
  · intro c name idle
    refine Canvas.after_runEach fun h member => ?_
    exact CanvasHandler.after_unsuited (idle h member) s

theorem Tracker.isSecond_beyond (t : Tracker κ) (n : Int) (negative : Bool)
    (asked : t.settings.doubleClickMs = .whole n)
    (beyond : Decimal.parts (Float.ofInt n) = .infinite negative) :
    t.isSecond = .error .tooLarge := by
  have read : (Number.whole n).toReal = .error .tooLarge := by
    rw [Number.toReal, Number.ofWhole, beyond]
  rw [isSecond, interval, asked, read]
  rfl

theorem CanvasHandler.wheel_overflows :
    wheel.Overflows [("event_type", .text "wheel"), ("dx", .whole (10 ^ 400))] := by
  refine ⟨⟨⟨"wheel", List.mem_singleton_self _, rfl⟩, nofun, fun v member => ?_⟩, ?_⟩
  · rcases List.mem_pair.mp member with rfl | rfl <;> nofun
  · exact ⟨_, List.mem_cons_self .., Value.toReal_beyond _ false (by decide +kernel)⟩

/-- The type of the first event cannot be looked up, the second one turns the wheel by a text, the
third one too far, and the fourth one clicks at a time that cannot be told. The last one presses a
key. -/
theorem malformed_canvas_events_ignored :
    let start : Session String := ⟨.start .standard none, none⟩
    let timeless : Session String :=
      ⟨.start { Settings.standard with doubleClickMs := .whole (10 ^ 400) } none, none⟩
    let unknown : CanvasEvent := [("event_type", .list []), ("key", .text "a")]
    let unread : CanvasEvent := [("event_type", .text "wheel"), ("dy", .text "up")]
    let far : CanvasEvent := [("event_type", .text "wheel"), ("dx", .whole (10 ^ 400))]
    let click : CanvasEvent := [("event_type", .text "pointer_down"), ("x", .real 1.0),
      ("y", .real 2.0), ("button", .whole 1)]
    let typed : CanvasEvent := [("event_type", .text "key_down"), ("key", .text "a")]
    (∃ left, CanvasHandler.key.run unknown start = .error (.unhashable "list") left) ∧
    (Canvas.deliver Canvas.handlers "wheel" unread).after start = start ∧
    (CanvasHandler.wheel.run far).after start = start ∧
    ((CanvasHandler.pointer.run click).after timeless).tracker =
      (Deed.moveTo (.real 1.0) (.real 2.0)).after timeless.tracker ∧
    ∃ g, CanvasHandler.Tells typed g ∧
      (CanvasHandler.key.run typed).effect start = g.act.effect start := by
  intro start timeless unknown unread far click typed
  refine ⟨?_, ?_, ?_, ?_, ?_⟩
  · exact (((malformed_canvas_events unknown start).1 .key).1 _).mpr (.inl ⟨nofun, rfl⟩)
  · refine (malformed_canvas_events unread start).2 Canvas.handlers "wheel" fun h member => ?_
    cases List.mem_singleton.mp member
    exact .inl fun suits => suits.numbers (.text "up") (.tail _ (.head _)) rfl
  · exact ((malformed_canvas_events far start).1 .wheel).2.1 (.inr CanvasHandler.wheel_overflows)
  · refine ((malformed_canvas_events click timeless).1 .pointer).2.2.1
      ⟨⟨?_, nofun, ?_⟩, ?_, rfl, rfl, ?_, ?_⟩
    · exact ⟨"pointer_down", List.mem_cons_self .., rfl⟩
    · intro v member
      rcases List.mem_pair.mp member with rfl | rfl <;> nofun
    · rintro ⟨-, v, member, large⟩
      rcases List.mem_pair.mp member with rfl | rfl <;> cases large
    · exact AtomSet.not_mem_empty _
    · exact timeless.tracker.isSecond_beyond _ false rfl (by decide +kernel)
  · refine ((malformed_canvas_events typed start).1 .key).2.2.2 ⟨?_, fun _ => ⟨"a", rfl⟩, nofun⟩ ?_
    · exact ⟨"key_down", List.mem_cons_self .., rfl⟩
    · rintro ⟨-, v, member, -⟩
      cases member

/-- A handler fails on a type that is a list, and on a distance that no real comes near. -/
theorem malformed_canvas_events_fail :
    let start : Session String := ⟨.start .standard none, none⟩
    let far : CanvasEvent := [("event_type", .text "wheel"), ("dx", .whole (10 ^ 400))]
    Canvas.deliver Canvas.handlers "key_down" [("event_type", .list []), ("key", .text "a")] start =
        .error (.unhashable "list") start ∧
      ∃ left, CanvasHandler.wheel.run far start = .error .realOverflow left := by
  intro start far
  have overflows := CanvasHandler.wheel_overflows
  exact ⟨rfl, (CanvasHandler.run_fails start _).mpr (.inr ⟨rfl, .inl overflows⟩)⟩

end InputChords
