import Mathlib.Data.Set.Insert
import InputChords.Proofs.Story

/-! Keys that go down and up by events which name them. What is held of them is told by the names in
the order in which they came. -/

namespace InputChords

variable {κ : Type}

inductive KeyStroke where
  | down (name : String)
  | up (name : String)
  | allUp
  deriving DecidableEq, Repr

namespace KeyStroke

def next (keys : Set Key) : KeyStroke → Set Key
  | down name => {k | k ∈ keys ∨ KeyName.key? name = some k}
  | up name => {k | k ∈ keys ∧ KeyName.key? name ≠ some k}
  | allUp => ∅

/-- The key is up afterwards, whether it was down or not. -/
def Lifts (k : Key) : KeyStroke → Prop
  | down _ => False
  | up name => KeyName.key? name = some k
  | allUp => True

instance (k : Key) (stroke : KeyStroke) : Decidable (stroke.Lifts k) :=
  match stroke with
  | down _ => inferInstanceAs (Decidable False)
  | up name => inferInstanceAs (Decidable (KeyName.key? name = some k))
  | allUp => inferInstanceAs (Decidable True)

/-- The key goes down, and nothing lifts it later. -/
def LeftDown (k : Key) (strokes : List KeyStroke) : Prop :=
  ∃ before name later, strokes = before ++ down name :: later ∧ KeyName.key? name = some k ∧
    ∀ stroke ∈ later, ¬ stroke.Lifts k

theorem mem_next (keys : Set Key) (k : Key) (stroke : KeyStroke) :
    k ∈ stroke.next keys ↔
      (∃ name, stroke = down name ∧ KeyName.key? name = some k) ∨
        (k ∈ keys ∧ ¬ stroke.Lifts k) := by
  cases stroke with
  | down name => simp [next, Lifts, or_comm]
  | up name => simp [next, Lifts]
  | allUp => simp [next, Lifts]

theorem leftDown_snoc (k : Key) (strokes : List KeyStroke) (stroke : KeyStroke) :
    LeftDown k (strokes ++ [stroke]) ↔
      (∃ name, stroke = down name ∧ KeyName.key? name = some k) ∨
        (LeftDown k strokes ∧ ¬ stroke.Lifts k) := by
  constructor
  · rintro ⟨before, name, later, split, named, kept⟩
    rcases later.eq_nil_or_concat' with rfl | ⟨later, last, rfl⟩
    · obtain ⟨_, same⟩ := List.append_inj' split rfl
      exact .inl ⟨name, List.singleton_inj.mp same, named⟩
    · rw [← List.cons_append, ← List.append_assoc] at split
      obtain ⟨earlier, same⟩ := List.append_inj' split rfl
      cases List.singleton_inj.mp same
      exact .inr ⟨⟨before, name, later, earlier, named,
        fun other member => kept other (List.mem_append_left _ member)⟩,
        kept stroke (List.mem_append_right _ (List.mem_singleton_self stroke))⟩
  · rintro (⟨name, rfl, named⟩ | ⟨⟨before, name, later, rfl, named, kept⟩, still⟩)
    · exact ⟨strokes, name, [], rfl, named, by simp⟩
    · refine ⟨before, name, later ++ [stroke], by simp, named, ?_⟩
      intro other member
      rcases List.mem_append.mp member with earlier | here
      · exact kept other earlier
      · cases List.mem_singleton.mp here
        exact still

theorem mem_foldl_next (strokes : List KeyStroke) (k : Key) :
    k ∈ strokes.foldl next ∅ ↔ LeftDown k strokes := by
  induction strokes using List.reverseRecOn with
  | nil => simp [LeftDown]
  | append_singleton strokes stroke ih =>
      rw [List.foldl_append, List.foldl_cons, List.foldl_nil, mem_next, ih, leftDown_snoc]

end KeyStroke

theorem KeyName.key?_of_lower {name other : String} (same : Text.lower name = Text.lower other) :
    key? name = key? other := by
  rw [key?, key?, same]

theorem KeyStroke.not_leftDown (strokes : List KeyStroke)
    (released : ∀ before name later, strokes = before ++ .down name :: later →
      ∃ other, .up other ∈ later ∧ Text.lower other = Text.lower name) (k : Key) :
    ¬ LeftDown k strokes := by
  rintro ⟨before, name, later, split, named, kept⟩
  obtain ⟨other, member, same⟩ := released before name later split
  exact kept _ member ((KeyName.key?_of_lower same).trans named)

def Tracker.keys (t : Tracker κ) : Set Key := {k | .key k ∈ t.held}

namespace Deed

def OffKeys : Deed κ → Prop
  | press (.atom (.key _)) | release (.atom (.key _)) | releaseAll => False
  | _ => True

theorem keys_after_offKeys {d : Deed κ} (off : d.OffKeys) (t : Tracker κ) :
    (d.after t).keys = t.keys := by
  have leaves := d.leaves_after t
  generalize d.after t = u at leaves
  cases leaves with
  | hold a free other =>
      refine Set.ext fun k => (Tracker.mem_held_hold t a (.key k)).trans ?_
      refine ⟨fun held => held.resolve_left ?_, .inr⟩
      rintro rfl
      exact off
  | click second free timed =>
      refine Set.ext fun k => (Tracker.mem_held_hold (t.clicked second) _ (.key k)).trans ?_
      cases second <;> exact ⟨fun held => held.resolve_left nofun, .inr⟩
  | letGo a held =>
      refine Set.ext fun k => (Tracker.mem_held_letGo t a (.key k)).trans ?_
      refine ⟨And.right, fun held => ⟨?_, held⟩⟩
      rintro rfl
      exact off
  | releaseAll => exact off.elim
  | _ => rfl

theorem keys_run_offKeys {calls : List (Deed κ)} (off : ∀ d ∈ calls, d.OffKeys) (t : Tracker κ) :
    (run calls t).keys = t.keys :=
  ((chained_turns calls t).keeps (motive := (·.keys = t.keys))
    (fun turn member same =>
      (keys_after_offKeys (off turn.deed (mem_of_mem_turns member)) turn.before).trans same)
    rfl).2

theorem run_single (d : Deed κ) (t : Tracker κ) : run [d] t = d.after t := by
  rw [run]
  cases d.outcome t <;> rfl

theorem keys_act {d : Deed κ} (off : d.OffKeys) (s : Session κ) :
    (d.act.after s).tracker.keys = s.tracker.keys := by
  rw [Act.comesTo_act d s, run_single]
  exact keys_after_offKeys off s.tracker

end Deed

namespace Tracker

variable (t : Tracker κ)

theorem keys_press (k : Key) : (t.press (.key k)).keys = {j | j ∈ t.keys ∨ k = j} := by
  refine Set.ext fun j => ?_
  show _ ∈ (t.press (.key k)).held ↔ .key j ∈ t.held ∨ k = j
  rw [press]
  by_cases held : .key k ∈ t.held
  · rw [if_pos held]
    refine ⟨.inl, fun down => down.elim id ?_⟩
    rintro rfl
    exact held
  · rw [if_neg held, if_neg (by simp [leftClick]), mem_held_hold]
    simp [or_comm, eq_comm]

theorem keys_release (k : Key) : (t.release (.key k)).keys = {j | j ∈ t.keys ∧ k ≠ j} := by
  refine Set.ext fun j => ?_
  show _ ∈ (t.release (.key k)).held ↔ .key j ∈ t.held ∧ k ≠ j
  rw [release_eq, AtomSet.mem_ofPred, decide_eq_true_eq, ne_eq, Atom.key.injEq, eq_comm (a := j)]

theorem keys_releaseAll : t.releaseAll.keys = ∅ :=
  Set.eq_empty_of_forall_notMem fun k => AtomSet.not_mem_empty (.key k)

end Tracker

namespace InputEvent

def keyStroke? : InputEvent → Option KeyStroke
  | key true (.text name) => some (.down name)
  | key false (.text name) => some (.up name)
  | _ => none

theorem offKeys_clickCalls (step : Value → Deed κ) (off : ∀ c, (step (.atom (.click c))).OffKeys)
    (x y button : Value) : ∀ d ∈ clickCalls step x y button, d.OffKeys := by
  intro d member
  obtain ⟨c, _, here⟩ := Deed.mem_ifFound.mp member
  rcases List.mem_cons.mp here with rfl | here
  · trivial
  · cases List.mem_singleton.mp here
    exact off c

theorem keys_run_calls (event : InputEvent) (t : Tracker κ) :
    (Deed.run event.calls t).keys = event.keyStroke?.toList.foldl KeyStroke.next t.keys := by
  cases event with
  | pointer action x y button =>
      refine Deed.keys_run_offKeys ?_ t
      cases action with
      | move => simp [calls, Deed.OffKeys]
      | down => exact offKeys_clickCalls .press (fun c => trivial) x y button
      | up => exact offKeys_clickCalls .release (fun c => trivial) x y button
  | wheel dx dy => exact Deed.keys_run_offKeys (by simp [calls, Deed.OffKeys]) t
  | foreign v => rfl
  | key pressed name =>
      cases name with
      | text name =>
          rw [calls, KeyName.ofValue]
          cases named : KeyName.key? name with
          | none =>
              cases pressed <;> simp [Deed.ifFound, Deed.run, keyStroke?, KeyStroke.next, named]
          | some k =>
              cases pressed with
              | true =>
                  show (Deed.run [.press (.atom (.key k))] t).keys =
                    (KeyStroke.down name).next t.keys
                  rw [Deed.run_single]
                  refine (t.keys_press k).trans ?_
                  simp [KeyStroke.next, named]
              | false =>
                  show (Deed.run [.release (.atom (.key k))] t).keys =
                    (KeyStroke.up name).next t.keys
                  rw [Deed.run_single]
                  refine (t.keys_release k).trans ?_
                  simp [KeyStroke.next, named]
      | _ => cases pressed <;> rfl

end InputEvent

namespace CanvasHandler

def keyStroke? (event : CanvasEvent) (h : CanvasHandler) : Option KeyStroke :=
  match h.read event with
  | .ok (some e) => e.keyStroke?
  | _ => none

theorem keys_run_calls (event : CanvasEvent) (h : CanvasHandler) (t : Tracker κ) :
    (Deed.run (h.calls event) t).keys =
      (h.keyStroke? event).toList.foldl KeyStroke.next t.keys := by
  rw [calls, keyStroke?]
  cases h.read event with
  | error fault => rfl
  | ok found =>
      cases found with
      | none => rfl
      | some e => exact e.keys_run_calls t

end CanvasHandler

namespace Act

variable {α : Type}

/-- The things that are come to before one of them fails, and that one. -/
def reached (step : α → Act κ Unit) : List α → Session κ → List α
  | [], _ => []
  | x :: rest, s =>
    x ::
      match step x s with
      | .ok _ left => reached step rest left
      | .error _ _ => []

theorem keys_each {step : α → Act κ Unit} {calls : α → List (Deed κ)}
    {stroke : α → Option KeyStroke} (comes : ∀ x, (step x).ComesTo (calls x))
    (told : ∀ x t, (Deed.run (calls x) t).keys = (stroke x).toList.foldl KeyStroke.next t.keys)
    (xs : List α) (s : Session κ) :
    ((each step xs).after s).tracker.keys =
      ((reached step xs s).filterMap stroke).foldl KeyStroke.next s.tracker.keys := by
  induction xs generalizing s with
  | nil => rfl
  | cons x rest ih =>
      have here := told x s.tracker
      rw [← comes x s, after] at here
      have strokes (later : List α) : ((x :: later).filterMap stroke).foldl KeyStroke.next
          s.tracker.keys = (later.filterMap stroke).foldl KeyStroke.next
            ((stroke x).toList.foldl KeyStroke.next s.tracker.keys) := by
        rw [List.filterMap_cons]
        cases stroke x <;> rfl
      rw [each, after_bind, reached, strokes, ← here]
      cases step x s with
      | ok _ left => exact ih left
      | error fault left => rfl

end Act

namespace Occurrence

/-- A key goes down or up without an event that names it. -/
inductive ByHand : Occurrence κ → Prop where
  | press (k : Key) : ByHand (operation (.press (.atom (.key k))))
  | release (k : Key) : ByHand (operation (.release (.atom (.key k))))
  | window (b : Backend) (key scancode action : Value) : ByHand (windowKey b key scancode action)

/-- What the events that are come to tell of keys. Losing the focus lifts them all. -/
def keyStrokes (o : Occurrence κ) (s : Session κ) : List KeyStroke :=
  match o with
  | operation .releaseAll => [.allUp]
  | operation (.consume events) => (Act.reached Act.consume events s).filterMap (·.keyStroke?)
  | canvas c name event =>
    (Act.reached (·.run event) (c.called name) s).filterMap (·.keyStroke? event)
  | windowFocus focused => if focused.truthy then [] else [.allUp]
  | _ => []

theorem keys_after_offKeys [DecidableEq κ] [Quotable κ] {o : Occurrence κ}
    (off : ∀ d, o.Calls d → d.OffKeys) (s : Session κ) :
    (o.act.after s).tracker.keys = s.tracker.keys :=
  ((o.chained_turns s).keeps (motive := (·.keys = s.tracker.keys))
    (fun turn member same =>
      (Deed.keys_after_offKeys (off turn.deed (o.calls_of_mem_turns s turn member)) _).trans same)
    rfl).2

theorem offKeys_of_press {v : Value} (named : ¬ (operation (κ := κ) (.press v)).ByHand) :
    (Deed.press (κ := κ) v).OffKeys := by
  cases v with
  | atom a =>
      cases a with
      | key k => exact absurd (.press k) named
      | _ => trivial
  | _ => trivial

theorem offKeys_of_release {v : Value} (named : ¬ (operation (κ := κ) (.release v)).ByHand) :
    (Deed.release (κ := κ) v).OffKeys := by
  cases v with
  | atom a =>
      cases a with
      | key k => exact absurd (.release k) named
      | _ => trivial
  | _ => trivial

theorem offKeys_of_buttonCalls {b : Backend} {button action : Value} {d : Deed κ}
    (called : d ∈ Window.buttonCalls b button action) : d.OffKeys := by
  obtain ⟨c, _, here⟩ := Deed.mem_ifFound.mp called
  rcases Window.mem_calls here with rfl | rfl <;> trivial

theorem offKeys_of_scrollCalls {dx dy : Value} {d : Deed κ}
    (called : d ∈ Window.scrollCalls dx dy) : d.OffKeys := by
  obtain ⟨x, y, rfl⟩ := Window.mem_scrollCalls called
  trivial

theorem keys_after [DecidableEq κ] [Quotable κ] (o : Occurrence κ) (named : ¬ o.ByHand)
    (s : Session κ) :
    (o.act.after s).tracker.keys = (o.keyStrokes s).foldl KeyStroke.next s.tracker.keys := by
  cases o with
  | operation o =>
      cases o with
      | releaseAll =>
          show (Deed.releaseAll.act.after s).tracker.keys = ∅
          rw [Act.comesTo_act .releaseAll s, Deed.run_single]
          exact s.tracker.keys_releaseAll
      | consume events =>
          show ((Act.consumeAll events).after s).tracker.keys = _
          rw [Act.consumeAll_eq_each]
          exact Act.keys_each Act.comesTo_consume InputEvent.keys_run_calls events s
      | press v => exact Deed.keys_act (offKeys_of_press named) s
      | release v => exact Deed.keys_act (offKeys_of_release named) s
      | addMotion dx dy => exact Deed.keys_act (d := .addMotion dx dy) trivial s
      | moveTo x y => exact Deed.keys_act (d := .moveTo x y) trivial s
      | addWheel dx dy => exact Deed.keys_act (d := .addWheel dx dy) trivial s
      | attach bindings => exact Deed.keys_act (d := .attach bindings) trivial s
      | setClock now => exact Deed.keys_act (d := .setClock now) trivial s
  | canvas c name event =>
      show ((Canvas.runEach event (c.called name)).after s).tracker.keys = _
      rw [Canvas.runEach_eq_each]
      exact Act.keys_each (CanvasHandler.comesTo_run event) (CanvasHandler.keys_run_calls event) _ s
  | windowKey b key scancode action => exact absurd (.window b key scancode action) named
  | windowFocus focused =>
      show ((Window.onFocus focused).after s).tracker.keys = _
      rw [Window.comesTo_onFocus focused s, keyStrokes, Window.focusCalls]
      split
      · rfl
      · rw [Deed.run_single]
        exact s.tracker.keys_releaseAll
  | windowButton b button action => exact keys_after_offKeys (fun d => offKeys_of_buttonCalls) s
  | windowPosition x y => exact Deed.keys_act (d := .moveTo x y) trivial s
  | windowScroll dx dy => exact keys_after_offKeys (fun d => offKeys_of_scrollCalls) s
  | bind action expression =>
      refine keys_after_offKeys ?_ s
      rintro d ⟨b, rfl⟩
      trivial
  | bindChord action chord =>
      refine keys_after_offKeys ?_ s
      rintro d ⟨b, rfl⟩
      trivial
  | unbind action =>
      refine keys_after_offKeys ?_ s
      rintro d ⟨b, rfl⟩
      trivial

end Occurrence

theorem Act.keys_snapshot [DecidableEq κ] (n : Int) (s : Session κ) :
    ((Act.snapshot n).after s).tracker.keys = s.tracker.keys := by
  rw [Act.after, Act.snapshot_eq]
  cases done : s.tracker.snapshot n with
  | error fault => rfl
  | ok result =>
      obtain ⟨taken, t⟩ := result
      exact Set.ext fun k => by simp [Tracker.keys, (Tracker.snapshot_keeps done).held]

variable [DecidableEq κ] [Quotable κ]

def keyStrokes (s : Session κ) : List (Moment κ) → List KeyStroke
  | [] => []
  | .occur o :: rest => o.keyStrokes s ++ keyStrokes (o.act.after s) rest
  | .snapshot n :: rest => keyStrokes ((Act.snapshot n).after s) rest

theorem Story.now_next_snapshot (st : Story κ) (n : Int) :
    (st.next (.snapshot n)).scene.now = (Act.snapshot n).after st.scene.now := by
  rw [next, Act.after]
  cases Act.snapshot n st.scene.now <;> rfl

theorem Story.keys_foldl (moments : List (Moment κ)) (st : Story κ)
    (named : ∀ o, .occur o ∈ moments → ¬ o.ByHand) :
    (moments.foldl next st).scene.now.tracker.keys =
      (keyStrokes st.scene.now moments).foldl KeyStroke.next st.scene.now.tracker.keys := by
  induction moments generalizing st with
  | nil => rfl
  | cons moment rest ih =>
      rw [List.foldl_cons, ih _ fun o member => named o (.tail _ member)]
      cases moment with
      | occur o =>
          rw [keyStrokes, List.foldl_append, ← o.keys_after (named o (List.mem_cons_self ..))]
          rfl
      | snapshot n => rw [now_next_snapshot, Act.keys_snapshot, keyStrokes]

/-- As long as keys go down and up by events that name them, a key is held if and only if it went
down under some name and neither came up under a name that stands for it nor with all others since.
So no key stays down if each name that goes down comes up later in the same letters, whatever their
case and whatever other names the key has. -/
theorem keys_held (settings : Settings) (bindings : Option (Bindings κ))
    (log : Option (List Log.Record)) (moments : List (Moment κ))
    (named : ∀ o, .occur o ∈ moments → ¬ o.ByHand) :
    (∀ k, .key k ∈ (story ⟨.start settings bindings, log⟩ moments).scene.now.tracker.held ↔
      KeyStroke.LeftDown k (keyStrokes ⟨.start settings bindings, log⟩ moments)) ∧
    ((∀ before name later,
        keyStrokes ⟨.start settings bindings, log⟩ moments = before ++ .down name :: later →
        ∃ other, .up other ∈ later ∧ Text.lower other = Text.lower name) →
      ∀ k, .key k ∉ (story ⟨.start settings bindings, log⟩ moments).scene.now.tracker.held) := by
  let s : Session κ := ⟨.start settings bindings, log⟩
  have start : s.tracker.keys = ∅ := Set.eq_empty_of_forall_notMem fun k => AtomSet.not_mem_empty _
  have keys := Story.keys_foldl moments ⟨[], .start s⟩ named
  change (story s moments).scene.now.tracker.keys =
    (keyStrokes s moments).foldl KeyStroke.next s.tracker.keys at keys
  rw [start] at keys
  have leftDown (k : Key) : .key k ∈ (story s moments).scene.now.tracker.held ↔
      KeyStroke.LeftDown k (keyStrokes s moments) := by
    rw [← KeyStroke.mem_foldl_next, ← keys]
    rfl
  refine ⟨leftDown, fun released k down => ?_⟩
  exact KeyStroke.not_leftDown _ released k ((leftDown k).mp down)

/-- One key goes down and up under two of its names, another one under the same name in small and in
capital letters. -/
theorem keys_held_under_two_names :
    let early : List (Moment String) := [.occur (.operation (.consume
        [.key true (.text "Meta"), .key true (.text "Shift"), .key false (.text "OS")])),
      .snapshot 1]
    let moments : List (Moment String) := early ++ [.occur (.canvas Canvas.handlers "key_up"
        [("event_type", .text "key_up"), ("key", .text "SHIFT")]), .snapshot 2,
      .occur (.operation (.consume [.key false (.text "meta")]))]
    keyStrokes ⟨.start .standard none, none⟩ moments =
      [.down "Meta", .down "Shift", .up "OS", .up "SHIFT", .up "meta"] ∧
    (∀ k, .key k ∈ (story ⟨.start .standard none, none⟩ early).scene.now.tracker.held ↔
      k = .modifier .shift (some .left)) ∧
    ∀ k, .key k ∉ (story ⟨.start .standard none, none⟩ moments).scene.now.tracker.held := by
  intro early moments
  have named : ∀ o, .occur o ∈ moments → ¬ o.ByHand := by
    intro o member byHand
    cases byHand <;> simp [moments, early] at member
  have first : keyStrokes ⟨.start .standard none, none⟩ early =
      [.down "Meta", .down "Shift", .up "OS"] := by decide +kernel
  have strokes : keyStrokes ⟨.start .standard none, none⟩ moments =
      [.down "Meta", .down "Shift", .up "OS", .up "SHIFT", .up "meta"] := by decide +kernel
  obtain ⟨leftDown, _⟩ := keys_held .standard none none early
    fun o member => named o (List.mem_append_left _ member)
  obtain ⟨_, allUp⟩ := keys_held .standard none none moments named
  refine ⟨strokes, ?_, allUp ?_⟩
  · intro k
    have meta' : KeyName.key? "Meta" = some (.modifier .win (some .left)) := by decide +kernel
    have shift : KeyName.key? "Shift" = some (.modifier .shift (some .left)) := by decide +kernel
    have os : KeyName.key? "OS" = some (.modifier .win (some .left)) := by decide +kernel
    rw [leftDown, first, ← KeyStroke.mem_foldl_next]
    simp only [List.foldl_cons, List.foldl_nil, KeyStroke.next, meta', shift, os,
      Set.mem_ofPred_eq, Set.mem_empty_iff_false, Option.some.injEq]
    constructor
    · rintro ⟨(⟨⟨⟩⟩ | win) | rfl, lifted⟩
      · exact absurd (congrArg some win) lifted
      · rfl
    · rintro rfl
      exact ⟨.inr rfl, nofun⟩
  · rw [strokes]
    intro before name later split
    rcases before with _ | ⟨first, _ | ⟨second, before⟩⟩
    · obtain ⟨rfl, rfl⟩ : "Meta" = name ∧ _ = later := by simpa using split
      exact ⟨"meta", by simp, by decide +kernel⟩
    · obtain ⟨_, rfl, rfl⟩ : _ ∧ "Shift" = name ∧ _ = later := by simpa using split
      exact ⟨"SHIFT", by simp, by decide +kernel⟩
    · have member : KeyStroke.down name ∈ [KeyStroke.up "OS", .up "SHIFT", .up "meta"] := by
        simp only [List.cons_append, List.cons.injEq] at split
        rw [split.2.2]
        exact List.mem_append_right _ (List.mem_cons_self ..)
      simp at member

end InputChords
