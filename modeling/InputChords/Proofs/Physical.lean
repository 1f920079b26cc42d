import InputChords.Proofs.Derived

/-! Input that comes from devices presses keys of one side and single buttons. Whatever else is
pressed is pressed by hand. -/

namespace InputChords

variable {κ : Type}

/-- A key or a button that can be pressed: no key that stands for two, and no double click. -/
def Atom.isPhysical : Atom → Bool
  | key k => !(key k).isComposite
  | click c => c != .double
  | _ => false

theorem Atom.not_composite_of_physical (a : Atom) (physical : a.isPhysical = true) :
    a.isComposite = false := by
  cases a with
  | key k => simpa [isPhysical] using physical
  | click c => rfl
  | _ => cases physical

/-! The names, codes and buttons of a device stand for physical atoms. -/

theorem mem_of_lookup {κ α : Type} [BEq κ] [LawfulBEq κ] {entries : List (κ × α)} {key : κ} {x : α}
    (found : entries.lookup key = some x) : x ∈ entries.map (·.2) := by
  obtain ⟨before, after, split, _⟩ := List.lookup_eq_some_iff.mp found
  rw [split]
  simp

theorem KeyName.physical_leftmost (k : Key) : (Atom.key (leftmost k)).isPhysical = true := by
  cases k with
  | modifier m side => cases side <;> rfl
  | _ => rfl

theorem KeyName.physical_key? {name : String} {k : Key} (known : key? name = some k) :
    (Atom.key k).isPhysical = true := by
  have host : ∀ k ∈ hostKeys.map (·.2), (Atom.key k).isPhysical = true := by decide
  rw [key?] at known
  cases found : hostKeys.lookup (Text.lower name) with
  | some other =>
      simp only [found] at known
      cases known
      exact host k (mem_of_lookup found)
  | none =>
      simp only [found] at known
      split at known
      · cases known
        exact physical_leftmost _
      · cases known

theorem KeyName.physical_ofValue {name : Value} {k : Key} (known : ofValue name = .ok (some k)) :
    (Atom.key k).isPhysical = true := by
  cases name with
  | text s => exact physical_key? (Except.ok.inj known)
  | _ => cases known

theorem Button.physical_of_mem :
    ∀ c ∈ [Click.left, .right, .middle], (Atom.click c).isPhysical = true := by
  decide

theorem Button.physical_ofValue {button : Value} {c : Click}
    (known : ofValue button = .ok (some c)) :
    (Atom.click c).isPhysical = true := by
  obtain ⟨n, _, found⟩ := bind_eq_ok known
  exact physical_of_mem c (FrontEnd.click_known n c (Except.ok.inj found))

namespace Backend

theorem physical_keyOf (b : Backend) {v : Value} {k : Key} (known : b.keyOf v = .ok (some k)) :
    (Atom.key k).isPhysical = true := by
  have coded : ∀ k ∈ KeyCode.coded, (Atom.key k).isPhysical = true := by decide +kernel
  obtain ⟨code, _, found⟩ := bind_eq_ok known
  have listed := mem_of_lookup (Except.ok.inj found)
  rw [b.keys_coded] at listed
  exact coded k listed

theorem physical_clickOf (b : Backend) {v : Value} {c : Click}
    (known : b.clickOf v = .ok (some c)) : (Atom.click c).isPhysical = true := by
  obtain ⟨code, _, found⟩ := bind_eq_ok known
  have listed := mem_of_lookup (Except.ok.inj found)
  rw [b.clicks_coded] at listed
  exact Button.physical_of_mem c listed

end Backend

theorem InputEvent.physical_of_press {event : InputEvent} {a : Atom}
    (called : (.press (.atom a) : Deed κ) ∈ event.calls) : a.isPhysical = true := by
  cases event with
  | pointer action x y button =>
      cases action with
      | move => simp [calls] at called
      | down =>
          obtain ⟨c, known, here⟩ := Deed.mem_ifFound.mp called
          have same : a = .click c := by simpa using here
          subst same
          exact Button.physical_ofValue known
      | up =>
          obtain ⟨c, known, here⟩ := Deed.mem_ifFound.mp called
          simp at here
  | key pressed name =>
      obtain ⟨k, known, here⟩ := Deed.mem_ifFound.mp called
      cases pressed with
      | true =>
          have same : a = .key k := by simpa using here
          subst same
          exact KeyName.physical_ofValue known
      | false => simp at here
  | wheel dx dy => simp [calls] at called
  | foreign v => cases called

theorem CanvasHandler.physical_of_press {h : CanvasHandler} {event : CanvasEvent} {a : Atom}
    (called : (.press (.atom a) : Deed κ) ∈ h.calls event) : a.isPhysical = true := by
  obtain ⟨e, _, here⟩ := Deed.mem_ifFound.mp called
  exact InputEvent.physical_of_press here

namespace Window

theorem same_of_press {backend : Backend} {a b : Atom} {action : Value}
    (called : (.press (.atom a) : Deed κ) ∈ calls backend b action) : a = b := by
  rcases mem_calls called with same | other
  · simpa using same
  · cases other

theorem physical_of_keyCalls {b : Backend} {a : Atom} {key action : Value}
    (called : (.press (.atom a) : Deed κ) ∈ keyCalls b key action) : a.isPhysical = true := by
  obtain ⟨k, known, here⟩ := Deed.mem_ifFound.mp called
  rw [same_of_press here]
  exact b.physical_keyOf known

theorem physical_of_buttonCalls {b : Backend} {a : Atom} {button action : Value}
    (called : (.press (.atom a) : Deed κ) ∈ buttonCalls b button action) : a.isPhysical = true := by
  obtain ⟨c, known, here⟩ := Deed.mem_ifFound.mp called
  rw [same_of_press here]
  exact b.physical_clickOf known

end Window

theorem Occurrence.physical_of_press {o : Occurrence κ} {a : Atom}
    (called : o.Calls (.press (.atom a))) :
    o = .operation (.press (.atom a)) ∨ a.isPhysical = true := by
  cases o with
  | operation o =>
      cases o with
      | press v =>
          cases called
          exact .inl rfl
      | consume events =>
          obtain ⟨event, _, here⟩ := called
          exact .inr (InputEvent.physical_of_press here)
      | _ => cases called
  | canvas c name event =>
      obtain ⟨h, _, here⟩ := called
      exact .inr (CanvasHandler.physical_of_press here)
  | windowKey b key scancode action => exact .inr (Window.physical_of_keyCalls called)
  | windowButton b button action => exact .inr (Window.physical_of_buttonCalls called)
  | windowPosition x y => cases called
  | windowScroll dx dy =>
      obtain ⟨x, y, other⟩ := Window.mem_scrollCalls called
      cases other
  | windowFocus focused => cases Window.mem_focusCalls called
  | bind action expression =>
      obtain ⟨b, here⟩ := called
      cases here
  | bindChord action chord =>
      obtain ⟨b, here⟩ := called
      cases here
  | unbind action =>
      obtain ⟨b, here⟩ := called
      cases here

theorem story_within [DecidableEq κ] [Quotable κ] (P : Atom → Prop) (settings : Settings)
    (bindings : Option (Bindings κ)) (log : Option (List Log.Record)) (moments : List (Moment κ))
    (physical : ∀ a, a.isPhysical = true → P a)
    (byHand : ∀ a, .occur (.operation (.press (.atom a))) ∈ moments → P a) :
    (∀ shot ∈ (story ⟨.start settings bindings, log⟩ moments).shots,
      shot.scene.now.tracker.Within P) ∧
    (story ⟨.start settings bindings, log⟩ moments).scene.now.tracker.Within P := by
  obtain ⟨shots, _, now⟩ := story_keeps ⟨.start settings bindings, log⟩ moments
    (Tracker.within_start P settings bindings)
    (fun o member d called t within => within.after d fun a pressed => by
      subst pressed
      rcases Occurrence.physical_of_press called with rfl | device
      · exact byHand a member
      · exact physical a device)
    (fun n t taken u within done => within.snapshot done)
  exact ⟨fun shot member => (shots shot member).2, now⟩

end InputChords
