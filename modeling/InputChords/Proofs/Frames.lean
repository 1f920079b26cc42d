import Mathlib.Logic.Relation
import InputChords.Proofs.Act

/-! What operations of the host do to a tracker, step by step. The atoms that are pressed or
released since a snapshot are those that came to be held or ceased to be held at some step since. -/

namespace InputChords

variable {κ : Type}

/-- What may be done between snapshots. The clock is not in the hands of the host. -/
inductive Operation (κ : Type) where
  | press (v : Value)
  | release (v : Value)
  | releaseAll
  | addMotion (dx dy : Value)
  | moveTo (x y : Value)
  | addWheel (dx dy : Value)
  | consume (events : List InputEvent)
  | attach (bindings : Option (Bindings κ))
  | setClock (now : Number)

abbrev Step (κ : Type) := Session κ × Session κ

namespace Step

def Takes (a : Atom) (step : Step κ) : Prop := a ∉ step.1.tracker.held ∧ a ∈ step.2.tracker.held

def Drops (a : Atom) (step : Step κ) : Prop := a ∈ step.1.tracker.held ∧ a ∉ step.2.tracker.held

end Step

namespace Operation

def act : Operation κ → Act κ Unit
  | press v => Act.pressValue v
  | release v => Act.releaseValue v
  | releaseAll => Act.releaseAll
  | addMotion dx dy => Act.addMotion dx dy
  | moveTo x y => Act.moveTo x y
  | addWheel dx dy => Act.addWheel dx dy
  | consume events => Act.consumeAll events
  | attach bindings => Act.attach bindings
  | setClock now => Act.setClock now

def eventSteps : List InputEvent → Session κ → List (Step κ)
  | [], _ => []
  | event :: rest, s =>
    match Act.consume event s with
    | .ok _ left => (s, left) :: eventSteps rest left
    | .error _ left => [(s, left)]

def steps (o : Operation κ) (s : Session κ) : List (Step κ) :=
  match o with
  | consume events => eventSteps events s
  | o => [(s, o.act.after s)]

end Operation

namespace Tracker

structure Fresh (t : Tracker κ) : Prop where
  pressed : t.pressed = ∅
  released : t.released = ∅
  motion : t.motion = .none
  wheel : t.wheel = .none
  dragged : t.dragged = false
  doubleClicked : t.doubleClicked = false

/-- What is held now is what was held at first but for the pressed and released atoms. Those that
are both may be held or not. -/
structure Edges (first : AtomSet) (t : Tracker κ) : Prop where
  began : ∀ a, a ∈ t.pressed → a ∉ t.released → a ∉ first ∧ a ∈ t.held
  ended : ∀ a, a ∈ t.released → a ∉ t.pressed → a ∈ first ∧ a ∉ t.held
  unchanged : ∀ a, a ∉ t.pressed → a ∉ t.released → (a ∈ t.held ↔ a ∈ first)

theorem Recorded.edges {first : AtomSet} {t u : Tracker κ} (recorded : t.Recorded u)
    (edges : t.Edges first) : u.Edges first := by
  constructor
  · intro a
    have pressed := recorded.pressed a
    have released := recorded.released a
    have began := edges.began a
    have unchanged := edges.unchanged a
    tauto
  · intro a
    have pressed := recorded.pressed a
    have released := recorded.released a
    have ended := edges.ended a
    have unchanged := edges.unchanged a
    tauto
  · intro a
    have pressed := recorded.pressed a
    have released := recorded.released a
    have unchanged := edges.unchanged a
    tauto

theorem Fresh.edges {t : Tracker κ} (fresh : t.Fresh) : t.Edges t.held := by
  constructor
  · intro a pressed
    rw [fresh.pressed] at pressed
    exact absurd pressed (AtomSet.not_mem_empty a)
  · intro a released
    rw [fresh.released] at released
    exact absurd released (AtomSet.not_mem_empty a)
  · intro a _ _
    rfl

theorem start_fresh (settings : Settings) (bindings : Option (Bindings κ)) :
    (start settings bindings).Fresh := ⟨rfl, rfl, rfl, rfl, rfl, rfl⟩

theorem nextFrame_fresh (t : Tracker κ) : t.nextFrame.Fresh := ⟨rfl, rfl, rfl, rfl, rfl, rfl⟩

theorem snapshot_eq_ok [DecidableEq κ] (t u : Tracker κ) (frame : Int) (taken : Snapshot κ)
    (done : t.snapshot frame = .ok (taken, u)) :
    taken.active = t.active ∧ taken.pressed = t.pressed ∧ taken.released = t.released ∧
      u.held = t.held ∧ u.Fresh := by
  rw [snapshot] at done
  cases attached : t.bindings with
  | none =>
      rw [attached] at done
      cases done
      exact ⟨rfl, rfl, rfl, rfl, t.nextFrame_fresh⟩
  | some b =>
      rw [attached] at done
      obtain ⟨now, _, done⟩ := bind_eq_ok done
      cases done
      exact ⟨rfl, rfl, rfl, rfl, ⟨rfl, rfl, rfl, rfl, rfl, rfl⟩⟩

end Tracker

theorem Act.snapshot_eq [DecidableEq κ] (frame : Int) (s : Session κ) :
    Act.snapshot frame s =
      match s.tracker.snapshot frame with
      | .ok (taken, t) => .ok taken { s with tracker := t }
      | .error fault => .error fault s := by
  rw [snapshot, get_bind]
  cases s.tracker.snapshot frame <;> rfl

/-- The steps lead from one tracker to the other and record what they change. -/
structure Traced (t u : Tracker κ) (steps : List (Step κ)) : Prop where
  pressed : ∀ a, a ∈ u.pressed ↔ a ∈ t.pressed ∨ ∃ step ∈ steps, step.Takes a
  released : ∀ a, a ∈ u.released ↔ a ∈ t.released ∨ ∃ step ∈ steps, step.Drops a
  path : Relation.ReflTransGen Tracker.Recorded t u

namespace Traced

theorem nil (t : Tracker κ) : Traced t t [] where
  pressed a := by simp
  released a := by simp
  path := .refl

theorem single {s left : Session κ} (recorded : s.tracker.Recorded left.tracker) :
    Traced s.tracker left.tracker [(s, left)] where
  pressed a := by
    rw [recorded.pressed]
    simp [Step.Takes]
  released a := by
    rw [recorded.released]
    simp [Step.Drops]
  path := .single recorded

theorem trans {t u v : Tracker κ} {first second : List (Step κ)} (here : Traced t u first)
    (next : Traced u v second) : Traced t v (first ++ second) where
  pressed a := by
    rw [next.pressed, here.pressed]
    simp only [List.mem_append, or_and_right, exists_or, or_assoc]
  released a := by
    rw [next.released, here.released]
    simp only [List.mem_append, or_and_right, exists_or, or_assoc]
  path := here.path.trans next.path

theorem edges {t u : Tracker κ} {steps : List (Step κ)} {first : AtomSet}
    (traced : Traced t u steps) (edges : t.Edges first) : u.Edges first := by
  have path := traced.path
  clear traced
  induction path with
  | refl => exact edges
  | tail _ recorded ih => exact recorded.edges ih

end Traced

namespace Operation

theorem traced_events (events : List InputEvent) (s : Session κ) :
    Traced s.tracker ((Act.consumeAll events).after s).tracker (eventSteps events s) := by
  induction events generalizing s with
  | nil => exact .nil s.tracker
  | cons event rest ih =>
      have recorded := Act.consume_records event s
      rw [Act.after] at recorded
      rw [Act.consumeAll, Act.after_bind, eventSteps]
      cases result : Act.consume event s with
      | ok x left =>
          rw [result] at recorded
          exact (Traced.single recorded).trans (ih left)
      | error fault left =>
          rw [result] at recorded
          exact .single recorded

theorem traced (o : Operation κ) (s : Session κ) :
    Traced s.tracker (o.act.after s).tracker (o.steps s) := by
  cases o with
  | press v => exact .single (Act.pressValue_records v s)
  | release v => exact .single (Act.releaseValue_records v s)
  | releaseAll => exact .single (Act.releaseAll_records s)
  | addMotion dx dy => exact .single ((Act.keeps_addMotion dx dy).records s)
  | moveTo x y => exact .single ((Act.keeps_moveTo x y).records s)
  | addWheel dx dy => exact .single ((Act.keeps_addWheel dx dy).records s)
  | consume events => exact traced_events events s
  | attach bindings => exact .single ((Act.keeps_attach bindings).records s)
  | setClock now => exact .single ((Act.keeps_setClock now).records s)

end Operation

end InputChords
