import InputChords.AtomSet

/-! What is known about one frame. -/

namespace InputChords

structure ActionEdges (κ : Type) where
  active : List κ
  started : List κ
  ended : List κ
  deriving DecidableEq, Repr

namespace ActionEdges

variable {κ : Type}

def none : ActionEdges κ := ⟨[], [], []⟩

variable [DecidableEq κ]

def between (before now : List κ) : ActionEdges κ :=
  ⟨now, now.filter fun a => !before.contains a, before.filter fun a => !now.contains a⟩

theorem mem_started (before now : List κ) (a : κ) :
    a ∈ (between before now).started ↔ a ∈ now ∧ a ∉ before := by
  simp [between]

theorem mem_ended (before now : List κ) (a : κ) :
    a ∈ (between before now).ended ↔ a ∈ before ∧ a ∉ now := by
  simp [between]

end ActionEdges

structure Snapshot (κ : Type) where
  frame : Int
  active : AtomSet
  pressed : AtomSet
  released : AtomSet
  actions : ActionEdges κ
  deriving DecidableEq

namespace Snapshot

variable {κ : Type}

def empty (frame : Int) : Snapshot κ := ⟨frame, ∅, ∅, ∅, .none⟩

def isActive (s : Snapshot κ) (a : Atom) : Bool := decide (a ∈ s.active)

end Snapshot

end InputChords
