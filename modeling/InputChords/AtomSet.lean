import InputChords.Atom

/-! Sets of atoms. The members are listed in catalog order, so that two sets with the same members
are equal. -/

namespace InputChords

structure AtomSet where
  members : List Atom
  canonical : Atom.all.filter members.contains = members
  deriving DecidableEq

namespace AtomSet

instance : Membership Atom AtomSet := ⟨fun s a => a ∈ s.members⟩

instance (a : Atom) (s : AtomSet) : Decidable (a ∈ s) :=
  inferInstanceAs (Decidable (a ∈ s.members))

def ofPred (p : Atom → Bool) : AtomSet where
  members := Atom.all.filter p
  canonical := by
    apply List.filter_congr
    intro a _
    rw [Bool.eq_iff_iff, List.contains_iff_mem, List.mem_filter]
    exact ⟨fun h => h.2, fun h => ⟨Atom.mem_all a, h⟩⟩

theorem mem_ofPred (p : Atom → Bool) (a : Atom) : a ∈ ofPred p ↔ p a = true :=
  List.mem_filter.trans ⟨fun h => h.2, fun h => ⟨Atom.mem_all a, h⟩⟩

theorem ext {s t : AtomSet} (same : ∀ a, a ∈ s ↔ a ∈ t) : s = t := by
  have members : s.members = t.members := by
    rw [← s.canonical, ← t.canonical]
    apply List.filter_congr
    intro a _
    rw [Bool.eq_iff_iff, List.contains_iff_mem, List.contains_iff_mem]
    exact same a
  cases s
  cases t
  simp_all

def empty : AtomSet := ofPred fun _ => false

instance : EmptyCollection AtomSet := ⟨empty⟩

def insert (s : AtomSet) (a : Atom) : AtomSet := ofPred fun b => b == a || s.members.contains b

def erase (s : AtomSet) (a : Atom) : AtomSet := ofPred fun b => b != a && s.members.contains b

def union (s t : AtomSet) : AtomSet :=
  ofPred fun b => s.members.contains b || t.members.contains b

instance : Union AtomSet := ⟨union⟩

def ofList (atoms : List Atom) : AtomSet := ofPred atoms.contains

def isEmpty (s : AtomSet) : Bool := s.members.isEmpty

theorem not_mem_empty (a : Atom) : a ∉ (∅ : AtomSet) := fun h => by
  simpa using (mem_ofPred _ a).mp h

theorem mem_insert (s : AtomSet) (a b : Atom) : b ∈ s.insert a ↔ b = a ∨ b ∈ s := by
  simp only [insert, mem_ofPred, Bool.or_eq_true, beq_iff_eq, List.contains_iff_mem]
  exact Iff.rfl

theorem mem_erase (s : AtomSet) (a b : Atom) : b ∈ s.erase a ↔ b ≠ a ∧ b ∈ s := by
  simp only [erase, mem_ofPred, Bool.and_eq_true, bne_iff_ne, List.contains_iff_mem]
  exact Iff.rfl

theorem mem_union (s t : AtomSet) (b : Atom) : b ∈ s ∪ t ↔ b ∈ s ∨ b ∈ t := by
  show b ∈ union s t ↔ _
  simp only [union, mem_ofPred, Bool.or_eq_true, List.contains_iff_mem]
  exact Iff.rfl

theorem mem_ofList (atoms : List Atom) (a : Atom) : a ∈ ofList atoms ↔ a ∈ atoms := by
  simp [ofList, mem_ofPred]

end AtomSet

end InputChords
