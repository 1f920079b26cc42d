import InputChords.Proofs.Names

/-! Names that several categories know. The canonical names of two pointer movements are aliases of
clicks, which are asked first; every other name leads to the atom that goes by it. -/

namespace InputChords

namespace Atom

/-- The text is the canonical name of a pointer movement, which a click goes by, too. -/
def Shadowed (a : Atom) (name : String) : Prop :=
  a.category = .mouseMovement ∧
    (Text.lower (normalizeKeyword name) = "mouseleft" ∨
      Text.lower (normalizeKeyword name) = "mouseright")

instance (a : Atom) (name : String) : Decidable (a.Shadowed name) :=
  inferInstanceAs (Decidable (_ ∧ _))

theorem unshadowed_keys (a : Atom) (key : String) (known : key ∈ a.keys) :
    (∀ c ∈ a.category.earlier, ∀ b ∈ ofCategory c, key ∉ b.keys) ∨
      a.category = .mouseMovement ∧ (key = "mouseleft" ∨ key = "mouseright") := by
  have shown : ∀ b ∈ mouse, ∀ name ∈ b.names,
      (∀ c ∈ b.category.earlier, ∀ other ∈ ofCategory c,
        number (Text.lowerFrom false name.toList) ∉ other.numbers) ∨
      b.category = .mouseMovement ∧
        (Text.lower name = "mouseleft" ∨ Text.lower name = "mouseright") := by decide +kernel
  by_cases isKey : a.category = .keyboard
  · left
    intro c member
    rw [isKey] at member
    cases member
  · obtain ⟨name, named, rfl⟩ := List.mem_map.mp known
    refine (shown a (a.mem_mouse isKey) name named).imp_left ?_
    intro unshadowed c earlier b inside taken
    exact unshadowed c earlier b inside (number_mem b name taken)

end Atom

theorem resolveAtom_or_shadowed (a : Atom) (name : String) (known : a.GoesBy name) :
    resolveAtom name = some a ∨ a.Shadowed name :=
  (a.unshadowed_keys _ known).imp_left (resolveAtom_of_goesBy a name known)

end InputChords
