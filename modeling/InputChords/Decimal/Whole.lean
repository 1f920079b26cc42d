/-! Whole numbers in decimal digits. The host neither writes nor reads numerals beyond a limit. -/

namespace InputChords.Decimal

def wholeDigitLimit : Nat := 4300

def Writable (n : Int) : Prop := (Nat.toDigits 10 n.natAbs).length ≤ wholeDigitLimit

instance (n : Int) : Decidable (Writable n) := inferInstanceAs (Decidable (_ ≤ _))

structure Whole where
  value : Int
  writable : Writable value
  deriving DecidableEq, Repr

namespace Whole

def of? (n : Int) : Option Whole := if writable : Writable n then some ⟨n, writable⟩ else none

def text (n : Whole) : String := toString n.value

def digits (n : Whole) : List Char := Nat.toDigits 10 n.value.natAbs

theorem of?_eq_some_iff (n : Int) (w : Whole) : of? n = some w ↔ w.value = n := by
  obtain ⟨value, writable⟩ := w
  rw [of?]
  split
  · rw [Option.some.injEq, mk.injEq, eq_comm]
  · next unwritable =>
    refine ⟨nofun, fun same => absurd ?_ unwritable⟩
    rwa [← same]

theorem of?_eq_none_iff (n : Int) : of? n = none ↔ ¬ Writable n := by
  rw [of?]
  split <;> simp [*]

end Whole

end InputChords.Decimal
