import Mathlib.Algebra.Group.Int.Defs
import Mathlib.Algebra.Group.Nat.Defs
import InputChords.Value

/-! Whole numbers without a numeral. A host can neither inspect them nor write them. -/

namespace InputChords

namespace Decimal

theorem writable_iff (n : Int) : Writable n ↔ n.natAbs < 10 ^ wholeDigitLimit :=
  Nat.length_toDigits_le_iff (by decide) (by decide)

theorem power_not_writable : ¬ Writable (10 ^ wholeDigitLimit) := by
  have ten : (10 : Int).natAbs = 10 := rfl
  rw [writable_iff, Int.natAbs_pow, ten]
  exact Nat.lt_irrefl _

end Decimal

namespace Value

theorem written_unwritable {n : Int} (unwritable : ¬ Decimal.Writable n) :
    written n = .error .wholeNotWritable := by
  rw [written, (Decimal.Whole.of?_eq_none_iff n).mpr unwritable]

theorem described_unwritable {n : Int} (unwritable : ¬ Decimal.Writable n) :
    (whole n).described = .error .wholeNotWritable := by
  rw [whole, described, written_unwritable unwritable]
  rfl

end Value

end InputChords
