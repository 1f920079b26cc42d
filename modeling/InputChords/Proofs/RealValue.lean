import InputChords.Proofs.NumberSign

/-! What a real is exactly: a whole number times a power of two. The order is the one of these
values, between reals as between a real and a whole number. -/

namespace InputChords

def Decimal.Parts.value : Decimal.Parts → Option ℚ
  | .finite negative mantissa exponent =>
    some (((if negative then -(mantissa : Int) else mantissa : Int) : ℚ) * 2 ^ exponent)
  | _ => none

namespace Number

theorem scaled_eq (m e : Int) :
    (m : ℚ) * 2 ^ e * 2 ^ (-e).toNat = m * 2 ^ e.toNat := by
  have powers : (2 : ℚ) ^ e * 2 ^ (-e).toNat = 2 ^ e.toNat := by
    rw [← zpow_natCast, ← zpow_natCast, ← zpow_add₀ two_ne_zero]
    congr 1
    omega
  rw [mul_assoc, powers]

section Value

variable {n : Int} {x : Float} {v : ℚ} (value : (Decimal.parts x).value = some v)

include value

theorem compareWhole_of_value : ∃ p q : Int, compareWhole n x = some (compare p q) ∧
    (p < q ↔ (n : ℚ) < v) ∧ (q < p ↔ v < n) := by
  cases parts : Decimal.parts x with
  | nan =>
      rw [parts] at value
      cases value
  | infinite negative =>
      rw [parts] at value
      cases value
  | finite negative mantissa exponent =>
      rw [parts] at value
      cases value
      let m : Int := if negative then -(mantissa : Int) else mantissa
      have power (k : Nat) : ((Int.pow 2 k : Int) : ℚ) = 2 ^ k := Int.cast_pow 2 k
      have positive : (0 : ℚ) < 2 ^ (-exponent).toNat := pow_pos two_pos _
      have cast : ((m * Int.pow 2 exponent.toNat : Int) : ℚ) =
          m * 2 ^ exponent * 2 ^ (-exponent).toNat := by
        rw [scaled_eq, Int.cast_mul, power]
      have scaled : ((n * Int.pow 2 (-exponent).toNat : Int) : ℚ) =
          n * 2 ^ (-exponent).toNat := by
        rw [Int.cast_mul, power]
      refine ⟨n * Int.pow 2 (-exponent).toNat, m * Int.pow 2 exponent.toNat, ?_, ?_, ?_⟩
      · rw [compareWhole, parts]
      · rw [← Int.cast_lt (R := ℚ), cast, scaled]
        exact mul_lt_mul_iff_left₀ positive
      · rw [← Int.cast_lt (R := ℚ), cast, scaled]
        exact mul_lt_mul_iff_left₀ positive

theorem compareWhole_eq_lt : compareWhole n x = some .lt ↔ (n : ℚ) < v := by
  obtain ⟨p, q, compared, below, -⟩ := compareWhole_of_value (n := n) value
  rw [compared, Option.some.injEq, Int.compare_eq_lt, below]

theorem compareWhole_eq_gt : compareWhole n x = some .gt ↔ v < n := by
  obtain ⟨p, q, compared, -, above⟩ := compareWhole_of_value (n := n) value
  rw [compared, Option.some.injEq, Int.compare_eq_gt, above]

theorem compareWhole_eq_eq : compareWhole n x = some .eq ↔ v = n := by
  obtain ⟨p, q, compared, below, above⟩ := compareWhole_of_value (n := n) value
  rw [compared, Option.some.injEq, Int.compare_eq_eq]
  constructor
  · rintro rfl
    have notBelow := not_lt.mp (below.not.mp (lt_irrefl p))
    exact le_antisymm notBelow (not_lt.mp (above.not.mp (lt_irrefl p)))
  · rintro rfl
    have notAbove := not_lt.mp (above.not.mpr (lt_irrefl (n : ℚ)))
    exact le_antisymm notAbove (not_lt.mp (below.not.mpr (lt_irrefl (n : ℚ))))

end Value

end Number

namespace SignBit

open Float.Model Float.Model.UnpackedFloat

/-- The mantissa is as long as it can be. -/
structure Canonical (mantissa : Nat) (exponent : Int) : Prop where
  short : mantissa < 2 ^ 53
  least : -1074 ≤ exponent
  long : exponent ≠ -1074 → 2 ^ 52 ≤ mantissa

theorem canonical_unpack {x : Float.Model} {s : Sign} {mantissa : Nat} {exponent : Int}
    {positive : 0 < mantissa} (unpacked : x.unpack = .finite s mantissa exponent positive) :
    Canonical mantissa exponent := by
  obtain ⟨sign, e, m, word⟩ := exists_bits x.toBits.toBitVec
  have parts := partsUnpacked_bits sign e m
  rw [← word] at parts
  change partsUnpacked x.unpack = _ at parts
  rw [unpacked, partsUnpacked, partsOf] at parts
  have small : m.toNat < 2 ^ 52 := m.isLt
  split at parts
  · split at parts <;> cases parts
  · split at parts
    · obtain ⟨_, rfl, rfl⟩ := Decimal.Parts.finite.inj parts
      exact ⟨by omega, by omega, by omega⟩
    · obtain ⟨_, rfl, rfl⟩ := Decimal.Parts.finite.inj parts
      exact ⟨by omega, by omega, by omega⟩

theorem Canonical.lt_of_exponent {m m' : Nat} {e e' : Int} (here : Canonical m e)
    (there : Canonical m' e') (below : e < e') : (m : ℚ) * 2 ^ e < m' * 2 ^ e' := by
  have long : 2 ^ 52 ≤ m' := there.long (by have := here.least; omega)
  have split : (2 : ℚ) ^ e' = 2 ^ (e' - e) * 2 ^ e := by
    rw [← zpow_add₀ two_ne_zero, sub_add_cancel]
  have two : (2 : ℚ) ^ (1 : Int) ≤ 2 ^ (e' - e) := zpow_le_zpow_right₀ one_le_two (by omega)
  rw [split, ← mul_assoc]
  refine mul_lt_mul_of_pos_right ?_ (zpow_pos two_pos e)
  calc
    (m : ℚ) < 2 ^ 53 := by exact_mod_cast here.short
    _ = 2 ^ 52 * 2 ^ (1 : Int) := by norm_num
    _ ≤ m' * 2 ^ (e' - e) := mul_le_mul (by exact_mod_cast long) two (by norm_num) (by positivity)

theorem Canonical.order {m m' : Nat} {e e' : Int} (here : Canonical m e) (there : Canonical m' e') :
    ((compare e e').then (compare m m') = .lt ↔ (m : ℚ) * 2 ^ e < m' * 2 ^ e') ∧
    ((compare e e').then (compare m m') = .gt ↔ (m' : ℚ) * 2 ^ e' < m * 2 ^ e) := by
  rcases lt_trichotomy e e' with below | rfl | above
  · have less := here.lt_of_exponent there below
    rw [Int.compare_eq_lt.mpr below]
    exact ⟨⟨fun _ => less, fun _ => rfl⟩, ⟨nofun, fun greater => absurd less greater.asymm⟩⟩
  · have positive : (0 : ℚ) < 2 ^ e := zpow_pos two_pos e
    rw [Int.compare_eq_eq.mpr rfl]
    show (compare m m' = .lt ↔ _) ∧ (compare m m' = .gt ↔ _)
    rw [Nat.compare_eq_lt, Nat.compare_eq_gt, mul_lt_mul_iff_left₀ positive,
      mul_lt_mul_iff_left₀ positive, Nat.cast_lt, Nat.cast_lt]
    exact ⟨Iff.rfl, Iff.rfl⟩
  · have greater := there.lt_of_exponent here above
    rw [Int.compare_eq_gt.mpr above]
    exact ⟨⟨nofun, fun less => absurd greater less.asymm⟩, ⟨fun _ => greater, fun _ => rfl⟩⟩

def valueOf : UnpackedFloat → Option ℚ
  | .zero _ => some 0
  | .finite s mantissa exponent _ => some ((s.apply mantissa : Int) * 2 ^ exponent)
  | _ => none

theorem value_partsUnpacked (u : UnpackedFloat) : (partsUnpacked u).value = valueOf u := by
  cases u with
  | zero s => cases s <;> simp [partsUnpacked, Decimal.Parts.value, valueOf]
  | finite s mantissa exponent positive => cases s <;> rfl
  | _ => rfl

theorem value_parts (x : Float) : (Decimal.parts x).value = valueOf x.toModel.unpack := by
  rw [parts_eq, value_partsUnpacked]

theorem lt_iff_compare (x y : Float) :
    x < y ↔ x.toModel.unpack.compare y.toModel.unpack = some .lt := by
  show decide ((x.toModel.unpack.compare y.toModel.unpack == some .lt) = true) = true ↔ _
  rw [decide_eq_true_iff, beq_iff_eq]

theorem lt_iff_value {x y : Float} {a b : ℚ} (here : (Decimal.parts x).value = some a)
    (there : (Decimal.parts y).value = some b) : x < y ↔ a < b := by
  rw [value_parts] at here there
  rw [lt_iff_compare]
  have size {m : Nat} (positive : 0 < m) (e : Int) : (0 : ℚ) < m * 2 ^ e :=
    mul_pos (Nat.cast_pos.mpr positive) (zpow_pos two_pos e)
  rcases first : x.toModel.unpack with s | _ | s | ⟨s, m, e, positive⟩ <;>
    rcases second : y.toModel.unpack with s' | _ | s' | ⟨s', m', e', positive'⟩ <;>
    rw [first] at here <;> rw [second] at there <;> cases here <;> cases there
  · exact ⟨nofun, fun less => absurd less (lt_irrefl _)⟩
  · have positive := size positive' e'
    cases s' with
    | negative =>
        simp only [Sign.apply, Int.cast_neg, Int.cast_natCast, neg_mul]
        exact ⟨nofun, fun less => absurd less (by linarith)⟩
    | positive =>
        simp only [Sign.apply, Int.cast_natCast]
        exact ⟨fun _ => positive, fun _ => rfl⟩
  · have positive := size positive e
    cases s with
    | negative =>
        simp only [Sign.apply, Int.cast_neg, Int.cast_natCast, neg_mul]
        exact ⟨fun _ => by linarith, fun _ => rfl⟩
    | positive =>
        simp only [Sign.apply, Int.cast_natCast]
        exact ⟨nofun, fun less => absurd less (by linarith)⟩
  · have order := (canonical_unpack first).order (canonical_unpack second)
    have above := size positive e
    have above' := size positive' e'
    cases s <;> cases s' <;> simp only [Sign.apply, Int.cast_neg, Int.cast_natCast, neg_mul]
    · show some ((compare e e').then (compare m m')).swap = some .lt ↔ _
      rw [Option.some.injEq, Ordering.swap_eq_lt, order.2, neg_lt_neg_iff]
    · exact ⟨fun _ => by linarith, fun _ => rfl⟩
    · exact ⟨nofun, fun less => absurd less (by linarith)⟩
    · show some ((compare e e').then (compare m m')) = some .lt ↔ _
      rw [Option.some.injEq, order.1]

end SignBit

end InputChords
