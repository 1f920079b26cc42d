import Mathlib
import InputChords.Number

/-! Negation of a real turns its sign bit, and nothing else of it. -/

namespace InputChords

namespace SignBit

open Float.Model Float.Model.UnpackedFloat

abbrev Exponent := BitVec Format.binary64.exponentBits

abbrev Mantissa := BitVec Format.binary64.mantissaBitsWithoutImplicit

def bits (s : Sign) (e : Exponent) (m : Mantissa) : BitVec Format.binary64.numBits :=
  packComponents .binary64 s e m

theorem unpackSign_bits (s : Sign) (e : Exponent) (m : Mantissa) :
    Sign.ofBitVec (unpackSign (bits s e m)) = s := by
  have sign : unpackSign (bits s e m) = s.toBitVec := by
    ext i bound
    have first : i = 0 := by omega
    subst first
    simp only [unpackSign, bits, packComponents]
    grind
  rw [sign]
  cases s <;> rfl

theorem exists_bits (b : BitVec Format.binary64.numBits) : ∃ s e m, b = bits s e m := by
  refine ⟨Sign.ofBitVec (unpackSign b), unpackExponent b, unpackMantissa b, ?_⟩
  have sign (v : BitVec 1) : (Sign.ofBitVec v).toBitVec = v := by
    revert v
    decide
  simp only [bits, packComponents, sign, unpackSign, unpackExponent, unpackMantissa,
    BitVec.extractLsb]
  ext i bound
  grind

theorem pack_subnormal (s : Sign) (m : Mantissa) (positive : 0 < m.toNat) :
    UnpackedFloat.pack .binary64 (.finite s m.toNat (-1074) positive) = bits s 0#_ m := by
  have below : m.toNat.log2 < 52 := (Nat.log2_lt (Nat.ne_of_gt positive)).mpr m.isLt
  have short : ¬ m.toNat.log2 + 1 = Format.binary64.mantissaBits := by
    show ¬ m.toNat.log2 + 1 = 53
    omega
  have least : ¬ 2 ^ Format.binary64.exponentBits ≤ (-1074 + (Format.binary64.exponentBias : Int) +
      (Format.binary64.mantissaBitsWithoutImplicit : Int)).toNat + 1 := by decide
  rw [UnpackedFloat.pack]
  simp only [if_neg least, if_neg short, BitVec.ofNat_toNat, BitVec.setWidth_eq]
  rfl

theorem pack_normal (s : Sign) (e : Exponent) (m : Mantissa) (notTop : e ≠ -1#_)
    (positive : 0 < (1#1 ++ m).toNat) :
    UnpackedFloat.pack .binary64 (.finite s (1#1 ++ m).toNat (e.toNat - 1075) positive) =
      bits s e m := by
  have leading : (1#1 ++ m).toNat = 2 ^ 52 + m.toNat := by
    rw [BitVec.toNat_append, ← Nat.shiftLeft_add_eq_or_of_lt m.isLt]
    simp [Nat.shiftLeft_eq]
  have small : m.toNat < 2 ^ 52 := m.isLt
  have filled : (1#1 ++ m).toNat ≠ 0 := Nat.ne_of_gt positive
  have atLeast : 52 ≤ (1#1 ++ m).toNat.log2 := (Nat.le_log2 filled).mpr (by omega)
  have atMost : (1#1 ++ m).toNat.log2 < 53 := (Nat.log2_lt filled).mpr (by omega)
  have long : (1#1 ++ m).toNat.log2 + 1 = Format.binary64.mantissaBits := by
    show (1#1 ++ m).toNat.log2 + 1 = 53
    omega
  have biased : ((e.toNat : Int) - 1075 + (Format.binary64.exponentBias : Int) +
      (Format.binary64.mantissaBitsWithoutImplicit : Int)).toNat = e.toNat := by
    show ((e.toNat : Int) - 1075 + 1023 + 52).toNat = e.toNat
    omega
  have below : ¬ 2 ^ Format.binary64.exponentBits ≤ e.toNat + 1 := by
    intro reached
    apply notTop
    apply BitVec.eq_of_toNat_eq
    have bound : e.toNat < 2 ^ 11 := e.isLt
    have reached : 2 ^ 11 ≤ e.toNat + 1 := reached
    show e.toNat = 2 ^ 11 - 1
    omega
  have fraction :
      BitVec.ofNat Format.binary64.mantissaBitsWithoutImplicit (1#1 ++ m).toNat = m := by
    apply BitVec.eq_of_toNat_eq
    rw [BitVec.toNat_ofNat, leading]
    show (2 ^ 52 + m.toNat) % 2 ^ 52 = m.toNat
    omega
  rw [UnpackedFloat.pack]
  simp only [biased, if_neg below, if_pos long, fraction, BitVec.ofNat_toNat, BitVec.setWidth_eq]
  rfl

theorem pack_neg_unpack (s : Sign) (e : Exponent) (m : Mantissa) (number : e = -1#_ → m = 0#_) :
    UnpackedFloat.pack .binary64 (UnpackedFloat.unpack .binary64 (bits s e m)).neg =
      bits (-s) e m := by
  have sign := unpackSign_bits s e m
  have exponent : unpackExponent (bits s e m) = e := unpackExponent_packComponents ..
  have mantissa : unpackMantissa (bits s e m) = m := unpackMantissa_packComponents ..
  rw [UnpackedFloat.unpack]
  simp only [sign, exponent, mantissa]
  by_cases top : e = -1#_
  · have zero := number top
    subst top zero
    rfl
  · rw [if_neg top]
    by_cases bottom : e = 0#_
    · subst bottom
      rw [if_pos rfl]
      by_cases zero : m = 0#_
      · subst zero
        rfl
      · rw [dif_neg zero]
        exact pack_subnormal (-s) m _
    · rw [if_neg bottom]
      exact pack_normal (-s) e m top _

theorem neg_neg_model (x : Float.Model) : - -x = x := by
  obtain ⟨word, valid⟩ := x
  obtain ⟨s, e, m, split⟩ := exists_bits word.toBitVec
  have twice : UnpackedFloat.pack .binary64 (UnpackedFloat.unpack .binary64
      (UnpackedFloat.pack .binary64 (UnpackedFloat.unpack .binary64 word.toBitVec).neg)).neg =
        word.toBitVec := by
    by_cases number : e = -1#_ → m = 0#_
    · rw [split, pack_neg_unpack s e m number, pack_neg_unpack (-s) e m number]
      cases s <;> rfl
    · -- What is not a number has one representation, and no sign.
      obtain ⟨top, filled⟩ := Classical.not_imp.mp number
      have nan : word.toBitVec = packedNaN .binary64 := by
        apply valid.eq_packedNaN
        · rw [split]
          exact (unpackExponent_packComponents ..).trans top
        · rw [split]
          intro zero
          exact filled ((unpackMantissa_packComponents ..).symm.trans zero)
      rw [nan]
      rfl
  have same : (- -(⟨word, valid⟩ : Float.Model)).toBits = word := UInt64.toBitVec_inj.mp twice
  exact Float.Model.mk.injEq .. ▸ same

theorem neg_neg (x : Float) : - -x = x := congrArg Float.ofModel (neg_neg_model x.toModel)

end SignBit

end InputChords
