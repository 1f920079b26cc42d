import InputChords.Proofs.RealValue

/-! Reals that are whole numbers. As long as the mantissa holds them they are added, subtracted and
read without rounding, and they compare as the whole numbers do. -/

namespace InputChords

namespace SignBit

open Float.Model Float.Model.UnpackedFloat

/-! Rounding leaves alone what is no longer than a mantissa. -/

theorem shiftRight_exact (mantissa k : Nat) :
    (⟨mantissa * 2 ^ k, false, false⟩ : ExtendedMantissa) >>> k = ⟨mantissa, false, false⟩ := by
  show k.repeat ExtendedMantissa.shiftRightOne _ = _
  induction k generalizing mantissa with
  | zero => simp [Nat.repeat]
  | succ k ih =>
      have double : mantissa * 2 ^ (k + 1) = mantissa * 2 * 2 ^ k := by ring
      rw [Nat.repeat, double, ih]
      simp [ExtendedMantissa.shiftRightOne]

theorem log2_eq_52 {mantissa : Nat} (long : 2 ^ 52 ≤ mantissa) (short : mantissa < 2 ^ 53) :
    mantissa.log2 = 52 := by
  have filled : mantissa ≠ 0 := by omega
  have atLeast := (Nat.le_log2 filled).mpr long
  have atMost := (Nat.log2_lt filled).mpr short
  omega

theorem log2_scaled {n : Nat} (filled : n ≠ 0) (k : Nat) : (n * 2 ^ k).log2 = n.log2 + k := by
  induction k with
  | zero => simp
  | succ k ih =>
      have double : n * 2 ^ (k + 1) = 2 * (n * 2 ^ k) := by ring
      rw [double, Nat.log2_two_mul (by positivity), ih, add_assoc]

theorem targetExponent_scaled {mantissa : Nat} {exponent : Int} (long : 2 ^ 52 ≤ mantissa)
    (short : mantissa < 2 ^ 53) (least : -1074 ≤ exponent) (k : Nat) :
    Format.binary64.targetExponent (totalExponent (mantissa * 2 ^ k) (exponent - k)) =
      exponent := by
  rw [totalExponent, log2_scaled (by omega), log2_eq_52 long short, Format.targetExponent]
  show max (_ - (53 : Int)) (-1074) = exponent
  push_cast
  omega

theorem shiftToTargetExponent_scaled {mantissa : Nat} {exponent : Int} (long : 2 ^ 52 ≤ mantissa)
    (short : mantissa < 2 ^ 53) (least : -1074 ≤ exponent) (k : Nat) :
    shiftToTargetExponent .binary64 (mantissa * 2 ^ k) (exponent - k) .exact =
      (⟨mantissa, false, false⟩, exponent) := by
  rw [shiftToTargetExponent, targetExponent_scaled long short least, shiftToExponent]
  have amount : (exponent - (exponent - k)).toNat = k := by omega
  simp only [amount]
  exact Prod.ext (shiftRight_exact mantissa k) (by simp)

theorem roundWithAccuracy_scaled (s : Sign) {mantissa : Nat} {exponent : Int}
    (long : 2 ^ 52 ≤ mantissa) (short : mantissa < 2 ^ 53) (least : -1074 ≤ exponent) (k : Nat) :
    roundWithAccuracy .binary64 s (mantissa * 2 ^ k) (exponent - k) .exact =
      .finite s mantissa exponent (by omega) := by
  have again := shiftToTargetExponent_scaled long short least 0
  rw [pow_zero, mul_one, Nat.cast_zero, sub_zero] at again
  have filled : mantissa ≠ 0 := by omega
  simp only [roundWithAccuracy, shiftToTargetExponent_scaled long short least k]
  simp only [ExtendedMantissa.roundedMantissa, ExtendedMantissa.accuracy,
    Accuracy.roundToNearestEven, again, dif_neg filled]

theorem mantissa_range {n : Nat} (positive : 0 < n) (short : n < 2 ^ 53) :
    2 ^ 52 ≤ n * 2 ^ (52 - n.log2) ∧ n * 2 ^ (52 - n.log2) < 2 ^ 53 := by
  have filled : n ≠ 0 := by omega
  have length : n.log2 < 53 := (Nat.log2_lt filled).mpr short
  have top : 2 ^ n.log2 * 2 ^ (52 - n.log2) = 2 ^ 52 := by
    rw [← pow_add]
    congr 1
    omega
  constructor
  · rw [← top]
    exact Nat.mul_le_mul_right _ (Nat.log2_self_le filled)
  · have next : 2 ^ 53 = 2 ^ (n.log2 + 1) * 2 ^ (52 - n.log2) := by
      rw [pow_succ 2 n.log2, mul_right_comm, top]
      rfl
    rw [next]
    exact Nat.mul_lt_mul_of_pos_right Nat.lt_log2_self (by positivity)

theorem round_whole (s : Sign) {n : Nat} (positive : 0 < n) (short : n < 2 ^ 53) (k : Nat) :
    UnpackedFloat.round .binary64 s (n * 2 ^ k) (-k) =
      .finite s (n * 2 ^ (52 - n.log2)) ((n.log2 : Int) - 52) (by positivity) := by
  have filled : n ≠ 0 := by omega
  have length : n.log2 < 53 := (Nat.log2_lt filled).mpr short
  have target : Format.binary64.targetExponent (totalExponent (n * 2 ^ k) (-k)) =
      (n.log2 : Int) - 52 := by
    rw [totalExponent, log2_scaled filled, Format.targetExponent]
    show max (_ - (53 : Int)) (-1074) = _
    push_cast
    omega
  -- The mantissa is shifted to the left where it is short, and to the right where it is long.
  have mantissa : (n * 2 ^ k) <<< (-(k : Int) - (n.log2 - 52)).toNat =
      n * 2 ^ (52 - n.log2) * 2 ^ (k - (52 - n.log2)) := by
    rw [Nat.shiftLeft_eq, mul_assoc, mul_assoc, ← pow_add, ← pow_add]
    congr 2
    omega
  have exponent : -(k : Int) - ((-(k : Int) - (n.log2 - 52)).toNat : Int) =
      (n.log2 : Int) - 52 - (k - (52 - n.log2) : Nat) := by omega
  obtain ⟨long, fits⟩ := mantissa_range positive short
  simp only [UnpackedFloat.round, target, decreaseExponent, mantissa, exponent]
  exact roundWithAccuracy_scaled s long fits (by omega) _

theorem value_of_pack_finite {x : Float} {s : Sign} {mantissa : Nat} {exponent : Int}
    {positive : 0 < mantissa} (packed : x.toModel = .pack (.finite s mantissa exponent positive))
    (long : 2 ^ 52 ≤ mantissa) (short : mantissa < 2 ^ 53) (least : -1074 ≤ exponent)
    (greatest : exponent ≤ 971) :
    (Decimal.parts x).value = some (((s.apply mantissa : Int) : ℚ) * 2 ^ exponent) := by
  let e : Exponent := BitVec.ofNat _ (exponent + 1075).toNat
  let m : Mantissa := BitVec.ofNat _ (mantissa - 2 ^ 52)
  have e_nat : e.toNat = (exponent + 1075).toNat := by
    rw [BitVec.toNat_ofNat]
    exact Nat.mod_eq_of_lt (show _ < 2 ^ 11 by omega)
  have power : (e.toNat : Int) - 1075 = exponent := by omega
  have m_nat : m.toNat = mantissa - 2 ^ 52 := by
    rw [BitVec.toNat_ofNat]
    exact Nat.mod_eq_of_lt (show _ < 2 ^ 52 by omega)
  have leading : (1#1 ++ m).toNat = mantissa := by
    rw [BitVec.toNat_append, ← Nat.shiftLeft_add_eq_or_of_lt m.isLt]
    simp [Nat.shiftLeft_eq]
    omega
  have notTop : e ≠ -1#_ := by
    intro top
    have nat := congrArg BitVec.toNat top
    rw [e_nat] at nat
    change (exponent + 1075).toNat = 2047 at nat
    omega
  have word : x.toModel.toBits.toBitVec = bits s e m := by
    have same : UnpackedFloat.finite s mantissa exponent positive =
        .finite s (1#1 ++ m).toNat (e.toNat - 1075) (by omega) := by
      simp only [leading, power]
    rw [packed, same]
    exact pack_normal s e m notTop (by omega)
  rw [parts_bits x s e m word, partsOf, if_neg (by omega), if_neg (by omega)]
  have whole : 2 ^ 52 + m.toNat = mantissa := by omega
  rw [whole, power]
  cases s <;> rfl

theorem pack_unpack_model (x : Float.Model) : .pack x.unpack = x := by
  obtain ⟨word, valid⟩ := x
  have same : UInt64.ofBitVec (UnpackedFloat.pack .binary64 (UnpackedFloat.unpack .binary64
      word.toBitVec)) = word := by
    rw [pack_unpack_of_valid valid]
  exact Float.Model.mk.injEq .. ▸ same

theorem value_of_pack_zero {x : Float} {s : Sign} (packed : x.toModel = .pack (.zero s)) :
    (Decimal.parts x).value = some 0 := by
  rw [value_parts, packed]
  cases s <;> rfl

theorem value_of_pack_round {x : Float} {s : Sign} {n : Nat} (positive : 0 < n) (short : n < 2 ^ 53)
    (k : Nat) (packed : x.toModel = .pack (UnpackedFloat.round .binary64 s (n * 2 ^ k) (-k))) :
    (Decimal.parts x).value = some ((s.apply n : Int) : ℚ) := by
  obtain ⟨long, fits⟩ := mantissa_range positive short
  have length : n.log2 < 53 := (Nat.log2_lt (Nat.ne_of_gt positive)).mpr short
  rw [round_whole s positive short k] at packed
  rw [value_of_pack_finite packed long fits (by omega) (by omega)]
  have back : (2 : ℚ) ^ (52 - n.log2) * 2 ^ ((n.log2 : Int) - 52) = 1 := by
    rw [← zpow_natCast, ← zpow_add₀ two_ne_zero, Nat.cast_sub (by omega)]
    simp
  cases s with
  | positive => simp [Sign.apply, mul_assoc, back]
  | negative => simp [Sign.apply, mul_assoc, back]

theorem value_of_pack_normalize {x : Float} {n : Int} (short : n.natAbs < 2 ^ 53) (k : Nat)
    (packed : x.toModel = .pack (normalize .binary64 (n * 2 ^ k) (-k) .positive)) :
    (Decimal.parts x).value = some (n : ℚ) := by
  have power : (0 : Int) < 2 ^ k := by positivity
  have size (m : Nat) : ((m : Int) * 2 ^ k).toNat = m * 2 ^ k := by
    exact_mod_cast Int.toNat_natCast (m * 2 ^ k)
  rw [UnpackedFloat.normalize.eq_def] at packed
  rcases lt_trichotomy n 0 with below | rfl | above
  · obtain ⟨m, rfl⟩ : ∃ m : Nat, n = -m := ⟨n.natAbs, by omega⟩
    rw [Int.compare_eq_lt.mpr (mul_neg_of_neg_of_pos below power)] at packed
    simp only [Int.neg_mul, Int.neg_neg, size] at packed
    exact value_of_pack_round (by omega) (by omega) k packed
  · rw [zero_mul] at packed
    exact (value_of_pack_zero packed).trans (by simp)
  · obtain ⟨m, rfl⟩ : ∃ m : Nat, n = m := ⟨n.natAbs, by omega⟩
    rw [Int.compare_eq_gt.mpr (mul_pos above power)] at packed
    simp only [size] at packed
    exact value_of_pack_round (by omega) (by omega) k packed

theorem natAbs_apply (s : Sign) (mantissa : Nat) : (s.apply mantissa).natAbs = mantissa := by
  cases s <;> simp [Sign.apply]

theorem apply_mul (s : Sign) (p q : Int) : s.apply p * q = s.apply (p * q) := by
  cases s <;> simp [Sign.apply]

theorem exponent_of_whole {s : Sign} {mantissa : Nat} {exponent : Int}
    (canonical : Canonical mantissa exponent) {n : Int} (short : n.natAbs < 2 ^ 53)
    (value : ((s.apply mantissa : Int) : ℚ) * 2 ^ exponent = n) : exponent ≤ 0 := by
  by_contra above
  have long := canonical.long (by omega)
  obtain ⟨k, rfl⟩ : ∃ k : Nat, exponent = k + 1 := ⟨(exponent - 1).toNat, by omega⟩
  have whole : s.apply mantissa * 2 ^ (k + 1) = n := by exact_mod_cast value
  have size := congrArg Int.natAbs whole
  rw [Int.natAbs_mul, natAbs_apply, Int.natAbs_pow] at size
  have power : 2 ^ 1 ≤ 2 ^ (k + 1) := Nat.pow_le_pow_right two_pos (by omega)
  have product := Nat.mul_le_mul long power
  change mantissa * 2 ^ (k + 1) = _ at size
  omega

theorem apply_shiftLeft {s : Sign} {mantissa : Nat} {exponent least n : Int}
    (value : ((s.apply mantissa : Int) : ℚ) * 2 ^ exponent = n) (below : least ≤ exponent)
    (negative : least ≤ 0) :
    s.apply (mantissa <<< (exponent - least).toNat : Nat) = n * 2 ^ (-least).toNat := by
  have shifted : (2 : ℚ) ^ (exponent - least).toNat = 2 ^ exponent * 2 ^ (-least).toNat := by
    rw [← zpow_natCast, ← zpow_natCast, ← zpow_add₀ two_ne_zero]
    congr 1
    omega
  have same : ((s.apply mantissa * 2 ^ (exponent - least).toNat : Int) : ℚ) =
      (n * 2 ^ (-least).toNat : Int) := by
    push_cast
    rw [shifted, ← mul_assoc, value]
  rw [Nat.shiftLeft_eq, Nat.cast_mul, ← apply_mul]
  exact_mod_cast same

theorem long_of_whole {s : Sign} {mantissa : Nat} {exponent : Int} (positive : 0 < mantissa)
    (canonical : Canonical mantissa exponent) {n : Int}
    (value : ((s.apply mantissa : Int) : ℚ) * 2 ^ exponent = n) : 2 ^ 52 ≤ mantissa := by
  by_contra short
  have least : exponent = -1074 := by
    by_contra other
    exact short (canonical.long other)
  have scaled := congrArg Int.natAbs (apply_shiftLeft value le_rfl (by omega))
  rw [natAbs_apply, Int.natAbs_mul, Int.natAbs_pow, Int.sub_self, Int.toNat_zero,
    Nat.shiftLeft_zero] at scaled
  change mantissa = n.natAbs * 2 ^ (-exponent).toNat at scaled
  have filled : 1 ≤ n.natAbs := by
    rcases Nat.eq_zero_or_pos n.natAbs with none | some
    · rw [none, Nat.zero_mul] at scaled
      omega
    · exact some
  apply short
  calc
    2 ^ 52 = 1 * 2 ^ 52 := (one_mul _).symm
    _ ≤ n.natAbs * 2 ^ (-exponent).toNat :=
      Nat.mul_le_mul filled (Nat.pow_le_pow_right two_pos (by omega))
    _ = mantissa := scaled.symm

theorem unpack_bits_neg (s : Sign) (e : Exponent) (m : Mantissa) :
    UnpackedFloat.unpack .binary64 (bits (-s) e m) =
      (UnpackedFloat.unpack .binary64 (bits s e m)).neg := by
  have sign (s : Sign) := unpackSign_bits s e m
  have exponent (s : Sign) : unpackExponent (bits s e m) = e := unpackExponent_packComponents ..
  have mantissa (s : Sign) : unpackMantissa (bits s e m) = m := unpackMantissa_packComponents ..
  simp only [UnpackedFloat.unpack, sign, exponent, mantissa]
  split
  · split <;> rfl
  · split
    · split <;> rfl
    · rfl

theorem unpack_neg (x : Float) : (-x).toModel.unpack = x.toModel.unpack.neg := by
  obtain ⟨s, e, m, word⟩ := exists_bits x.toModel.toBits.toBitVec
  have turned : (-x).toModel.unpack = UnpackedFloat.unpack .binary64
      (UnpackedFloat.pack .binary64 (UnpackedFloat.unpack .binary64 (bits s e m)).neg) := by
    rw [← word]
    rfl
  rw [turned, Float.Model.unpack, word]
  by_cases number : e = -1#_ → m = 0#_
  · rw [pack_neg_unpack s e m number, unpack_bits_neg]
  · -- What is not a number stays what it is.
    obtain ⟨top, filled⟩ := Classical.not_imp.mp number
    have nan : UnpackedFloat.unpack .binary64 (bits s e m) = .notANumber := by
      have exponent : unpackExponent (bits s e m) = e := unpackExponent_packComponents ..
      have mantissa : unpackMantissa (bits s e m) = m := unpackMantissa_packComponents ..
      simp only [UnpackedFloat.unpack, exponent, mantissa, if_pos top, if_neg filled]
    rw [nan]
    rfl

theorem apply_neg (s : Sign) (n : Int) : (-s).apply n = -s.apply n := by
  cases s with
  | positive => rfl
  | negative => exact (Int.neg_neg n).symm

theorem sub_unpacked (a b : UnpackedFloat) : a.sub .binary64 b = a.add .binary64 b.neg := by
  rcases a with s | _ | s | ⟨s, m, e, positive⟩ <;>
    rcases b with s' | _ | s' | ⟨s', m', e', positive'⟩
  all_goals try rfl
  · simp only [UnpackedFloat.sub, UnpackedFloat.add, UnpackedFloat.neg, apply_neg,
      Int.sub_eq_add_neg]

theorem sub_eq_add_neg (x y : Float) : x - y = x + -y := by
  have model : (x - y).toModel = (x + -y).toModel := by
    show Float.Model.pack _ = Float.Model.pack (x.toModel.unpack.add .binary64 (-y).toModel.unpack)
    rw [unpack_neg, ← sub_unpacked]
  exact congrArg Float.ofModel model

end SignBit

namespace Number

open Float.Model Float.Model.UnpackedFloat SignBit

/-- The real is this whole number, exactly. -/
def IsWhole (x : Float) (n : Int) : Prop := compareWhole n x = some .eq

theorem isWhole_iff_value (x : Float) (n : Int) :
    IsWhole x n ↔ (Decimal.parts x).value = some (n : ℚ) := by
  constructor
  · intro whole
    cases parts : Decimal.parts x with
    | nan => simp [IsWhole, compareWhole, parts] at whole
    | infinite negative => cases negative <;> simp [IsWhole, compareWhole, parts] at whole
    | finite negative mantissa exponent =>
        have value : (Decimal.parts x).value = _ := congrArg Decimal.Parts.value parts
        rw [← parts, value]
        exact congrArg some ((compareWhole_eq_eq value).mp whole)
  · exact fun value => (compareWhole_eq_eq value).mpr rfl

theorem IsWhole.unpacked {x : Float} {n : Int} (whole : IsWhole x n) :
    (∃ s, x.toModel.unpack = .zero s ∧ n = 0) ∨
      ∃ s mantissa exponent, ∃ positive : 0 < mantissa,
        x.toModel.unpack = .finite s mantissa exponent positive ∧ Canonical mantissa exponent ∧
          ((s.apply mantissa : Int) : ℚ) * 2 ^ exponent = n := by
  rw [isWhole_iff_value, value_parts] at whole
  cases unpacked : x.toModel.unpack with
  | infinity s => simp [unpacked, valueOf] at whole
  | notANumber => simp [unpacked, valueOf] at whole
  | zero s => exact .inl ⟨s, rfl, by simpa [unpacked, valueOf, eq_comm] using whole⟩
  | finite s mantissa exponent positive =>
      rw [unpacked] at whole
      exact .inr ⟨s, mantissa, exponent, positive, rfl, canonical_unpack unpacked,
        Option.some.inj whole⟩

theorem IsWhole.repacked {x y : Float} {n : Int} (whole : IsWhole x n)
    (same : y.toModel = .pack x.toModel.unpack) : IsWhole y n := by
  rw [isWhole_iff_value, value_parts] at whole ⊢
  rwa [same, pack_unpack_model]

theorem isWhole_zero {x : Float} {s : Sign} (packed : x.toModel = .pack (.zero s)) :
    IsWhole x 0 :=
  (isWhole_iff_value x 0).mpr ((value_of_pack_zero packed).trans (by simp))

theorem IsWhole.neg {x : Float} {n : Int} (whole : IsWhole x n) : IsWhole (-x) (-n) := by
  rw [isWhole_iff_value] at whole ⊢
  rw [parts_neg]
  cases parts : Decimal.parts x with
  | finite negative mantissa exponent =>
      rw [parts] at whole
      have value := Option.some.inj whole
      rw [Int.cast_neg, ← value]
      cases negative <;> simp [Decimal.Parts.neg, Decimal.Parts.value]
  | nan =>
      rw [parts] at whole
      cases whole
  | infinite negative =>
      rw [parts] at whole
      cases whole

section Arithmetic

variable {x y : Float} {a b : Int} (here : IsWhole x a) (there : IsWhole y b)
  (small : a.natAbs < 2 ^ 53)

include here there small

/-- Whole numbers add up exactly as long as a mantissa holds their sum. -/
theorem IsWhole.add (short : (a + b).natAbs < 2 ^ 53) : IsWhole (x + y) (a + b) := by
  have sum : (x + y).toModel = .pack (x.toModel.unpack.add .binary64 y.toModel.unpack) := rfl
  rcases here.unpacked with ⟨s, first, rfl⟩ | ⟨s, m, e, positive, first, canonical, value⟩
  · rw [zero_add]
    rcases there.unpacked with ⟨s', second, rfl⟩ | ⟨s', m', e', positive', second, _, _⟩
    · rw [first, second, UnpackedFloat.add] at sum
      split at sum <;> exact isWhole_zero sum
    · refine there.repacked ?_
      rw [sum, first, second]
      rfl
  · rcases there.unpacked with ⟨s', second, rfl⟩ | ⟨s', m', e', positive', second, _, value'⟩
    · rw [add_zero]
      refine here.repacked ?_
      rw [sum, first, second]
      rfl
    · -- Both are written with the lower exponent, which is that of a whole number or less.
      have low := exponent_of_whole canonical small value
      rw [first, second] at sum
      change (x + y).toModel = .pack (normalize .binary64
        (s.apply (m <<< (e - min e e').toNat : Nat) +
          s'.apply (m' <<< (e' - min e e').toNat : Nat)) (min e e') .positive) at sum
      rw [apply_shiftLeft value (by omega) (by omega),
        apply_shiftLeft value' (by omega) (by omega), ← add_mul] at sum
      have exponent : min e e' = -((-min e e').toNat : Int) := by omega
      rw [isWhole_iff_value]
      refine value_of_pack_normalize short (-min e e').toNat ?_
      rw [← exponent]
      exact sum

theorem IsWhole.sub (short : (a - b).natAbs < 2 ^ 53) : IsWhole (x - y) (a - b) := by
  rw [sub_eq_add_neg, Int.sub_eq_add_neg]
  exact here.add there.neg small short

end Arithmetic

/-! Comparing with a real that is a whole number is comparing with that number. -/

theorem compare_infinity {u : UnpackedFloat} {v : ℚ} (value : valueOf u = some v) (s : Sign) :
    (UnpackedFloat.infinity s).compare u = some (if isNegative s then .lt else .gt) ∧
      u.compare (.infinity s) = some (if isNegative s then .gt else .lt) := by
  rcases u with s' | _ | s' | ⟨s', m, e, positive⟩
  · cases value
  · cases value
  · cases s <;> exact ⟨rfl, rfl⟩
  · cases s <;> cases s' <;> exact ⟨rfl, rfl⟩

theorem order_of_isWhole {x : Float} {n : Int} (whole : IsWhole x n) (y : Float) :
    (y < x ↔ compareWhole n y = some .gt) ∧ (x < y ↔ compareWhole n y = some .lt) := by
  have value := (isWhole_iff_value x n).mp whole
  cases other : (Decimal.parts y).value with
  | some v =>
      rw [compareWhole_eq_gt other, compareWhole_eq_lt other]
      exact ⟨lt_iff_value other value, lt_iff_value value other⟩
  | none =>
      rw [value_parts] at value other
      rw [lt_iff_compare, lt_iff_compare, compareWhole, parts_eq]
      cases second : y.toModel.unpack with
      | zero s => simp [second, valueOf] at other
      | finite s m e positive => simp [second, valueOf] at other
      | notANumber =>
          cases first : x.toModel.unpack with
          | infinity s => simp [first, valueOf] at value
          | _ => refine ⟨⟨?_, ?_⟩, ⟨?_, ?_⟩⟩ <;> intro impossible <;> cases impossible
      | infinity s =>
          obtain ⟨below, above⟩ := compare_infinity value s
          rw [below, above]
          cases s <;> simp [partsUnpacked, isNegative]

section Order

variable {x : Float} {n : Int} (whole : IsWhole x n) (t : Number)

include whole

theorem lt_real : t.lt (.real x) = t.lt (.whole n) := by
  have value := (isWhole_iff_value x n).mp whole
  rw [Bool.eq_iff_iff]
  cases t with
  | whole a =>
      show (compareWhole a x == some .lt) = true ↔ decide (a < n) = true
      rw [beq_iff_eq, compareWhole_eq_lt value, decide_eq_true_iff, Int.cast_lt]
  | real y =>
      show decide (y < x) = true ↔ (compareWhole n y == some .gt) = true
      rw [beq_iff_eq, decide_eq_true_iff, (order_of_isWhole whole y).1]

theorem real_lt : (Number.real x).lt t = (Number.whole n).lt t := by
  have value := (isWhole_iff_value x n).mp whole
  rw [Bool.eq_iff_iff]
  cases t with
  | whole a =>
      show (compareWhole a x == some .gt) = true ↔ decide (n < a) = true
      rw [beq_iff_eq, compareWhole_eq_gt value, decide_eq_true_iff, Int.cast_lt]
  | real y =>
      show decide (x < y) = true ↔ (compareWhole n y == some .lt) = true
      rw [beq_iff_eq, decide_eq_true_iff, (order_of_isWhole whole y).2]

end Order

theorem compareWhole_neg (n : Int) (x : Float) :
    compareWhole n (-x) = (compareWhole (-n) x).map Ordering.swap := by
  rw [compareWhole, compareWhole, parts_neg]
  cases Decimal.parts x with
  | nan => rfl
  | infinite negative => cases negative <;> rfl
  | finite negative mantissa exponent =>
      let m : Int := if negative then -(mantissa : Int) else mantissa
      have turned : (if !negative then -(mantissa : Int) else mantissa) = -m := by
        cases negative <;> simp [m]
      show some (compare (n * _) ((if !negative then -(mantissa : Int) else mantissa) * _)) =
        some (compare (-n * _) (m * _)).swap
      have mirrored (p q : Int) : compare p (-q) = (compare (-p) q).swap := by
        rcases lt_trichotomy p (-q) with below | rfl | above
        · rw [Int.compare_eq_lt.mpr below, Int.compare_eq_gt.mpr (by omega)]
          rfl
        · rw [Int.neg_neg, Int.compare_eq_eq.mpr rfl, Int.compare_eq_eq.mpr rfl]
          rfl
        · rw [Int.compare_eq_gt.mpr above, Int.compare_eq_lt.mpr (by omega)]
          rfl
      rw [turned, Int.neg_mul, Int.neg_mul, mirrored]

theorem whole_lt_neg (n : Int) (t : Number) : (Number.whole n).lt t.neg = t.lt (.whole (-n)) := by
  cases t with
  | whole a =>
      show decide (n < -a) = decide (a < -n)
      congr 1
      exact propext ⟨fun _ => by omega, fun _ => by omega⟩
  | real x =>
      show (compareWhole n (-x) == some .lt) = (compareWhole (-n) x == some .gt)
      rw [compareWhole_neg]
      cases compareWhole (-n) x with
      | none => rfl
      | some order => cases order <;> rfl

/-! Whole numbers that a mantissa holds are read exactly. -/

theorem IsWhole.mul_one {x : Float} {n : Int} (whole : IsWhole x n) : IsWhole (x * 1.0) n := by
  have one : (1.0 : Float).toModel.unpack = .finite .positive (2 ^ 52) (-52) (by decide) := by
    rfl
  have product : (x * 1.0).toModel =
      .pack (x.toModel.unpack.mul .binary64 (1.0 : Float).toModel.unpack) := rfl
  rw [one] at product
  rcases whole.unpacked with ⟨s, unpacked, rfl⟩ | ⟨s, m, e, positive, unpacked, canonical, value⟩
  · rw [unpacked] at product
    exact isWhole_zero product
  · have long := long_of_whole positive canonical value
    have rounded :=
      roundWithAccuracy_scaled (s * .positive) long canonical.short canonical.least 52
    have sign : s * .positive = s := by cases s <;> rfl
    refine whole.repacked ?_
    rw [unpacked] at product ⊢
    change (x * 1.0).toModel = .pack (roundWithAccuracy .binary64 (s * .positive) (m * 2 ^ 52)
      (e - (52 : Nat)) .exact) at product
    rw [product, rounded]
    simp only [sign]

theorem isWhole_ofInt {n : Int} (short : n.natAbs < 2 ^ 53) : IsWhole (Float.ofInt n) n := by
  have ofNat {m : Nat} (short : m < 2 ^ 53) : IsWhole (Float.ofNat m) m := by
    have model : (m.toUInt64.toFloat).toModel =
        .pack (normalize .binary64 (m * 2 ^ 0) (-(0 : Nat)) .positive) := by
      have word : m.toUInt64.toNat = m := Nat.mod_eq_of_lt (show m < 2 ^ 64 by omega)
      show Float.Model.pack (normalize .binary64 (m.toUInt64.toNat : Int) 0 .positive) = _
      rw [word]
      simp
    have whole := (isWhole_iff_value _ _).mpr (value_of_pack_normalize (by omega) 0 model)
    have same : Float.ofNat m = m.toUInt64.toFloat * 1.0 := by
      show Float.ofScientific m false 0 = _
      rw [Float.ofScientific, dif_pos ⟨short, by decide⟩]
      rfl
    rw [same]
    exact whole.mul_one
  cases n with
  | ofNat m => exact ofNat short
  | negSucc m => exact (ofNat (by omega)).neg

end Number

end InputChords
