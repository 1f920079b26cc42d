import InputChords.Proofs.SignBit

/-! The sign of a number, which negation turns and the order respects. A threshold that is not
negative keeps the two sides of zero apart. -/

namespace InputChords

namespace Decimal.Parts

def neg : Parts → Parts
  | .nan => .nan
  | .infinite negative => .infinite !negative
  | .finite negative mantissa exponent => .finite (!negative) mantissa exponent

def sign : Parts → Option Int
  | .nan => none
  | .infinite negative => some (if negative then -1 else 1)
  | .finite negative mantissa _ =>
    some (if negative then -(mantissa : Int).sign else (mantissa : Int).sign)

theorem sign_neg (p : Parts) : p.neg.sign = p.sign.map (- ·) := by
  cases p with
  | nan => rfl
  | infinite negative => cases negative <;> rfl
  | finite negative mantissa exponent => cases negative <;> simp [neg, sign]

end Decimal.Parts

namespace SignBit

open Float.Model Float.Model.UnpackedFloat

def isNegative : Sign → Bool
  | .negative => true
  | .positive => false

theorem isNegative_neg (s : Sign) : isNegative (-s) = !isNegative s := by cases s <;> rfl

theorem toNat_bits (s : Sign) (e : Exponent) (m : Mantissa) :
    (bits s e m).toNat = (if isNegative s then 2 ^ 63 else 0) + e.toNat * 2 ^ 52 + m.toNat := by
  have small : m.toNat < 2 ^ 52 := m.isLt
  have top : e.toNat < 2 ^ 11 := e.isLt
  rw [bits, packComponents, BitVec.toNat_append, BitVec.toNat_append,
    ← Nat.shiftLeft_add_eq_or_of_lt small, ← Nat.shiftLeft_add_eq_or_of_lt top]
  cases s with
  | positive => simp [Sign.toBitVec, isNegative, Nat.shiftLeft_eq]
  | negative =>
      simp [Sign.toBitVec, isNegative, Nat.shiftLeft_eq]
      omega

def partsOf (s : Sign) (e : Exponent) (m : Mantissa) : Decimal.Parts :=
  if e.toNat = 2047 then if m.toNat = 0 then .infinite (isNegative s) else .nan
  else if e.toNat = 0 then .finite (isNegative s) m.toNat (-1074)
  else .finite (isNegative s) (2 ^ 52 + m.toNat) (e.toNat - 1075)

theorem parts_bits (x : Float) (s : Sign) (e : Exponent) (m : Mantissa)
    (word : x.toModel.toBits.toBitVec = bits s e m) : Decimal.parts x = partsOf s e m := by
  have small : m.toNat < 2 ^ 52 := m.isLt
  have top : e.toNat < 2 ^ 11 := e.isLt
  have nat : x.toBits.toNat = _ := (congrArg BitVec.toNat word).trans (toNat_bits s e m)
  have biased : x.toBits.toNat / Nat.pow 2 52 % Nat.pow 2 11 = e.toNat := by
    rw [nat]
    cases s <;> simp [isNegative] <;> omega
  have fraction : x.toBits.toNat % Nat.pow 2 52 = m.toNat := by
    rw [nat]
    cases s <;> simp [isNegative] <;> omega
  have negative : decide (Nat.pow 2 63 ≤ x.toBits.toNat) = isNegative s := by
    rw [nat]
    cases s <;> simp [isNegative] <;> omega
  simp only [Decimal.parts, biased, fraction, negative]
  rfl

def partsUnpacked : UnpackedFloat → Decimal.Parts
  | .notANumber => .nan
  | .infinity s => .infinite (isNegative s)
  | .zero s => .finite (isNegative s) 0 (-1074)
  | .finite s mantissa exponent _ => .finite (isNegative s) mantissa exponent

theorem partsUnpacked_bits (s : Sign) (e : Exponent) (m : Mantissa) :
    partsUnpacked (UnpackedFloat.unpack .binary64 (bits s e m)) = partsOf s e m := by
  have sign := unpackSign_bits s e m
  have exponent : unpackExponent (bits s e m) = e := unpackExponent_packComponents ..
  have mantissa : unpackMantissa (bits s e m) = m := unpackMantissa_packComponents ..
  have all : e = -1#_ ↔ e.toNat = 2047 := BitVec.toNat_inj.symm
  have none : e = 0#_ ↔ e.toNat = 0 := BitVec.toNat_inj.symm
  have empty : m = 0#_ ↔ m.toNat = 0 := BitVec.toNat_inj.symm
  have leading : (1#1 ++ m).toNat = 2 ^ 52 + m.toNat := by
    rw [BitVec.toNat_append, ← Nat.shiftLeft_add_eq_or_of_lt m.isLt]
    simp [Nat.shiftLeft_eq]
  rw [UnpackedFloat.unpack, partsOf]
  simp only [sign, exponent, mantissa, all, none]
  by_cases top : e.toNat = 2047
  · simp only [if_pos top, empty]
    split <;> rfl
  · rw [if_neg top, if_neg top]
    by_cases bottom : e.toNat = 0
    · rw [if_pos bottom, if_pos bottom]
      by_cases zero : m = 0#_
      · rw [dif_pos zero, empty.mp zero]
        rfl
      · rw [dif_neg zero, bottom]
        rfl
    · rw [if_neg bottom, if_neg bottom, partsUnpacked, leading]
      rfl

theorem parts_eq (x : Float) : Decimal.parts x = partsUnpacked x.toModel.unpack := by
  obtain ⟨s, e, m, word⟩ := exists_bits x.toModel.toBits.toBitVec
  rw [parts_bits x s e m word, Float.Model.unpack, word, partsUnpacked_bits]

theorem partsOf_neg (s : Sign) (e : Exponent) (m : Mantissa) :
    partsOf (-s) e m = (partsOf s e m).neg := by
  simp only [partsOf, isNegative_neg]
  split
  · split <;> rfl
  · split <;> rfl

theorem parts_neg (x : Float) : Decimal.parts (-x) = (Decimal.parts x).neg := by
  obtain ⟨s, e, m, word⟩ := exists_bits x.toModel.toBits.toBitVec
  by_cases number : e = -1#_ → m = 0#_
  · have turned : (-x).toModel.toBits.toBitVec = bits (-s) e m := by
      show UnpackedFloat.pack .binary64
        (UnpackedFloat.unpack .binary64 x.toModel.toBits.toBitVec).neg = _
      rw [word, pack_neg_unpack s e m number]
    rw [parts_bits (-x) (-s) e m turned, parts_bits x s e m word, partsOf_neg]
  · obtain ⟨top, filled⟩ := Classical.not_imp.mp number
    -- What is not a number has one representation, and negation leaves it.
    have nan : x.toModel.toBits.toBitVec = packedNaN .binary64 := by
      apply x.toModel.valid.eq_packedNaN
      · rw [word]
        exact (unpackExponent_packComponents ..).trans top
      · rw [word]
        intro zero
        exact filled ((unpackMantissa_packComponents ..).symm.trans zero)
    have turned : (-x).toModel.toBits.toBitVec = packedNaN .binary64 := by
      show UnpackedFloat.pack .binary64
        (UnpackedFloat.unpack .binary64 x.toModel.toBits.toBitVec).neg = _
      rw [nan]
      rfl
    rw [parts_bits x .positive (-1#_) (1#_ <<< 51) nan,
      parts_bits (-x) .positive (-1#_) (1#_ <<< 51) turned]
    rfl

def signOf : UnpackedFloat → Option Int
  | .notANumber => none
  | .zero _ => some 0
  | .infinity s | .finite s _ _ _ => some (if isNegative s then -1 else 1)

theorem sign_partsUnpacked (u : UnpackedFloat) : (partsUnpacked u).sign = signOf u := by
  cases u with
  | notANumber => rfl
  | infinity s => rfl
  | zero s => cases s <;> rfl
  | finite s mantissa exponent positive =>
      have one : (mantissa : Int).sign = 1 := Int.sign_eq_one_of_pos (by omega)
      simp only [partsUnpacked, Decimal.Parts.sign, one, signOf]

theorem sign_of_compare (a b : UnpackedFloat) (less : a.compare b = some .lt) :
    ∃ x y, signOf a = some x ∧ signOf b = some y ∧ x ≤ y ∧ (x = y → x ≠ 0) := by
  -- Where the signs are the other way round, so is the order, whatever the mantissas are.
  rcases a with s | _ | s | ⟨s, m, e, positive⟩
  all_goals rcases b with s' | _ | s' | ⟨s', m', e', positive'⟩
  all_goals try cases s
  all_goals try cases s'
  all_goals first
    | exact ⟨_, _, rfl, rfl, by decide⟩
    | cases less

theorem compare_swap (u v : UnpackedFloat) :
    v.compare u = (u.compare v).map Ordering.swap := by
  have order (e e' : Int) (m m' : Nat) : (compare e' e).then (compare m' m) =
      ((compare e e').then (compare m m')).swap := by
    rw [Ordering.swap_then, ← Std.OrientedCmp.eq_swap, ← Std.OrientedCmp.eq_swap]
  rcases u with s | _ | s | ⟨s, m, e, positive⟩
  all_goals rcases v with s' | _ | s' | ⟨s', m', e', positive'⟩
  all_goals try cases s
  all_goals try cases s'
  all_goals first
    | rfl
    | exact congrArg some (order e e' m m')
    | exact congrArg some (congrArg Ordering.swap (order e e' m m'))

theorem sign_parts (x : Float) : (Decimal.parts x).sign = signOf x.toModel.unpack := by
  rw [parts_eq, sign_partsUnpacked]

end SignBit

namespace Decimal.Parts

theorem sign_finite (negative : Bool) (mantissa : Nat) (exponent : Int) :
    (finite negative mantissa exponent).sign =
      some (if negative then -(mantissa : Int) else mantissa).sign := by
  cases negative <;> simp [sign]

end Decimal.Parts

namespace Number

def sign : Number → Option Int
  | .whole n => some n.sign
  | .real x => (Decimal.parts x).sign

theorem sign_neg (n : Number) : n.neg.sign = n.sign.map (- ·) := by
  cases n with
  | whole n => simp [neg, sign]
  | real x =>
      rw [neg, sign, sign, SignBit.parts_neg]
      exact Decimal.Parts.sign_neg _

theorem sign_of_whole_lt {p q : Int} (less : p < q) :
    p.sign ≤ q.sign ∧ (p.sign = q.sign → p.sign ≠ 0) := by
  rcases Int.lt_trichotomy p 0 with below | zero | above
  · have sign := Int.sign_eq_neg_one_of_neg below
    rcases Int.sign_trichotomy q with other | other | other <;> omega
  · have sign := Int.sign_eq_one_of_pos (show 0 < q by omega)
    subst zero
    rw [sign]
    decide
  · have sign := Int.sign_eq_one_of_pos above
    have other := Int.sign_eq_one_of_pos (show 0 < q by omega)
    omega

theorem sign_scaled (p : Int) (k : Nat) : (p * Int.pow 2 k).sign = p.sign := by
  have positive : (Int.pow 2 k).sign = 1 := Int.sign_eq_one_of_pos (Int.pow_pos (by decide))
  rw [Int.sign_mul, positive, Int.mul_one]

theorem sign_of_scaled_lt {p q : Int} {k l : Nat} (less : p * Int.pow 2 k < q * Int.pow 2 l) :
    p.sign ≤ q.sign ∧ (p.sign = q.sign → p.sign ≠ 0) := by
  have order := sign_of_whole_lt less
  rwa [sign_scaled, sign_scaled] at order

theorem sign_of_compareWhole (n : Int) (x : Float) (order : Ordering)
    (compared : compareWhole n x = some order) :
    ∃ y, (Decimal.parts x).sign = some y ∧
      (order = .lt → n.sign ≤ y ∧ (n.sign = y → n.sign ≠ 0)) ∧
      (order = .gt → y ≤ n.sign ∧ (y = n.sign → y ≠ 0)) := by
  rw [compareWhole] at compared
  cases parts : Decimal.parts x with
  | nan =>
      rw [parts] at compared
      cases compared
  | infinite negative =>
      rw [parts] at compared
      cases compared
      have sign := Int.sign_trichotomy n
      cases negative with
      | true =>
          refine ⟨-1, rfl, by simp, fun _ => ?_⟩
          omega
      | false =>
          refine ⟨1, rfl, fun _ => ?_, by simp⟩
          omega
  | finite negative mantissa exponent =>
      rw [parts] at compared
      cases compared
      refine ⟨_, Decimal.Parts.sign_finite .., ?_, ?_⟩
      · intro less
        exact sign_of_scaled_lt (Int.compare_eq_lt.mp less)
      · intro greater
        exact sign_of_scaled_lt (Int.compare_eq_gt.mp greater)

theorem compare_of_lt {x y : Float} (less : x < y) :
    x.toModel.unpack.compare y.toModel.unpack = some .lt := by
  have model : (x.toModel.unpack.compare y.toModel.unpack == some .lt) = true :=
    of_decide_eq_true less
  exact eq_of_beq model

theorem sign_of_lt {a b : Number} (less : a.lt b = true) :
    ∃ x y, a.sign = some x ∧ b.sign = some y ∧ x ≤ y ∧ (x = y → x ≠ 0) := by
  cases a with
  | whole n =>
      cases b with
      | whole m => exact ⟨_, _, rfl, rfl, sign_of_whole_lt (of_decide_eq_true less)⟩
      | real y =>
          obtain ⟨sign, eq, below, _⟩ := sign_of_compareWhole n y .lt (eq_of_beq less)
          exact ⟨_, sign, rfl, eq, below rfl⟩
  | real x =>
      cases b with
      | whole m =>
          obtain ⟨sign, eq, _, above⟩ := sign_of_compareWhole m x .gt (eq_of_beq less)
          exact ⟨sign, _, eq, rfl, above rfl⟩
      | real y =>
          have order := SignBit.sign_of_compare _ _ (compare_of_lt (of_decide_eq_true less))
          rwa [← SignBit.sign_parts, ← SignBit.sign_parts] at order

theorem not_lt_of_le {a b : Number} (atMost : a.le b = true) : b.lt a = false := by
  rw [le, Bool.or_eq_true] at atMost
  rw [Bool.eq_false_iff]
  intro above
  cases a with
  | whole n =>
      cases b with
      | whole m =>
          simp only [lt, eq, decide_eq_true_eq, beq_iff_eq] at atMost above
          omega
      | real y =>
          simp only [lt, eq, beq_iff_eq] at atMost above
          rw [above] at atMost
          simp at atMost
  | real x =>
      cases b with
      | whole m =>
          simp only [lt, eq, beq_iff_eq] at atMost above
          rw [above] at atMost
          simp at atMost
      | real y =>
          have swapped := SignBit.compare_swap y.toModel.unpack x.toModel.unpack
          rw [compare_of_lt (of_decide_eq_true above)] at swapped
          rcases atMost with below | same
          · rw [compare_of_lt (of_decide_eq_true below)] at swapped
            cases swapped
          · have equal : x.toModel.unpack.compare y.toModel.unpack = some .eq := eq_of_beq same
            rw [equal] at swapped
            cases swapped

theorem lt_zero_of_sign (n : Number) (negative : n.sign = some (-1)) : n.lt .zero = true := by
  cases n with
  | whole n =>
      have below : n < 0 := Int.sign_eq_neg_one_iff_neg.mp (Option.some.inj negative)
      exact decide_eq_true below
  | real x =>
      rw [sign] at negative
      show (compareWhole 0 x == some .gt) = true
      rw [compareWhole]
      cases parts : Decimal.parts x with
      | nan =>
          rw [parts] at negative
          cases negative
      | infinite under =>
          rw [parts] at negative
          cases under with
          | true => rfl
          | false => cases negative
      | finite under mantissa exponent =>
          rw [parts, Decimal.Parts.sign_finite, ← sign_scaled _ exponent.toNat] at negative
          have below := Int.sign_eq_neg_one_iff_neg.mp (Option.some.inj negative)
          show (some (compare (0 * Int.pow 2 (-exponent).toNat)
            ((if under then -(mantissa : Int) else mantissa) * Int.pow 2 exponent.toNat)) ==
              some .gt) = true
          rw [Int.zero_mul, Int.compare_eq_gt.mpr below]
          rfl

theorem sign_of_eq_zero {x : Float} (zero : (Number.real x).eq .zero = true) :
    (Number.real x).sign = some 0 := by
  have compared : compareWhole 0 x = some .eq := eq_of_beq zero
  rw [compareWhole] at compared
  rw [sign]
  cases parts : Decimal.parts x with
  | nan =>
      rw [parts] at compared
      cases compared
  | infinite negative =>
      rw [parts] at compared
      cases negative <;> cases compared
  | finite negative mantissa exponent =>
      rw [parts] at compared
      have same := Int.compare_eq_eq.mp (Option.some.inj compared)
      rw [Decimal.Parts.sign_finite, ← sign_scaled _ exponent.toNat, ← same, Int.zero_mul]
      rfl

theorem not_lt_zero_of_sign {n : Number} {x : Int} (eq : n.sign = some x) (atLeast : 0 ≤ x) :
    n.lt .zero = false := by
  rw [Bool.eq_false_iff]
  intro below
  obtain ⟨y, z, here, zero, order⟩ := sign_of_lt below
  rw [eq] at here
  cases here
  cases zero
  have none : (0 : Int).sign = 0 := rfl
  omega

theorem zero_not_negative : zero.lt zero = false := rfl

theorem sign_range (n : Number) (x : Int) (eq : n.sign = some x) : -1 ≤ x ∧ x ≤ 1 := by
  have range (m : Int) : -1 ≤ m.sign ∧ m.sign ≤ 1 := by
    rcases Int.sign_trichotomy m with sign | sign | sign <;> omega
  cases n with
  | whole n =>
      cases eq
      exact range n
  | real y =>
      rw [sign] at eq
      cases parts : Decimal.parts y with
      | nan =>
          rw [parts] at eq
          cases eq
      | infinite negative =>
          rw [parts] at eq
          cases eq
          cases negative <;> decide
      | finite negative mantissa exponent =>
          rw [parts, Decimal.Parts.sign_finite] at eq
          cases eq
          exact range _

section Threshold

variable {t d : Number} (notNegative : t.lt .zero = false)

include notNegative

theorem threshold_sign (x : Int) (eq : t.sign = some x) : 0 ≤ x := by
  obtain ⟨atLeast, _⟩ := t.sign_range x eq
  have other : x ≠ -1 := by
    rintro rfl
    rw [t.lt_zero_of_sign eq] at notNegative
    cases notNegative
  omega

theorem sign_of_beyond (beyond : t.lt d = true) : d.sign = some 1 := by
  obtain ⟨x, y, here, there, order⟩ := sign_of_lt beyond
  have positive := threshold_sign notNegative x here
  have range := d.sign_range y there
  rw [there]
  congr 1
  omega

theorem sign_of_beyond_neg (beyond : d.lt t.neg = true) : d.sign = some (-1) := by
  obtain ⟨y, x, there, here, order⟩ := sign_of_lt beyond
  rw [sign_neg] at here
  obtain ⟨z, eq, turned⟩ := Option.map_eq_some_iff.mp here
  have positive := threshold_sign notNegative z eq
  have range := d.sign_range y there
  rw [there]
  congr 1
  omega

theorem not_beyond_both (below : d.lt t.neg = true) : ¬ t.lt d = true := by
  intro above
  have negative := sign_of_beyond_neg notNegative below
  rw [sign_of_beyond notNegative above] at negative
  cases negative

end Threshold

end Number

end InputChords
