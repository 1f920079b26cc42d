import InputChords.Decimal.Shortest

/-! Reals written with a given number of digits. -/

namespace InputChords.Decimal

def nearest (num den : Nat) : Nat :=
  let below := num / den
  let rest := num % den
  if 2 * rest < den then below
  else if den < 2 * rest then below + 1
  else below + below % 2

def digitsOf (count n : Nat) : List Char :=
  let ds := Nat.toDigits 10 n
  List.replicate (count - ds.length) '0' ++ ds

def pointed (keep : Bool) (whole places : List Char) : List Char :=
  whole ++ (if places.isEmpty && !keep then [] else '.' :: places)

def leading (num den : Nat) : Int :=
  if den ≤ num then ((Nat.toDigits 10 (num / den)).length : Int) - 1
  else
    match (List.range 330).find? fun (k : Nat) => den ≤ num * Nat.pow 10 k with
    | some k => -(k : Int)
    | none => 0

def significant (num den count : Nat) : Nat × Int :=
  if num = 0 then (0, 0)
  else
    let top := leading num den
    let scale := top + 1 - count
    let n := nearest (num * Nat.pow 10 (-scale).toNat) (den * Nat.pow 10 scale.toNat)
    if n = Nat.pow 10 count then (n / 10, top + 1) else (n, top)

def withExponent (mark : Char) (mantissa : List Char) (exponent : Int) : List Char :=
  mantissa ++ mark :: (if exponent < 0 then '-' else '+') :: digitsOf 2 exponent.natAbs

def trimmed (ds : List Char) : List Char := (ds.reverse.dropWhile (· = '0')).reverse

def fixed (keep : Bool) (places num den : Nat) : List Char :=
  let ds := digitsOf (places + 1) (nearest (num * Nat.pow 10 places) den)
  pointed keep (ds.take (ds.length - places)) (ds.drop (ds.length - places))

def scientific (keep : Bool) (places num den : Nat) : List Char :=
  let (n, exponent) := significant num den (places + 1)
  let ds := digitsOf (places + 1) n
  withExponent 'e' (pointed keep (ds.take 1) (ds.drop 1)) exponent

def general (keep : Bool) (count num den : Nat) : List Char :=
  let count := max count 1
  let (n, exponent) := significant num den count
  let ds := digitsOf count n
  let shown (places : List Char) := if keep then places else trimmed places
  if exponent < -4 || (count : Int) ≤ exponent then
    withExponent 'e' (pointed keep (ds.take 1) (shown (ds.drop 1))) exponent
  else if exponent < 0 then
    pointed keep ['0'] (shown (List.replicate ((-exponent).toNat - 1) '0' ++ ds))
  else
    pointed keep (ds.take (exponent.toNat + 1)) (shown (ds.drop (exponent.toNat + 1)))

end InputChords.Decimal
