/-! Binary floating-point numbers taken apart, and the shortest decimals that read back as them. -/

namespace InputChords.Decimal

/-- What the bits of a number mean: a finite one is `mantissa · 2 ^ exponent`, up to its sign. -/
inductive Parts where
  | nan
  | infinite (negative : Bool)
  | finite (negative : Bool) (mantissa : Nat) (exponent : Int)
  deriving DecidableEq, Repr

def parts (x : Float) : Parts :=
  let bits := x.toBits.toNat
  let negative := Nat.pow 2 63 ≤ bits
  let biased : Nat := bits / Nat.pow 2 52 % Nat.pow 2 11
  let fraction := bits % Nat.pow 2 52
  if biased = 2047 then (if fraction = 0 then .infinite negative else .nan)
  else if biased = 0 then .finite negative fraction (-1074)
  else .finite negative (Nat.pow 2 52 + fraction) ((biased : Int) - 1075)

/-- A positive number's reals that round to it, in quarters of the last place: twice the distance
to the neighbours on both sides, half of that below a power of two. -/
structure Rounding where
  low : Nat
  value : Nat
  high : Nat
  /-- the ends round to the number -/
  closed : Bool
  exponent : Int

def rounding (mantissa : Nat) (exponent : Int) : Rounding :=
  let narrow := mantissa = Nat.pow 2 52 && exponent != -1074
  ⟨4 * mantissa - (if narrow then 1 else 2), 4 * mantissa, 4 * mantissa + 2,
    mantissa % 2 == 0, exponent - 2⟩

def compareDecimal (a : Nat) (p : Int) (b : Nat) (q : Int) : Ordering :=
  compare (a * Nat.pow 10 p.toNat * Nat.pow 2 (-q).toNat)
    (b * Nat.pow 2 q.toNat * Nat.pow 10 (-p).toNat)

def Rounding.holds (r : Rounding) (digits : Nat) (scale : Int) : Bool :=
  let below := compareDecimal digits scale r.low r.exponent
  let above := compareDecimal digits scale r.high r.exponent
  (below == .gt || (r.closed && below == .eq)) && (above == .lt || (r.closed && above == .eq))

def Rounding.magnitude (r : Rounding) : Int :=
  let reached (e : Int) := compareDecimal 1 e r.value r.exponent != .gt
  match (List.range 640).find? fun (i : Nat) => reached (309 - (i : Int)) with
  | some i => 309 - (i : Int)
  | none => -331

def Rounding.floorAt (r : Rounding) (scale : Int) : Nat :=
  (r.value * Nat.pow 2 r.exponent.toNat * Nat.pow 10 (-scale).toNat) /
    (Nat.pow 10 scale.toNat * Nat.pow 2 (-r.exponent).toNat)

/-- Of the two multiples around the value the one that rounds to it, the nearer if both do; a tie
goes to the even one. -/
def Rounding.candidateAt (r : Rounding) (scale : Int) : Option Nat :=
  let down := r.floorAt scale
  match r.holds down scale, r.holds (down + 1) scale with
  | true, true =>
    match compareDecimal (2 * down + 1) scale (2 * r.value) r.exponent with
    | .gt => some down
    | .lt => some (down + 1)
    | .eq => some (if down % 2 = 0 then down else down + 1)
  | true, false => some down
  | false, true => some (down + 1)
  | false, false => none

def shortest (mantissa : Nat) (exponent : Int) : Nat × Int :=
  let r := rounding mantissa exponent
  let top := r.magnitude
  match (List.range 17).findSome? fun (i : Nat) =>
      (r.candidateAt (top - (i : Int))).map fun ds => (ds, top - (i : Int)) with
  | some found => found
  | none => (r.floorAt (top - 16), top - 16)

/-- Decimals from `10 ^ -4` up to `10 ^ 16` are written in full, others with an exponent of at
least two digits. -/
def positional (digits : Nat) (scale : Int) : String :=
  let ds := Nat.toDigits 10 digits
  let point := scale + ds.length
  if -4 < point && point ≤ 16 then
    if point ≤ 0 then "0." ++ String.ofList (List.replicate (-point).toNat '0' ++ ds)
    else if scale < 0 then
      String.ofList (ds.take point.toNat) ++ "." ++ String.ofList (ds.drop point.toNat)
    else String.ofList (ds ++ List.replicate scale.toNat '0') ++ ".0"
  else
    let e := point - 1
    let size := toString e.natAbs
    String.ofList (ds.take 1) ++ (if ds.length = 1 then "" else "." ++ String.ofList (ds.drop 1))
      ++ (if e < 0 then "e-" else "e+") ++ (if size.length < 2 then "0" ++ size else size)

def trimZeros : Nat → Nat → Int → Nat × Int
  | 0, digits, scale => (digits, scale)
  | fuel + 1, digits, scale =>
    if digits != 0 && digits % 10 = 0 then trimZeros fuel (digits / 10) (scale + 1)
    else (digits, scale)

def realText (x : Float) : String :=
  match parts x with
  | .nan => "nan"
  | .infinite negative => if negative then "-inf" else "inf"
  | .finite negative mantissa exponent =>
    let sign := if negative then "-" else ""
    if mantissa = 0 then sign ++ "0.0"
    else
      let (ds, scale) := shortest mantissa exponent
      let (ds, scale) := trimZeros 17 ds scale
      sign ++ positional ds scale

end InputChords.Decimal
