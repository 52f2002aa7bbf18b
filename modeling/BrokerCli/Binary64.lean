import BrokerCli.Text.Digits

/-!
# Binary numbers of double precision

A number of a configuration that is not a whole number, or too large for one, is held as a binary
number with 53 bits of significand. Everything here is exact arithmetic on whole numbers:

* `Binary64.roundRatio` -- the binary number NEAREST to a fraction, a tie going to the even
  significand; none beyond the largest one;
* `Binary64.ofDecimal?` -- the number that a decimal significand and exponent are read as: the
  significand is rounded, then multiplied or divided by a rounded power of ten;
* `Binary64.shortest` -- the FEWEST decimal digits that read back as the number, the nearest such
  digits if there are two.
-/

namespace BrokerCli

/-- The number `± significand · 2 ^ exponent`. -/
structure Binary64 where
  negative : Bool
  significand : Nat
  exponent : Int
deriving DecidableEq, Repr, Inhabited

namespace Binary64

/-- The exponent of the smallest numbers. -/
def leastExponent : Int := -1074

/-- The exponent of the largest numbers. -/
def greatestExponent : Int := 971

/-- The least significand with all 53 bits; smaller ones occur at the least exponent only. -/
def fullSignificand : Nat := 0x10000000000000

/-- The fraction `num / den` times `base ^ e`, as a fraction. -/
def scaled (num den base : Nat) (e : Int) : Nat × Nat :=
  if 0 ≤ e then (num * base.pow e.toNat, den) else (num, den * base.pow (-e).toNat)

/-! ## 1. Rounding -/

/-- The largest `e` with `2 ^ e ≤ num / den`, for positive `num` and `den`. -/
def floorLog2 (num den : Nat) : Int :=
  let e : Int := (num.log2 : Int) - den.log2
  let (n, d) := scaled num den 2 (-e)
  if d ≤ n then e else e - 1

/-- The quotient rounded to the nearest number, a tie to the even one. -/
def roundQuotient (num den : Nat) : Nat :=
  let q := num / den
  let twice := 2 * (num % den)
  if twice < den then q else if den < twice then q + 1 else q + q % 2

/-- The binary number nearest to the fraction `num / den`, if it is not too large for one. -/
def roundRatio (num den : Nat) : Option Binary64 :=
  if num = 0 then some ⟨false, 0, leastExponent⟩
  else
    let e := max (floorLog2 num den - 52) leastExponent
    let (n, d) := scaled num den 2 (-e)
    let m := roundQuotient n d
    let (m, e) := if m = 2 * fullSignificand then (fullSignificand, e + 1) else (m, e)
    if greatestExponent < e then none else some ⟨false, m, e⟩

/-- The magnitude of a number as a fraction. -/
def ratio (x : Binary64) : Nat × Nat := scaled x.significand 1 2 x.exponent

/-- The product of two magnitudes, rounded. -/
def mul? (x y : Binary64) : Option Binary64 :=
  roundRatio (x.ratio.1 * y.ratio.1) (x.ratio.2 * y.ratio.2)

/-- The quotient of two magnitudes, rounded. -/
def div? (x y : Binary64) : Option Binary64 :=
  roundRatio (x.ratio.1 * y.ratio.2) (x.ratio.2 * y.ratio.1)

/-- A power of ten, rounded. -/
def powerOfTen? (n : Nat) : Option Binary64 := roundRatio (Nat.pow 10 n) 1

/-! ## 2. Reading a decimal -/

/-- The largest power of ten that is a binary number has this exponent. -/
def greatestPower : Nat := 308

/-- The magnitude divided by `10 ^ e`. A power beyond the largest one is taken in steps; after three
    of them every magnitude has become zero. -/
def shrink : Nat → Nat → Binary64 → Option Binary64
  | 0, _, x => some x
  | steps + 1, e, x =>
    if e ≤ greatestPower then (powerOfTen? e).bind x.div?
    else if x.significand = 0 then some x
    else ((powerOfTen? greatestPower).bind x.div?).bind (shrink steps (e - greatestPower))

/-- The magnitude that `significand · 10 ^ e` is read as, if it is not too large. -/
def ofDecimal? (significand : Nat) (e : Int) : Option Binary64 :=
  (roundRatio significand 1).bind fun x =>
    if 0 ≤ e then
      if x.significand = 0 then some x
      else if greatestPower < e.toNat then none
      else (powerOfTen? e.toNat).bind x.mul?
    else shrink 4 (-e).toNat x

/-! ## 3. The shortest decimal -/

/-- The number of the decimal digits of `n`. -/
def digitCount (n : Nat) : Nat := (Text.digitsOf n).length

/-- The largest `e` with `10 ^ e ≤ num / den`, for positive `num` and `den`. -/
def floorLog10 (num den : Nat) : Int :=
  if den ≤ num then (digitCount (num / den) : Int) - 1
  else
    let n := digitCount (den / num)
    if den ≤ num * Nat.pow 10 (n - 1) then 1 - (n : Int) else -(n : Int)

/-- Whether `d · 10 ^ k` is read back as `x`: it lies between the midpoints to the neighbours of `x`,
    which belong to `x` if its significand is even. In quarters of the last place. -/
def readsBack (x : Binary64) (d : Nat) (k : Int) : Bool :=
  let below := if x.significand = fullSignificand ∧ leastExponent < x.exponent then 1 else 2
  let (n, den) := scaled d 1 10 k
  let (n, den) := scaled (4 * n) den 2 (-x.exponent)
  let low := (4 * x.significand - below) * den
  let high := (4 * x.significand + 2) * den
  if x.significand % 2 = 0 then low ≤ n && n ≤ high else low < n && n < high

/-- On the grid of multiples of `10 ^ k`, the neighbour of `x` that is read back as `x`: the nearer
    of two, and of two equally near the even one. -/
def onGrid? (x : Binary64) (k : Int) : Option Nat :=
  let (n, d) := scaled x.ratio.1 x.ratio.2 10 (-k)
  let low := n / d
  match readsBack x low k, readsBack x (low + 1) k with
  | true, true => some (roundQuotient n d)
  | true, false => some low
  | false, true => some (low + 1)
  | false, false => none

/-- A decimal without zeros at its end. -/
def trimZeros : Nat → Nat → Int → Nat × Int
  | 0, d, k => (d, k)
  | steps + 1, d, k => if d % 10 = 0 ∧ d ≠ 0 then trimZeros steps (d / 10) (k + 1) else (d, k)

/-- The shortest decimal `(d, k)`, meaning `d · 10 ^ k`, that is read back as the positive number `x`. -/
def shortest (x : Binary64) : Nat × Int :=
  let top := floorLog10 x.ratio.1 x.ratio.2
  let grids := (List.range 17).map fun (i : Nat) => top - (i : Int)
  match grids.findSome? fun k => (onGrid? x k).map (·, k) with
  | some (d, k) => trimZeros 20 d k
  | none => (x.significand, 0)

end Binary64

end BrokerCli
