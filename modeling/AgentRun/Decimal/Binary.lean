/-!
# Binary64 numbers

The finite numbers of the IEEE 754 format binary64, as a sign, a mantissa and a power of two, with
rounding of an exact ratio to the nearest of them. All arithmetic is on natural numbers and
integers, so every operation here is the exact one followed by one rounding.
-/

namespace AgentRun.Decimal

/-- A finite binary64 number, of the magnitude `mantissa * 2 ^ exponent`. The mantissa has at most
53 bits and the exponent is at least -1074; of the ways to write a magnitude under these bounds the
one with the least exponent is used, so equal fields are equal numbers. -/
structure Binary where
  /-- Whether the sign bit is set; the zero has one as well. -/
  negative : Bool
  /-- The digits in base two. -/
  mantissa : Nat
  /-- The power of two. -/
  exponent : Int
  deriving DecidableEq, Repr

namespace Binary

/-- The least exponent, that of the subnormal numbers. -/
def leastExponent : Int := -1074

/-- The greatest exponent of a finite number. -/
def greatestExponent : Int := 971

/-- One more than the greatest mantissa. -/
def mantissaBound : Nat := Nat.pow 2 53

/-- The zero with its sign. -/
def zero (negative : Bool) : Binary := ⟨negative, 0, leastExponent⟩

/-- The number with the opposite sign. -/
def neg (b : Binary) : Binary := { b with negative := !b.negative }

/-- The quotient rounded to the nearest natural number, a tie to the even one. -/
def roundQuotient (num den : Nat) : Nat :=
  let q := num / den
  let r := num % den
  if den < 2 * r then q + 1
  else if 2 * r = den then q + q % 2
  else q

/-- The ratio `num / den` in units of `2 ^ e`, as a ratio. -/
def inUnits (num den : Nat) (e : Int) : Nat × Nat :=
  if 0 ≤ e then (num, den * Nat.pow 2 e.toNat) else (num * Nat.pow 2 (-e).toNat, den)

/-- The exponent in whose units the ratio has 53 binary digits, or the least exponent if the ratio
is too small for that. -/
def exponentFor (num den : Nat) : Int :=
  let guess : Int := (Nat.log2 num : Int) - (Nat.log2 den : Int) - 53
  let (n, d) := inUnits num den guess
  max leastExponent (if n / d < mantissaBound then guess else guess + 1)

/-- The binary64 magnitude nearest to `num / den`, a tie to the even mantissa. It is `none` when
the ratio rounds beyond the greatest finite number. -/
def ofRatio? (num den : Nat) : Option Binary :=
  if num = 0 then some (zero false)
  else
    let e := exponentFor num den
    let (n, d) := inUnits num den e
    let m := roundQuotient n d
    let (m, e) := if m = mantissaBound then (mantissaBound / 2, e + 1) else (m, e)
    if e ≤ greatestExponent then some ⟨false, m, e⟩ else none

/-- The magnitude as a ratio. -/
def ratio (b : Binary) : Nat × Nat :=
  if 0 ≤ b.exponent then (b.mantissa * Nat.pow 2 b.exponent.toNat, 1)
  else (b.mantissa, Nat.pow 2 (-b.exponent).toNat)

/-- The product of two magnitudes, rounded; `none` beyond the greatest finite number. -/
def mul? (a b : Binary) : Option Binary :=
  ofRatio? (a.ratio.1 * b.ratio.1) (a.ratio.2 * b.ratio.2)

/-- The quotient of two magnitudes, rounded; `none` beyond the greatest finite number. -/
def div? (a b : Binary) : Option Binary :=
  ofRatio? (a.ratio.1 * b.ratio.2) (a.ratio.2 * b.ratio.1)

/-- The number nearest to an integer, `none` beyond the greatest finite number. -/
def ofInt? (i : Int) : Option Binary :=
  (ofRatio? i.natAbs 1).map fun b => { b with negative := decide (i < 0) }

end Binary

end AgentRun.Decimal
