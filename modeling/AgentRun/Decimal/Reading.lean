import AgentRun.Decimal.Binary

/-!
# Reading decimal fractions

A decimal literal is read in two roundings: its digits, as far as they fit in 64 bits, give a
binary64 significand, which is then multiplied or divided by a binary64 power of ten. Magnitudes
below the range are scaled down in steps of `10 ^ 308`, each step rounded.
-/

namespace AgentRun.Decimal

/-- The greatest power of ten that is used in one step. -/
def greatestPower : Nat := 308

/-- The binary64 number nearest to a power of ten. -/
def powerOfTen? (n : Nat) : Option Binary := Binary.ofRatio? (Nat.pow 10 n) 1

/-- The greatest power of ten that is used in one step, as a number. -/
def topPower : Binary := (powerOfTen? greatestPower).getD (.zero false)

/-- Divides by a power of ten, in steps of `10 ^ 308`. A 64-bit significand is zero after three
steps, so `steps = 3` serves every exponent. -/
def scaleDown (f : Binary) (power : Nat) (steps : Nat) : Option Binary :=
  if power ≤ greatestPower then (powerOfTen? power).bind f.div?
  else match steps with
    | 0 => some (.zero false)
    | steps + 1 => (f.div? topPower).bind fun g => scaleDown g (power - greatestPower) steps

/-- The magnitude `significand * 10 ^ exponent`, or `none` when it is beyond the greatest finite
number. -/
def ofDigits? (significand : Nat) (exponent : Int) : Option Binary :=
  (Binary.ofRatio? significand 1).bind fun f =>
    if exponent < 0 then scaleDown f (-exponent).toNat 3
    else if exponent.toNat ≤ greatestPower then (powerOfTen? exponent.toNat).bind f.mul?
    else if f.mantissa = 0 then some f
    else none

end AgentRun.Decimal
