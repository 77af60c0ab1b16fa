import AgentRun.Decimal.Binary

/-!
# Shortest decimal text

A binary64 number is written with the fewest decimal digits that read back as the same number, and
of those with the digits nearest to it. `digits` finds them on the decimal grids of one digit, two
digits and so on; `Layout` says how they are written down.
-/

namespace AgentRun.Decimal

/-- A magnitude `digits * 10 ^ power`. -/
structure Digits where
  /-- The digits as a number. -/
  digits : Nat
  /-- The power of ten of the last digit. -/
  power : Int

/-- A magnitude and the interval of the reals that round to it, in quarters of the last binary
place: the number is `4 * mantissa`, an end of the interval belongs to it when the mantissa is
even, and below a power of two the lower end is half as far away. -/
structure Neighbourhood where
  /-- The lower end. -/
  low : Nat
  /-- The number itself. -/
  value : Nat
  /-- The upper end. -/
  high : Nat
  /-- Whether the ends belong to the interval. -/
  closed : Bool
  /-- The power of two of the unit. -/
  unit : Int

/-- The neighbourhood of a number other than zero. -/
def Binary.neighbourhood (b : Binary) : Neighbourhood where
  low := if b.mantissa = Binary.mantissaBound / 2 ∧ Binary.leastExponent < b.exponent then
    4 * b.mantissa - 1 else 4 * b.mantissa - 2
  value := 4 * b.mantissa
  high := 4 * b.mantissa + 2
  closed := b.mantissa % 2 = 0
  unit := b.exponent - 2

/-- The two factors that turn quarters of the last binary place into steps of a decimal grid: a
count `n` of the former is `n * up / down` of the latter. -/
def Neighbourhood.factors (h : Neighbourhood) (power : Int) : Nat × Nat :=
  (Nat.pow 2 h.unit.toNat * Nat.pow 10 (-power).toNat,
    Nat.pow 2 (-h.unit).toNat * Nat.pow 10 power.toNat)

/-- The point of the grid with steps of `10 ^ power` that is in the interval and nearest to the
number, if there is one. Only the two neighbours of the number on the grid can be. -/
def Neighbourhood.onGrid (h : Neighbourhood) (power : Int) : Option Digits :=
  let (up, down) := h.factors power
  let below := h.value * up / down
  let above := below + 1
  let inside (ok : Bool) (strict : Bool) := if h.closed then ok else strict
  let belowIn := inside (h.low * up ≤ below * down) (h.low * up < below * down)
  let aboveIn := inside (above * down ≤ h.high * up) (above * down < h.high * up)
  let gapBelow := h.value * up - below * down
  let gapAbove := above * down - h.value * up
  if belowIn && aboveIn then
    if gapBelow < gapAbove ∨ (gapBelow = gapAbove ∧ below % 2 = 0) then some ⟨below, power⟩
    else some ⟨above, power⟩
  else if belowIn then some ⟨below, power⟩
  else if aboveIn then some ⟨above, power⟩
  else none

/-- The power of ten of the first decimal digit. Every magnitude is an integer of at least one
digit once it is multiplied by `10 ^ 342`. -/
def Neighbourhood.firstPower (h : Neighbourhood) : Int :=
  let (up, down) := h.factors (-342)
  ((Nat.toDigits 10 (h.value * up / down)).length : Int) - 1 - 342

/-- Searches the grids from `18 - left` digits up to 17, where `first` is the power of ten of the
first digit. The grid of 17 digits always has a point in the interval. -/
def Neighbourhood.search (h : Neighbourhood) (first : Int) : Nat → Digits
  | 0 => ⟨h.value * (h.factors (first - 16)).1 / (h.factors (first - 16)).2, first - 16⟩
  | left + 1 => (h.onGrid (first - (16 - left))).getD (h.search first left)

/-- The shortest digits of a number other than zero. -/
def Binary.shortest (b : Binary) : Digits :=
  b.neighbourhood.search b.neighbourhood.firstPower 17

/-- The digits without the zeros at their end. -/
def dropZeros : List Char → List Char := fun cs => (cs.reverse.dropWhile (· == '0')).reverse

/-- How digits are written: the powers of the first digit from `plainFrom` up to and without
`plainTo` are written out with at least one decimal, the others with an exponent and its sign. -/
structure Layout where
  /-- The least power of the first digit that is written out. -/
  plainFrom : Int
  /-- The first power of the first digit that is not written out any more. -/
  plainTo : Int

/-- The power of ten of an exponent, with its sign. -/
def exponentText (e : Int) : List Char :=
  'e' :: (if e < 0 then '-' else '+') :: Nat.toDigits 10 e.natAbs

/-- The digits `ds`, of which the first has the power `e`. -/
def Layout.write (l : Layout) (ds : List Char) (e : Int) : List Char :=
  if l.plainFrom ≤ e ∧ e < l.plainTo then
    if e < 0 then ['0', '.'] ++ List.replicate ((-e).toNat - 1) '0' ++ ds
    else
      let whole := e.toNat + 1
      if ds.length ≤ whole then ds ++ List.replicate (whole - ds.length) '0' ++ ['.', '0']
      else ds.take whole ++ '.' :: ds.drop whole
  else match ds with
    | [] => exponentText e
    | [d] => d :: exponentText e
    | d :: rest => d :: '.' :: rest ++ exponentText e

/-- The text of a number. -/
def Layout.text (l : Layout) (b : Binary) : List Char :=
  let body :=
    if b.mantissa = 0 then ['0', '.', '0']
    else
      let found := b.shortest
      let all := Nat.toDigits 10 found.digits
      l.write (dropZeros all) (found.power + all.length - 1)
  if b.negative then '-' :: body else body

end AgentRun.Decimal
