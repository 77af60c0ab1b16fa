import AgentRun.Text.Ascii

/-!
# Unsigned numerals

The numerals of environment settings and log levels: an optional plus sign and one or more ASCII
digits, of a value within a bound. Blanks are not part of a numeral.
-/

namespace AgentRun.Text

/-- The digits of a numeral, without its plus sign. -/
def unsigned : List Char → List Char
  | '+' :: rest => rest
  | cs => cs

/-- Reads an unsigned numeral that is below `bound`. -/
def unsignedBelow (bound : Nat) (s : String) : Option Nat :=
  let digits := unsigned s.toList
  if digits.isEmpty || !digits.all isAsciiDigit then none
  else
    let n := digitsValue digits
    if n < bound then some n else none

/-- The number of values of a 32-bit word. -/
def word32 : Nat := 4294967296

/-- The number of values of a 64-bit word. -/
def word64 : Nat := 18446744073709551616

end AgentRun.Text
