/-!
# ASCII letters

Keywords of the program (tool names, statuses, log levels) are compared without regard to the case
of the letters A to Z; every other character counts as it stands.
-/

namespace AgentRun.Text

/-- A text with A to Z in lower case and all else unchanged. -/
def asciiLower (s : String) : String :=
  String.ofList (s.toList.map Char.toLower)

/-- Whether two texts differ at most in the case of ASCII letters. -/
def sameLetters (a b : String) : Bool :=
  asciiLower a == asciiLower b

/-- A decimal digit of ASCII. -/
def isAsciiDigit (c : Char) : Bool :=
  decide ('0' ≤ c) && decide (c ≤ '9')

/-- The value of a decimal digit of ASCII. -/
def asciiDigitValue (c : Char) : Nat :=
  c.toNat - '0'.toNat

/-- The value of a row of decimal digits, the most significant first. -/
def digitsValue (cs : List Char) : Nat :=
  cs.foldl (fun n c => 10 * n + asciiDigitValue c) 0

/-- The decimal digits of a number, padded on the left with zeros to a width. -/
def padded (width n : Nat) : String :=
  let digits := Nat.toDigits 10 n
  String.ofList (List.replicate (width - digits.length) '0' ++ digits)

end AgentRun.Text
