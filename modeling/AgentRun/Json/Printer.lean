import AgentRun.Json.Basic
import AgentRun.Decimal.Shortest

/-!
# Writing JSON

The compact text has no blanks. A string escapes only the quote, the backslash and the control
characters below U+0020; the integers are written in full, the other numbers with the fewest digits
that read back. The indented text is the same with one item or field a line.
-/

namespace AgentRun.Json

/-- Numbers are written out for first digits from `1e-5` up to `1e16`. -/
def numberLayout : Decimal.Layout := ⟨-5, 16⟩

/-- The text of an integer. -/
def integerChars (i : Int) : List Char :=
  if i < 0 then '-' :: Nat.toDigits 10 i.natAbs else Nat.toDigits 10 i.natAbs

/-- The text of a number. -/
def numberChars : Number → List Char
  | .int i => integerChars i
  | .float f => numberLayout.text f

/-- One character inside a string. -/
def stringChar (c : Char) : List Char :=
  if c = '"' then ['\\', '"']
  else if c = '\\' then ['\\', '\\']
  else if c.toNat < 0x20 then
    match c.toNat with
    | 8 => ['\\', 'b']
    | 9 => ['\\', 't']
    | 10 => ['\\', 'n']
    | 12 => ['\\', 'f']
    | 13 => ['\\', 'r']
    | n => ['\\', 'u', '0', '0'] ++ [Nat.digitChar (n / 16), Nat.digitChar (n % 16)]
  else [c]

/-- A string between its quotes. -/
def stringChars (s : String) : List Char :=
  '"' :: s.toList.flatMap stringChar ++ ['"']

mutual

/-- The compact text of a value, in front of `tail`. -/
def chars : Json → List Char → List Char
  | .null, tail => 'n' :: 'u' :: 'l' :: 'l' :: tail
  | .bool true, tail => 't' :: 'r' :: 'u' :: 'e' :: tail
  | .bool false, tail => 'f' :: 'a' :: 'l' :: 's' :: 'e' :: tail
  | .num n, tail => numberChars n ++ tail
  | .str s, tail => stringChars s ++ tail
  | .arr [], tail => '[' :: ']' :: tail
  | .arr (x :: rest), tail => '[' :: chars x (itemChars rest tail)
  | .obj [], tail => '\x7b' :: '\x7d' :: tail
  | .obj (f :: rest), tail => '\x7b' :: fieldChars f (moreFieldChars rest tail)
termination_by structural j => j

/-- The items after the first, with the closing bracket. -/
def itemChars : List Json → List Char → List Char
  | [], tail => ']' :: tail
  | x :: rest, tail => ',' :: chars x (itemChars rest tail)
termination_by structural items => items

/-- The fields after the first, with the closing brace. -/
def moreFieldChars : List (String × Json) → List Char → List Char
  | [], tail => '\x7d' :: tail
  | f :: rest, tail => ',' :: fieldChars f (moreFieldChars rest tail)
termination_by structural fields => fields

/-- One field. -/
def fieldChars : String × Json → List Char → List Char
  | (k, v), tail => stringChars k ++ ':' :: chars v tail
termination_by structural field => field

end

/-- The compact text of a value. -/
def text (j : Json) : String := String.ofList (j.chars [])

/-- A new line with its indentation, two blanks a level. -/
def newLine (level : Nat) : List Char := '\n' :: List.replicate (2 * level) ' '

mutual

/-- The indented text of a value at a level, in front of `tail`. -/
def linesAt (level : Nat) : Json → List Char → List Char
  | .arr (x :: rest), tail =>
    '[' :: newLine (level + 1) ++ linesAt (level + 1) x (itemLines level rest tail)
  | .obj (f :: rest), tail =>
    '\x7b' :: newLine (level + 1) ++ fieldLines (level + 1) f (moreFieldLines level rest tail)
  | .arr [], tail => '[' :: ']' :: tail
  | .obj [], tail => '\x7b' :: '\x7d' :: tail
  | .null, tail => chars .null tail
  | .bool b, tail => chars (.bool b) tail
  | .num n, tail => numberChars n ++ tail
  | .str s, tail => stringChars s ++ tail
termination_by structural j => j

/-- The items after the first, each on a line, with the closing bracket. -/
def itemLines (level : Nat) : List Json → List Char → List Char
  | [], tail => newLine level ++ ']' :: tail
  | x :: rest, tail =>
    ',' :: newLine (level + 1) ++ linesAt (level + 1) x (itemLines level rest tail)
termination_by structural items => items

/-- The fields after the first, each on a line, with the closing brace. -/
def moreFieldLines (level : Nat) : List (String × Json) → List Char → List Char
  | [], tail => newLine level ++ '\x7d' :: tail
  | f :: rest, tail =>
    ',' :: newLine (level + 1) ++ fieldLines (level + 1) f (moreFieldLines level rest tail)
termination_by structural fields => fields

/-- One field at a level. -/
def fieldLines (level : Nat) : String × Json → List Char → List Char
  | (k, v), tail => stringChars k ++ ':' :: ' ' :: linesAt level v tail
termination_by structural field => field

end

/-- The indented text of a value. -/
def indented (j : Json) : String := String.ofList (j.linesAt 0 [])

end AgentRun.Json
