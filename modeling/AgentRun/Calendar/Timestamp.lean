import AgentRun.Calendar.Date

/-!
# Timestamps

A timestamp of RFC 3339 is a date of ten characters, a time of the day with an optional fraction of
a second, and an offset from UTC. Only its date is ever changed here, so a timestamp is recognised
and not taken apart.
-/

namespace AgentRun.Timestamp

/-- Reads exactly two digits that make a number up to `most`. -/
def twoDigits (most : Nat) : List Char → Option (List Char)
  | a :: b :: rest =>
    if Text.isAsciiDigit a ∧ Text.isAsciiDigit b ∧ Text.digitsValue [a, b] ≤ most then some rest
    else none
  | _ => none

/-- Reads one of the given characters. -/
def oneOf (choices : List Char) : List Char → Option (List Char)
  | c :: rest => if choices.contains c then some rest else none
  | [] => none

/-- Reads the fraction of a second, if there is one. -/
def fraction : List Char → Option (List Char)
  | '.' :: rest =>
    if (rest.head?.map Text.isAsciiDigit).getD false then
      some (rest.dropWhile Text.isAsciiDigit)
    else none
  | cs => some cs

/-- Reads the offset from UTC: `Z`, or a sign with hours and minutes. -/
def offset (cs : List Char) : Option (List Char) :=
  match cs with
  | 'Z' :: rest => some rest
  | 'z' :: rest => some rest
  | cs => do
    let rest ← oneOf ['+', '-', '\u2212'] cs
    let rest ← twoDigits 23 rest
    let rest ← oneOf [':'] rest
    twoDigits 59 rest

/-- Reads the part behind the date. A second numbered 60 is a leap second. -/
def timeOfDay (cs : List Char) : Option (List Char) := do
  let rest ← oneOf ['T', 't', ' '] cs
  let rest ← twoDigits 23 rest
  let rest ← oneOf [':'] rest
  let rest ← twoDigits 59 rest
  let rest ← oneOf [':'] rest
  let rest ← twoDigits 60 rest
  let rest ← fraction rest
  offset rest

/-- Whether ten characters are four, two and two digits with hyphens between them. -/
def isPlainDate : List Char → Bool
  | [a, b, c, d, '-', e, f, '-', g, h] => [a, b, c, d, e, f, g, h].all Text.isAsciiDigit
  | _ => false

/-- The date of a timestamp and the text behind it. -/
def split? (cs : List Char) : Option (Date × List Char) :=
  let (date, rest) := (cs.take 10, cs.drop 10)
  if isPlainDate date ∧ timeOfDay rest = some [] then
    (Date.ofChars? date).map fun d => (d, rest)
  else none

end AgentRun.Timestamp
