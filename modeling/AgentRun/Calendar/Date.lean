import AgentRun.Text.Ascii
import AgentRun.Text.Blank

/-!
# Calendar dates

Dates of the proleptic Gregorian calendar, counted by a day number: day 1 is the first of January
of the year 1. A date is shifted by way of its number (`Date.shift?`), within a fixed range of
years. A date is written with a year of four digits, or with a sign when it is outside 0 to 9999,
and its reader takes every such text back.
-/

namespace AgentRun

/-- A date by its year, its month from 1 and its day of the month from 1. -/
structure Date where
  /-- The year; the year before 1 is 0. -/
  year : Int
  month : Nat
  /-- The day of the month. -/
  day : Nat
  deriving DecidableEq, Repr

namespace Date

/-- The years with a 29th of February. -/
def isLeap (year : Int) : Bool :=
  year % 4 == 0 && (year % 100 != 0 || year % 400 == 0)

/-- The lengths of the months of a year. -/
def monthLengths (leap : Bool) : List Nat :=
  [31, if leap then 29 else 28, 31, 30, 31, 30, 31, 31, 30, 31, 30, 31]

/-- The first year of the range. -/
def firstYear : Int := -262143

/-- The last year of the range. -/
def lastYear : Int := 262142

/-- The dates that the calendar has, within the range of years. -/
def IsValid (d : Date) : Prop :=
  firstYear ≤ d.year ∧ d.year ≤ lastYear ∧ 1 ≤ d.month ∧ d.month ≤ 12 ∧ 1 ≤ d.day ∧
    d.day ≤ (monthLengths (isLeap d.year)).getD (d.month - 1) 0

instance (d : Date) : Decidable d.IsValid := by unfold IsValid; infer_instance

/-- The number of days before a year. -/
def daysBeforeYear (year : Int) : Int :=
  let y := year - 1
  365 * y + y / 4 - y / 100 + y / 400

/-- The number of days in the year of a day that are before its month. -/
def daysBeforeMonth (d : Date) : Nat :=
  ((monthLengths (isLeap d.year)).take (d.month - 1)).foldr (· + ·) 0

/-- The number of a day. -/
def number (d : Date) : Int := daysBeforeYear d.year + d.daysBeforeMonth + d.day

/-- The year that holds a day, from an estimate that is at most one year off. -/
def yearOf (n : Int) : Int :=
  let y := 400 * n / 146097 + 1
  if n ≤ daysBeforeYear y then y - 1
  else if daysBeforeYear (y + 1) < n then y + 1
  else y

/-- The month, from `month` on, and the day of the month of the day that is `n` days into the months
of the given lengths. -/
def inMonths (month n : Nat) : List Nat → Nat × Nat
  | [] => (month, n)
  | length :: rest => if n ≤ length then (month, n) else inMonths (month + 1) (n - length) rest

/-- The date with a number. -/
def ofNumber (n : Int) : Date :=
  let year := yearOf n
  let (month, day) := inMonths 1 (n - daysBeforeYear year).toNat (monthLengths (isLeap year))
  ⟨year, month, day⟩

/-- The date a number of days later, or earlier, if it is in the range of years. -/
def shift? (d : Date) (days : Nat) (back : Bool) : Option Date :=
  let e := ofNumber (if back then d.number - days else d.number + days)
  if firstYear ≤ e.year ∧ e.year ≤ lastYear then some e else none

/-- The text of a year. -/
def yearText (year : Int) : String :=
  if 0 ≤ year ∧ year ≤ 9999 then Text.padded 4 year.toNat
  else (if year < 0 then "-" else "+") ++ Text.padded 4 year.natAbs

/-- The text of a date, as in `2024-02-29`. -/
def text (d : Date) : String :=
  yearText d.year ++ "-" ++ Text.padded 2 d.month ++ "-" ++ Text.padded 2 d.day

/-- Reads a number of one digit up to `most`, with blanks allowed in front of it. -/
def readNumber (most : Nat) (cs : List Char) : Option (Nat × List Char) :=
  let cs := cs.dropWhile Text.isBlank
  let digits := (cs.take most).takeWhile Text.isAsciiDigit
  if digits.isEmpty then none else some (Text.digitsValue digits, cs.drop digits.length)

/-- Reads a year: any number of digits behind a sign, or up to four without one. -/
def readYear (cs : List Char) : Option (Int × List Char) :=
  match cs.dropWhile Text.isBlank with
  | '-' :: rest => (signed rest).map fun (n, rest) => (-(n : Int), rest)
  | '+' :: rest => (signed rest).map fun (n, rest) => ((n : Int), rest)
  | cs => (readNumber 4 cs).map fun (n, rest) => ((n : Int), rest)
where
  /-- The digits behind a sign. -/
  signed (cs : List Char) : Option (Nat × List Char) :=
    let digits := cs.takeWhile Text.isAsciiDigit
    if digits.isEmpty then none else some (Text.digitsValue digits, cs.drop digits.length)

/-- Reads the hyphen between two numbers. -/
def readHyphen : List Char → Option (List Char)
  | '-' :: rest => some rest
  | _ => none

/-- Reads a date that makes up the whole text. -/
def ofChars? (cs : List Char) : Option Date := do
  let (year, rest) ← readYear cs
  let rest ← readHyphen rest
  let (month, rest) ← readNumber 2 rest
  let rest ← readHyphen rest
  let (day, rest) ← readNumber 2 rest
  let d : Date := ⟨year, month, day⟩
  if rest.isEmpty ∧ d.IsValid then some d else none

end Date

end AgentRun
