import AgentRun.Json.Basic
import AgentRun.Json.Outline
import AgentRun.Decimal.Reading
import AgentRun.Text.Ascii
import AgentRun.Text.Numeral

/-!
# Reading JSON

`read` turns a text into the one value it holds, in the form of the document: the fields of an
object stay in their order and equal keys stay apart. A text that holds no value is answered with a
`Fault` and the place where it was noticed, and the message of a `SyntaxError` gives both.
`readParts` does the same for a reader that looks only at the parts of an outline; in the place of
what is passed over it has `null`.

Columns count UTF-8 bytes. A fault is noticed either behind a character that was taken or at a
character that was only looked at, which then counts with its first byte.
-/

namespace AgentRun.Json

/-- What can be wrong with a text. -/
inductive Fault where
  /-- The text ends where a value is due. -/
  | endInValue
  /-- The text ends in a string. -/
  | endInString
  /-- The text ends in an array. -/
  | endInList
  /-- The text ends in an object. -/
  | endInObject
  /-- A value is due and something else is there. -/
  | noValue
  /-- A letter that does not belong to `true`, `false` or `null`. -/
  | badWord
  /-- A key without its colon. -/
  | noColon
  /-- An array that is neither continued nor closed. -/
  | openList
  /-- An object that is neither continued nor closed. -/
  | openObject
  /-- A key that is not a string. -/
  | badKey
  /-- A number that is cut short, or starts with a needless zero. -/
  | badNumber
  /-- A number beyond the binary64 range. -/
  | hugeNumber
  /-- A backslash with a character that makes no escape. -/
  | badEscape
  /-- Half of a surrogate pair. -/
  | loneSurrogate
  /-- A surrogate pair that is cut short. -/
  | cutSurrogate
  /-- A control character that is not escaped. -/
  | controlChar
  /-- A comma in front of a closing bracket. -/
  | trailingComma
  /-- Something behind the value. -/
  | trailingText
  /-- Arrays and objects nested too deeply. -/
  | tooDeep
  deriving DecidableEq, Repr

/-- The words for a fault. -/
def Fault.words : Fault → String
  | .endInValue => "EOF while parsing a value"
  | .endInString => "EOF while parsing a string"
  | .endInList => "EOF while parsing a list"
  | .endInObject => "EOF while parsing an object"
  | .noValue => "expected value"
  | .badWord => "expected ident"
  | .noColon => "expected `:`"
  | .openList => "expected `,` or `]`"
  | .openObject => "expected `,` or `\x7d`"
  | .badKey => "key must be a string"
  | .badNumber => "invalid number"
  | .hugeNumber => "number out of range"
  | .badEscape => "invalid escape"
  | .loneSurrogate => "lone leading surrogate in hex escape"
  | .cutSurrogate => "unexpected end of hex escape"
  | .controlChar => "control character (\\u0000-\\u001F) found while parsing a string"
  | .trailingComma => "trailing comma"
  | .trailingText => "trailing characters"
  | .tooDeep => "recursion limit exceeded"

/-- A fault, what is left of the text where it was noticed, and how many bytes of that were looked
at. -/
structure Stop where
  /-- What is wrong. -/
  fault : Fault
  /-- The text from there on. -/
  rest : List Char
  /-- The bytes of `rest` that count as read. -/
  seen : Nat

/-- A fault behind the characters that were taken. -/
def behind {α : Type} (fault : Fault) (rest : List Char) :
    Except Stop (α × List Char) := .error ⟨fault, rest, 0⟩

/-- A fault at the next character. -/
def here {α : Type} (fault : Fault) (rest : List Char) :
    Except Stop (α × List Char) := .error ⟨fault, rest, 1⟩

/-- The blanks of JSON. -/
def isSpace (c : Char) : Bool := c == ' ' || c == '\n' || c == '\t' || c == '\r'

/-- The text from the first character on that is not a blank. -/
def skipSpace (cs : List Char) : List Char := cs.dropWhile isSpace

/-! ## Numbers -/

/-- Puts a digit behind a 64-bit significand, unless it no longer fits. -/
def pushDigit? (significand : Nat) (c : Char) : Option Nat :=
  let n := significand * 10 + Text.asciiDigitValue c
  if n < Text.word64 then some n else none

/-- The digits of the whole part: the significand of those that fit, and how many do not. -/
def wholeDigits (digits : List Char) : Nat × Nat :=
  digits.foldl (fun (significand, dropped) c =>
    match if dropped = 0 then pushDigit? significand c else none with
    | some n => (n, 0)
    | none => (significand, dropped + 1)) (0, 0)

/-- The digits behind the point: the significand with those that fit, and how many they are. The
first that does not fit ends the count. -/
def fractionDigits : Nat → List Char → Nat × Nat
  | significand, [] => (significand, 0)
  | significand, c :: rest =>
    match pushDigit? significand c with
    | some n =>
      let (m, places) := fractionDigits n rest
      (m, places + 1)
    | none => (significand, 0)

/-- The greatest exponent that is told apart from greater ones. -/
def exponentBound : Nat := 2147483648

/-- A number from its sign, its significand and its power of ten. -/
def scaled (negative : Bool) (significand : Nat) (exponent : Int) (rest : List Char) :
    Except Stop (Number × List Char) :=
  match Decimal.ofDigits? significand exponent with
  | some f => .ok (.float (if negative then f.neg else f), rest)
  | none => behind .hugeNumber rest

/-- The digits of an exponent: its value, and the rest. `none` stands for a value that is too large
to tell; then the rest starts behind the digit that made it so. -/
def exponentDigits : Nat → List Char → Option Nat × List Char
  | n, [] => (some n, [])
  | n, c :: rest =>
    if Text.isAsciiDigit c then
      let m := n * 10 + Text.asciiDigitValue c
      if m < exponentBound then exponentDigits m rest else (none, rest)
    else (some n, c :: rest)

/-- The sign of an exponent and the rest. -/
def exponentSign : List Char → Bool × List Char
  | '+' :: rest => (false, rest)
  | '-' :: rest => (true, rest)
  | rest => (false, rest)

/-- The sum of an exponent and a power of ten that is already there, within 32 bits. -/
def addExponent (power : Int) (down : Bool) (n : Nat) : Int :=
  let sum := if down then power - n else power + n
  max (-2147483648) (min 2147483647 sum)

/-- The part of a number behind its `e`. -/
def readExponent (negative : Bool) (significand : Nat) (power : Int) (cs : List Char) :
    Except Stop (Number × List Char) :=
  let (down, cs) := exponentSign cs
  match cs with
  | [] => behind .endInValue []
  | c :: _ =>
    if !Text.isAsciiDigit c then here .badNumber cs
    else match exponentDigits 0 cs with
      | (some n, rest) => scaled negative significand (addExponent power down n) rest
      | (none, rest) =>
        if significand != 0 && !down then behind .hugeNumber rest
        else .ok (.float (.zero negative), rest.dropWhile Text.isAsciiDigit)

/-- The end of a number that is not an integer. -/
def readPower (negative : Bool) (significand : Nat) (power : Int) (cs : List Char) :
    Except Stop (Number × List Char) :=
  match cs with
  | 'e' :: rest => readExponent negative significand power rest
  | 'E' :: rest => readExponent negative significand power rest
  | _ => scaled negative significand power cs

/-- The part of a number behind its point. -/
def readFraction (negative : Bool) (significand : Nat) (power : Int) (cs : List Char) :
    Except Stop (Number × List Char) :=
  let digits := cs.takeWhile Text.isAsciiDigit
  let rest := cs.dropWhile Text.isAsciiDigit
  match digits, rest with
  | [], [] => behind .endInValue []
  | [], c :: more => here .badNumber (c :: more)
  | digits, rest =>
    let (n, places) := fractionDigits significand digits
    readPower negative n (power - places) rest

/-- The integer with a sign, or the number nearest to it if it is minus zero or has no room. -/
def integer (negative : Bool) (n : Nat) : Number :=
  if !negative then .int n
  else if n = 0 ∨ 9223372036854775808 < n then
    .float ((Decimal.Binary.ofRatio? n 1).getD (.zero false)).neg
  else .int (-n)

/-- A number behind its sign. -/
def readNumber (negative : Bool) (cs : List Char) : Except Stop (Number × List Char) :=
  match cs with
  | [] => behind .endInValue []
  | c :: after =>
    if !Text.isAsciiDigit c then here .badNumber cs
    else
      let digits := if c = '0' then ['0'] else cs.takeWhile Text.isAsciiDigit
      let rest := if c = '0' then after else cs.dropWhile Text.isAsciiDigit
      let (significand, dropped) := wholeDigits digits
      match rest with
      | '.' :: rest => readFraction negative significand dropped rest
      | 'e' :: rest => readExponent negative significand dropped rest
      | 'E' :: rest => readExponent negative significand dropped rest
      | rest =>
        if c = '0' && (rest.head?.map Text.isAsciiDigit).getD false then here .badNumber rest
        else if dropped = 0 then .ok (integer negative significand, rest)
        else scaled negative significand dropped rest

/-- Passes over one or more digits. -/
def passDigits (cs : List Char) : Except Stop (Unit × List Char) :=
  match cs with
  | [] => behind .endInValue []
  | c :: _ =>
    if Text.isAsciiDigit c then .ok ((), cs.dropWhile Text.isAsciiDigit) else here .badNumber cs

/-- Passes over the part of a number that starts with its `e`, if there is one. -/
def passExponent (cs : List Char) : Except Stop (Unit × List Char) :=
  match cs with
  | 'e' :: rest => passDigits (exponentSign rest).2
  | 'E' :: rest => passDigits (exponentSign rest).2
  | rest => .ok ((), rest)

/-- Passes over a number behind its sign. -/
def passNumber (cs : List Char) : Except Stop (Unit × List Char) := do
  let (_, rest) ← match cs with
    | '0' :: c :: rest =>
      if Text.isAsciiDigit c then here .badNumber (c :: rest) else .ok ((), c :: rest)
    | cs => passDigits cs
  match rest with
  | '.' :: rest =>
    let (_, rest) ← passDigits rest
    passExponent rest
  | rest => passExponent rest

/-! ## Strings -/

/-- The value of a hexadecimal digit. -/
def hexValue? (c : Char) : Option Nat :=
  if '0' ≤ c ∧ c ≤ '9' then some (c.toNat - '0'.toNat)
  else if 'a' ≤ c ∧ c ≤ 'f' then some (c.toNat - 'a'.toNat + 10)
  else if 'A' ≤ c ∧ c ≤ 'F' then some (c.toNat - 'A'.toNat + 10)
  else none

/-- The number of bytes of a text in UTF-8. -/
def byteCount (cs : List Char) : Nat := (cs.map Char.utf8Size).foldr (· + ·) 0

/-- Four hexadecimal digits, in any case. Fewer than four bytes are the end of the text. -/
def readUnit (cs : List Char) : Except Stop (Nat × List Char) :=
  let bad : Except Stop (Nat × List Char) :=
    if byteCount (cs.take 4) < 4 then behind .endInString [] else .error ⟨.badEscape, cs, 4⟩
  match cs with
  | a :: b :: c :: d :: rest =>
    match hexValue? a, hexValue? b, hexValue? c, hexValue? d with
    | some a, some b, some c, some d => .ok (((a * 16 + b) * 16 + c) * 16 + d, rest)
    | _, _, _, _ => bad
  | _ => bad

/-- The next character is `c`, as a surrogate pair demands. -/
def expectPair (c : Char) (cs : List Char) : Except Stop (Unit × List Char) :=
  match cs with
  | [] => behind .endInString []
  | d :: rest => if d = c then .ok ((), rest) else here .cutSurrogate cs

/-- The character of an escape by code unit, behind its `\u`. -/
def readUnicode (cs : List Char) : Except Stop (Char × List Char) := do
  let (n, rest) ← readUnit cs
  if 0xDC00 ≤ n ∧ n ≤ 0xDFFF then behind .loneSurrogate rest
  else if n < 0xD800 ∨ 0xDBFF < n then .ok (Char.ofNat n, rest)
  else
    let (_, rest) ← expectPair '\\' rest
    let (_, rest) ← expectPair 'u' rest
    let (m, rest) ← readUnit rest
    if m < 0xDC00 ∨ 0xDFFF < m then behind .loneSurrogate rest
    else .ok (Char.ofNat (0x10000 + (n - 0xD800) * 0x400 + (m - 0xDC00)), rest)

/-- The character of an escape, behind its backslash. -/
def readEscape (cs : List Char) : Except Stop (Char × List Char) :=
  match cs with
  | [] => behind .endInString []
  | '"' :: rest => .ok ('"', rest)
  | '\\' :: rest => .ok ('\\', rest)
  | '/' :: rest => .ok ('/', rest)
  | 'b' :: rest => .ok (Char.ofNat 8, rest)
  | 'f' :: rest => .ok (Char.ofNat 12, rest)
  | 'n' :: rest => .ok ('\n', rest)
  | 'r' :: rest => .ok ('\r', rest)
  | 't' :: rest => .ok ('\t', rest)
  | 'u' :: rest => readUnicode rest
  | _ => here .badEscape cs

/-- A string behind its opening quote. Every round takes a character, so the length of the text is
fuel enough; `acc` holds the characters so far, the last one first. -/
def readString (fuel : Nat) (acc : List Char) (cs : List Char) :
    Except Stop (String × List Char) :=
  match fuel, cs with
  | _, [] => behind .endInString []
  | _, '"' :: rest => .ok (String.ofList acc.reverse, rest)
  | 0, cs => behind .endInString cs
  | fuel + 1, '\\' :: rest => do
    let (c, rest) ← readEscape rest
    readString fuel (c :: acc) rest
  | fuel + 1, c :: rest =>
    if c.toNat < 0x20 then here .controlChar (c :: rest) else readString fuel (c :: acc) rest

/-- Passes over an escape behind its backslash. -/
def passEscape (cs : List Char) : Except Stop (Unit × List Char) :=
  match cs with
  | 'u' :: rest => (readUnit rest).map fun (_, rest) => ((), rest)
  | cs => (readEscape cs).map fun (_, rest) => ((), rest)

/-- Passes over a string behind its opening quote. The fuel is as for `readString`. -/
def passString (fuel : Nat) (cs : List Char) : Except Stop (Unit × List Char) :=
  match fuel, cs with
  | _, [] => behind .endInString []
  | _, '"' :: rest => .ok ((), rest)
  | 0, cs => behind .endInString cs
  | fuel + 1, '\\' :: rest => do
    let (_, rest) ← passEscape rest
    passString fuel rest
  | fuel + 1, c :: rest =>
    if c.toNat < 0x20 then here .controlChar (c :: rest) else passString fuel rest

/-! ## Values -/

/-- The letters of a word, after its first. -/
def readWord (value : Json) : List Char → List Char → Except Stop (Json × List Char)
  | [], rest => .ok (value, rest)
  | _ :: _, [] => behind .endInValue []
  | w :: word, c :: rest => if c = w then readWord value word rest else here .badWord (c :: rest)

/-- A number behind its sign, if it is looked at. -/
def numberValue (o : Outline) (negative : Bool) (cs : List Char) :
    Except Stop (Json × List Char) :=
  if o.isSkipped then (passNumber cs).map fun (_, rest) => (.null, rest)
  else (readNumber negative cs).map fun (n, rest) => (.num n, rest)

/-- A string behind its opening quote, if it is looked at. -/
def stringValue (o : Outline) (fuel : Nat) (cs : List Char) : Except Stop (Json × List Char) :=
  if o.isSkipped then (passString fuel cs).map fun (_, rest) => (.null, rest)
  else (readString fuel [] cs).map fun (s, rest) => (.str s, rest)

/-- A key behind its opening quote. The keys of an object that is passed over are passed over. -/
def keyText (o : Outline) (fuel : Nat) (cs : List Char) : Except Stop (String × List Char) :=
  if o.isSkipped then (passString fuel cs).map fun (_, rest) => ("", rest)
  else readString fuel [] cs

/-- The colon behind a key. -/
def readColon (cs : List Char) : Except Stop (Unit × List Char) :=
  match skipSpace cs with
  | ':' :: rest => .ok ((), rest)
  | [] => behind .endInObject []
  | rest => here .noColon rest

mutual

/-- A value, as far as an outline goes. `depth` is how many more arrays and objects may be opened
inside each other. Of two rounds at least one takes a character, so that twice the length of the
text and one more is fuel enough. -/
def readValue (fuel depth : Nat) (o : Outline) (cs : List Char) :
    Except Stop (Json × List Char) :=
  match fuel with
  | 0 => behind .endInValue cs
  | fuel + 1 =>
    match skipSpace cs with
    | [] => behind .endInValue []
    | 'n' :: rest => readWord .null ['u', 'l', 'l'] rest
    | 't' :: rest => readWord (.bool true) ['r', 'u', 'e'] rest
    | 'f' :: rest => readWord (.bool false) ['a', 'l', 's', 'e'] rest
    | '"' :: rest => stringValue o fuel rest
    | '-' :: rest => numberValue o true rest
    | '[' :: rest =>
      match o.open? depth with
      | none => here .tooDeep ('[' :: rest)
      | some depth => (readItems fuel depth o true rest).map fun (xs, rest) => (.arr xs, rest)
    | '\x7b' :: rest =>
      match o.open? depth with
      | none => here .tooDeep ('\x7b' :: rest)
      | some depth => (readFields fuel depth o true rest).map fun (fs, rest) => (.obj fs, rest)
    | c :: rest =>
      if Text.isAsciiDigit c then numberValue o false (c :: rest)
      else here .noValue (c :: rest)

/-- The items of an array up to its closing bracket. -/
def readItems (fuel depth : Nat) (o : Outline) (first : Bool) (cs : List Char) :
    Except Stop (List Json × List Char) :=
  match fuel with
  | 0 => behind .endInList cs
  | fuel + 1 =>
    match skipSpace cs with
    | [] => behind .endInList []
    | ']' :: rest => .ok ([], rest)
    | c :: rest =>
      let start : Except Stop (Unit × List Char) :=
        if first then .ok ((), c :: rest)
        else if c = ',' then
          match skipSpace rest with
          | [] => behind .endInValue []
          | ']' :: rest => here .trailingComma (']' :: rest)
          | rest => .ok ((), rest)
        else here .openList (c :: rest)
      do
        let (_, rest) ← start
        let (x, rest) ← readValue fuel depth o.item rest
        let (xs, rest) ← readItems fuel depth o.behindItem false rest
        return (x :: xs, rest)

/-- The fields of an object up to its closing brace. -/
def readFields (fuel depth : Nat) (o : Outline) (first : Bool) (cs : List Char) :
    Except Stop (List (String × Json) × List Char) :=
  match fuel with
  | 0 => behind .endInObject cs
  | fuel + 1 =>
    match skipSpace cs with
    | [] => behind .endInObject []
    | '\x7d' :: rest => .ok ([], rest)
    | c :: rest =>
      let start : Except Stop (Unit × List Char) :=
        if first then if c = '"' then .ok ((), rest) else here .badKey (c :: rest)
        else if c = ',' then
          match skipSpace rest with
          | [] => behind .endInValue []
          | '"' :: rest => .ok ((), rest)
          | '\x7d' :: rest => here .trailingComma ('\x7d' :: rest)
          | rest => here .badKey rest
        else here .openObject (c :: rest)
      do
        let (_, rest) ← start
        let (k, rest) ← keyText o fuel rest
        let (_, rest) ← readColon rest
        let (v, rest) ← readValue fuel depth (o.field k) rest
        let (fs, rest) ← readFields fuel depth o false rest
        return ((k, v) :: fs, rest)

end

/-- How many arrays and objects may be open at once. -/
def depthLimit : Nat := 127

/-- The value that makes up the whole text, as far as an outline goes. -/
def readAll (o : Outline) (cs : List Char) : Except Stop Json := do
  let (value, rest) ← readValue (2 * cs.length + 1) depthLimit o cs
  match skipSpace rest with
  | [] => .ok value
  | rest => .error ⟨.trailingText, rest, 1⟩

/-! ## Places -/

/-- The line, from 1, and the column after the first `bytes` bytes of a text. -/
def placeAfter (line column bytes : Nat) : List Char → Nat × Nat
  | [] => (line, column)
  | c :: rest =>
    if bytes = 0 then (line, column)
    else if c = '\n' then placeAfter (line + 1) 0 (bytes - 1) rest
    else placeAfter line (column + min bytes c.utf8Size) (bytes - c.utf8Size) rest

/-- A text that holds no JSON value. -/
structure SyntaxError where
  /-- What is wrong. -/
  fault : Fault
  /-- The line, from 1. -/
  line : Nat
  /-- The bytes read on that line. -/
  column : Nat
  deriving DecidableEq, Repr

/-- The words for a syntax error. -/
def SyntaxError.message (e : SyntaxError) : String :=
  e.fault.words ++ " at line " ++ toString e.line ++ " column " ++ toString e.column

/-- Reads the parts of the value that a text holds. -/
def readParts (o : Outline) (s : String) : Except SyntaxError Json :=
  match readAll o s.toList with
  | .ok value => .ok value
  | .error stop =>
    let cs := s.toList
    let bytes := byteCount cs - byteCount stop.rest + stop.seen
    let (line, column) := placeAfter 1 0 bytes cs
    .error ⟨stop.fault, line, column⟩

/-- Reads the value that a text holds. -/
def read (s : String) : Except SyntaxError Json := readParts .whole s

/-- Reads the value that a text holds, in canonical form. -/
def readFree (s : String) : Except SyntaxError Json := (read s).map canonical

end AgentRun.Json
