import AgentRun.Text.Visible

/-!
# Quoted text

A text between double quotes as messages show it: the quote and the backslash are escaped, four
control characters have short escapes, and what cannot be shown is written by its code point.
-/

namespace AgentRun.Text

/-- A code point in lower-case hexadecimal between braces, as in `\u{7f}`. -/
def codePoint (n : Nat) : List Char :=
  ['\\', 'u', '\x7b'] ++ Nat.toDigits 16 n ++ ['\x7d']

/-- One character of a quoted text. -/
def quotedChar (c : Char) : List Char :=
  if c = '"' then ['\\', '"']
  else if c = '\\' then ['\\', '\\']
  else if c = '\t' then ['\\', 't']
  else if c = '\r' then ['\\', 'r']
  else if c = '\n' then ['\\', 'n']
  else if c.toNat = 0 then ['\\', '0']
  else if isHidden c then codePoint c.toNat
  else [c]

/-- A text between double quotes with its escapes. -/
def quoted (s : String) : String :=
  String.ofList ('"' :: s.toList.flatMap quotedChar ++ ['"'])

end AgentRun.Text
