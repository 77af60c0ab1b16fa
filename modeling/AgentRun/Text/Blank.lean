/-!
# Blank characters

A character is blank when it has the Unicode property `White_Space`. Names, task descriptions and
settings are read with the blanks around them removed.
-/

namespace AgentRun.Text

/-- The Unicode property `White_Space`. -/
def isBlank (c : Char) : Bool :=
  let n := c.toNat
  (0x09 ≤ n && n ≤ 0x0D) || n == 0x20 || n == 0x85 || n == 0xA0 || n == 0x1680 ||
    (0x2000 ≤ n && n ≤ 0x200A) || n == 0x2028 || n == 0x2029 || n == 0x202F || n == 0x205F ||
    n == 0x3000

/-- The characters without the blanks at both ends. -/
def trimmed (cs : List Char) : List Char :=
  ((cs.dropWhile isBlank).reverse.dropWhile isBlank).reverse

/-- A text without the blanks at both ends. -/
def trim (s : String) : String :=
  String.ofList (trimmed s.toList)

/-- Whether a text holds no character other than blanks. -/
def isBlankText (s : String) : Bool :=
  s.toList.all isBlank

end AgentRun.Text
