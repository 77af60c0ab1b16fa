import AgentRun.Text.Ascii

/-!
# Identifiers

Runs, agents, tool calls, plans, tasks and text blocks are named by texts. A name that comes from
outside is kept as it is; a name that is minted here is the prefix of its kind, an underscore and a
UUID. A supply of UUIDs is a function from a count to texts (`Supply`), so that fresh names are the
names of fresh counts.
-/

namespace AgentRun

/-- What an identifier names. -/
inductive IdKind where
  /-- One processing of a user turn. -/
  | run
  /-- An agent definition. -/
  | agent
  /-- A tool call. -/
  | call
  | plan
  /-- A task of a plan. -/
  | task
  /-- A block of text. -/
  | block
  deriving DecidableEq, Repr

/-- The start of the minted names of a kind. -/
def IdKind.tag : IdKind → String
  | .run => "run"
  | .agent => "agent"
  | .call => "call"
  | .plan => "plan"
  | .task => "task"
  | .block => "blk"

/-- The minted name with a UUID. -/
def IdKind.withUuid (kind : IdKind) (uuid : String) : String := kind.tag ++ "_" ++ uuid

/-- A supply of UUIDs, by count. -/
abbrev Supply := Nat → String

/-- The name of a kind with the UUID of a count. -/
def IdKind.mint (kind : IdKind) (supply : Supply) (count : Nat) : String :=
  kind.withUuid (supply count)

namespace Uuid

/-- A hexadecimal digit, in any case. -/
def isHex (c : Char) : Bool :=
  Text.isAsciiDigit c || (decide ('a' ≤ c) && decide (c ≤ 'f')) ||
    (decide ('A' ≤ c) && decide (c ≤ 'F'))

/-- The groups of a UUID with hyphens between them. -/
def isHyphenated (cs : List Char) : Bool :=
  cs.length == 36 &&
    cs.zipIdx.all fun (c, i) => if [8, 13, 18, 23].contains i then c == '-' else isHex c

/-- A UUID as 32 digits. -/
def isPlain (cs : List Char) : Bool := cs.length == 32 && cs.all isHex

/-- The rest of a text behind a given beginning. -/
def after? : List Char → List Char → Option (List Char)
  | [], cs => some cs
  | p :: ps, c :: cs => if p = c then after? ps cs else none
  | _ :: _, [] => none

/-- A UUID between braces. -/
def isBraced (cs : List Char) : Bool :=
  match cs with
  | '\x7b' :: rest => rest.getLast? == some '\x7d' && isHyphenated rest.dropLast
  | _ => false

/-- A UUID as a URN, whose start may be in any case. -/
def isUrn (cs : List Char) : Bool :=
  Text.sameLetters (String.ofList (cs.take 9)) "urn:uuid:" && isHyphenated (cs.drop 9)

/-- Any of the written forms of a UUID. -/
def isText (cs : List Char) : Bool := isPlain cs || isHyphenated cs || isBraced cs || isUrn cs

/-- The digits of `n` in base 16, the last `width` of them. -/
def hex (width n : Nat) : List Char :=
  match width with
  | 0 => []
  | width + 1 => hex width (n / 16) ++ [Nat.digitChar (n % 16)]

/-- The UUID of version 7 with a time in milliseconds and a number that tells it from others of the
same time. -/
def timed (ms n : Nat) : String :=
  String.ofList (hex 8 (ms / 65536) ++ '-' :: hex 4 ms ++ '-' :: '7' :: hex 3 (n / Nat.pow 2 60) ++
    '-' :: '8' :: hex 3 (n / Nat.pow 2 48) ++ '-' :: hex 12 n)

end Uuid

/-- Whether a name has the form of a minted name of a kind. -/
def IdKind.isMinted (kind : IdKind) (name : String) : Bool :=
  ((Uuid.after? (kind.tag ++ "_").toList name.toList).map Uuid.isText).getD false

end AgentRun
