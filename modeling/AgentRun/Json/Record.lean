import AgentRun.Json.Basic
import AgentRun.Text.Numeral

/-!
# Reading records

A record is written as an object with a field for each part, or as an array of the parts in their
order. In an object, fields that the record does not know are passed over, and a known field may
stand only once. A missing part takes its default if it has one; `null` is a value only of the
parts that may be absent.

`Json.record?` looks at the shape and gives the parts that are there, and `Record.required`,
`Record.optional` and `Record.orElse` read one of them. The reading functions of the types of the
library are built from these.
-/

namespace AgentRun

/-- The parts of a record that a document gives, by their names. -/
abbrev Record := List (String × Json)

namespace Json

/-- The parts named by `names` that a value gives, each at most once. -/
def record? (names : List String) : Json → Option Record
  | .obj fields =>
    let known := fields.filter fun f => names.contains f.1
    if (known.map Prod.fst).Nodup then some known else none
  | .arr items => if items.length ≤ names.length then some (names.zip items) else none
  | _ => none

/-- The tag of a tagged record, and the record without it: the field `tag` of an object, which may
stand only once, or the first item of an array. -/
def tagged? (tag : String) : Json → Option (String × Json)
  | .obj fields =>
    match fields.filter fun f => f.1 == tag with
    | [(_, .str value)] => some (value, .obj (fields.filter fun f => f.1 != tag))
    | _ => none
  | .arr (.str value :: items) => some (value, .arr items)
  | _ => none

/-- A word out of a list of words with their meanings, alone or as the key of a single `null`. -/
def word? {α : Type} (words : List (String × α)) : Json → Option α
  | .str s => words.lookup s
  | .obj [(s, .null)] => words.lookup s
  | _ => none

/-- A word out of a list of words inside a tagged record. There an empty object stands for `null`
too. -/
def innerWord? {α : Type} (words : List (String × α)) : Json → Option α
  | .obj [(s, .obj [])] => words.lookup s
  | j => j.word? words

/-- A truth value. -/
def bool? : Json → Option Bool
  | .bool b => some b
  | _ => none

/-- A natural number below a bound, written as an integer. -/
def natBelow? (bound : Nat) : Json → Option Nat
  | .num (.int i) => if 0 ≤ i ∧ i < bound then some i.toNat else none
  | _ => none

/-- A number that fits in 16 bits. -/
def word16? : Json → Option Nat := natBelow? 65536

/-- A number that fits in 32 bits. -/
def word32? : Json → Option Nat := natBelow? Text.word32

/-- A number that fits in 64 bits. -/
def word64? : Json → Option Nat := natBelow? Text.word64

/-- A binary64 number; an integer is rounded to one. -/
def float? : Json → Option Decimal.Binary
  | .num (.float f) => some f
  | .num (.int i) => Decimal.Binary.ofInt? i
  | _ => none

/-- An array all of whose items can be read. -/
def list? {α : Type} (read : Json → Option α) : Json → Option (List α)
  | .arr items => items.mapM read
  | _ => none

/-- A free value, in canonical form. -/
def free? (j : Json) : Option Json := some j.canonical

/-- An array with the written form of each item. -/
def list {α : Type} (write : α → Json) (items : List α) : Json := .arr (items.map write)

/-- A field of an object, unless it is `null`. -/
def part? (j : Json) (key : String) : Option Json :=
  match j.get? key with
  | some .null => none
  | value => value

/-- The text in a field, or another when there is none. -/
def textPart (j : Json) (key : String) (default : String) : String :=
  ((j.part? key).bind str?).getD default

/-- The number in a field, or another when there is none. -/
def natPart (j : Json) (key : String) (default : Nat) : Nat :=
  ((j.part? key).bind word64?).getD default

/-- The items in a field, if there are any. -/
def itemsPart (j : Json) (key : String) : List Json := ((j.part? key).bind items?).getD []

/-- The texts in a field. -/
def textsPart (j : Json) (key : String) : List String := (j.itemsPart key).filterMap str?

/-- A value that may be absent, as itself or `null`. -/
def ofOption {α : Type} (write : α → Json) : Option α → Json
  | some a => write a
  | none => .null

end Json

namespace Record

/-- A part that must be there. -/
def required {α : Type} (r : Record) (name : String) (read : Json → Option α) : Option α :=
  (r.lookup name).bind read

/-- A part that may be missing or `null`. -/
def optional {α : Type} (r : Record) (name : String) (read : Json → Option α) :
    Option (Option α) :=
  match r.lookup name with
  | none => some none
  | some .null => some none
  | some j => (read j).map some

/-- A part that has a default. -/
def orElse {α : Type} (r : Record) (name : String) (default : α) (read : Json → Option α) :
    Option α :=
  match r.lookup name with
  | none => some default
  | some j => read j

/-- The written form of a part that may be absent: no field at all when it is. -/
def maybe {α : Type} (name : String) (write : α → Json) : Option α → Record
  | some a => [(name, write a)]
  | none => []

/-- The written form of a list that is left out when it is empty. -/
def unlessEmpty {α : Type} (name : String) (write : α → Json) (items : List α) : Record :=
  if items.isEmpty then [] else [(name, Json.list write items)]

end Record

end AgentRun
