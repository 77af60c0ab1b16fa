/-!
# Outlines of documents

A reader that knows what it will look at need not understand the rest of a document. An outline says
which parts of a value are looked at; what is not is only passed over. A value that is passed over
must be well formed, but its numbers may be of any size, its escapes may stand for any code unit and
its arrays and objects may be nested to any depth.
-/

namespace AgentRun

/-- The parts of a value that its reader looks at. -/
inductive Outline where
  /-- None: the value is passed over. -/
  | skipped
  /-- All of them. -/
  | whole
  /-- The items of an array. -/
  | list (item : Outline)
  /-- The parts of a record, by their names and in their order. -/
  | record (parts : List (String × Outline))
  deriving Repr

namespace Outline

/-- The outline of a record whose parts are looked at as a whole. -/
def flat (names : List String) : Outline := .record (names.map fun name => (name, .whole))

/-- Whether nothing is looked at. -/
def isSkipped : Outline → Bool
  | .skipped => true
  | _ => false

/-- The names of the parts of a record. -/
def names : Outline → List String
  | .record parts => parts.map Prod.fst
  | _ => []

/-- What is looked at of a field of an object. -/
def field (key : String) : Outline → Outline
  | .skipped => .skipped
  | .record parts => (parts.lookup key).getD .skipped
  | _ => .whole

/-- What is looked at of the first of the items that are left of an array. -/
def item : Outline → Outline
  | .skipped => .skipped
  | .list item => item
  | .record ((_, first) :: _) => first
  | _ => .whole

/-- What is looked at of the items behind the first. -/
def behindItem : Outline → Outline
  | .record (_ :: rest) => .record rest
  | o => o

/-- How many more arrays and objects may be opened inside one that is opened with `depth` to go;
`none` if it may not be opened. Nesting counts only where something is looked at. -/
def open? (o : Outline) : Nat → Option Nat
  | 0 => if o.isSkipped then some 0 else none
  | depth + 1 => some (if o.isSkipped then depth + 1 else depth)

end Outline

end AgentRun
