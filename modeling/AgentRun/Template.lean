import AgentRun.Calendar.Timestamp
import AgentRun.Json.Document
import AgentRun.Text.Lower
import AgentRun.Text.Word
import AgentRun.Text.Numeral

/-!
# Argument templates

An argument may refer to an earlier result: a string that is nothing but `{{tool.field}}` stands
for that field of the latest result of the tool that has it, and `{{tool.field+3d}}` for the date
in that field three days later. `Template.ofChars?` recognises such a string and `resolve` puts the
values in, in every string of the arguments. A value that was put in is not looked at again.
-/

namespace AgentRun

/-- A reference to an earlier result. -/
structure Template where
  /-- The tool, as it is written. -/
  source : List Char
  /-- The field of its result. -/
  field : String
  /-- The number of days to add, or to take away when the sign is set. -/
  shift : Option (Bool × List Char)
  deriving DecidableEq, Repr

namespace Template

/-- The characters that end the name of the source. -/
def isSourceChar (c : Char) : Bool := c != '\x7b' && c != '\x7d' && c != '.'

/-- Reads one given character. -/
def mark (c : Char) : List Char → Option (List Char)
  | d :: rest => if d = c then some rest else none
  | [] => none

/-- Passes over blanks. -/
def blanks (cs : List Char) : List Char := cs.dropWhile Text.isBlank

/-- Reads one or more characters of a class. -/
def some1 (p : Char → Bool) (cs : List Char) : Option (List Char × List Char) :=
  if (cs.takeWhile p).isEmpty then none else some (cs.takeWhile p, cs.dropWhile p)

/-- Reads the number of days behind a sign. -/
def days (back : Bool) (cs : List Char) : Option (Option (Bool × List Char) × List Char) := do
  let (digits, rest) ← some1 Text.isDigit (blanks cs)
  match blanks rest with
  | 'd' :: rest => some (some (back, digits), rest)
  | 'D' :: rest => some (some (back, digits), rest)
  | _ => none

/-- Reads the shift of a date, if there is one. -/
def dateShift (cs : List Char) : Option (Option (Bool × List Char) × List Char) :=
  match cs with
  | '+' :: rest => days false rest
  | '-' :: rest => days true rest
  | cs => some (none, cs)

/-- Recognises a template that makes up the whole text. -/
def ofChars? (cs : List Char) : Option Template := do
  let rest ← mark '\x7b' (blanks cs)
  let rest ← mark '\x7b' rest
  let (source, rest) ← some1 isSourceChar rest
  let rest ← mark '.' rest
  let (field, rest) ← some1 Text.isWord (blanks rest)
  let (shift, rest) ← dateShift (blanks rest)
  let rest ← mark '\x7d' (blanks rest)
  let rest ← mark '\x7d' rest
  if (blanks rest).isEmpty then some ⟨source, String.ofList field, shift⟩ else none

/-- The name of a source without its blanks and in lower case, character by character. -/
def sourceKey (name : List Char) : List Char :=
  (name.filter fun c => !Text.isBlank c).flatMap Text.lowerChar

end Template

/-- A tool call of a run with what came of it. The records of a run feed the templates of later
calls. -/
structure ToolRecord where
  callId : String
  /-- The tool, as the call names it. -/
  toolName : String
  /-- The arguments after resolution. -/
  arguments : Json
  result : Json
  deriving DecidableEq, Repr

namespace ToolRecord

/-- The document of a record. -/
def toJson (r : ToolRecord) : Json :=
  .obj [("call_id", .str r.callId), ("tool_name", .str r.toolName), ("arguments", r.arguments),
    ("result", r.result)]

/-- What is looked at of the document of a record. -/
def outline : Outline :=
  .flat ["call_id", "tool_name", "arguments", "result"]

/-- Reads the document of a record. -/
def ofJson? (j : Json) : Option ToolRecord := do
  let r ← j.record? outline.names
  return {
    callId := ← r.required "call_id" Json.str?
    toolName := ← r.required "tool_name" Json.str?
    arguments := ← r.required "arguments" Json.free?
    result := ← r.required "result" Json.free? }

instance : Documented ToolRecord := ⟨outline, ofJson?, toJson⟩

end ToolRecord

/-- The date text a number of days later, or earlier. A date and the date of a timestamp can be
shifted, with the rest of the timestamp kept as it is. -/
def shiftedText? (s : String) (days : Nat) (back : Bool) : Option String :=
  let cs := Text.trimmed s.toList
  match Date.ofChars? cs with
  | some d => (d.shift? days back).map Date.text
  | none =>
    (Timestamp.split? cs).bind fun (d, rest) =>
      (d.shift? days back).map fun e => e.text ++ String.ofList rest

/-- The value of a template's shift applied to a field: `null` if the field is no date, if the
number of days is beyond 64 bits, or if the shifted date is out of range. -/
def shifted (value : Json) (back : Bool) (days : List Char) : Json :=
  match value, Text.unsignedBelow Text.word64 (String.ofList days) with
  | .str s, some n => (shiftedText? s n back).elim .null .str
  | _, _ => .null

/-- The field that a template refers to, from the latest record that has it. -/
def Template.lookup? (t : Template) (records : List ToolRecord) : Option Json :=
  (records.reverse.filter fun r =>
    sourceKey r.toolName.toList == sourceKey t.source).findSome? fun r => r.result.get? t.field

/-- What a string stands for. -/
def resolveText (records : List ToolRecord) (s : String) : Json :=
  match Template.ofChars? s.toList with
  | none => .str s
  | some t =>
    match t.lookup? records with
    | none => .str s
    | some value =>
      match t.shift with
      | none => value
      | some (back, days) => shifted value back days

mutual

/-- The arguments with every template resolved against the records, which are oldest first. -/
def resolve (records : List ToolRecord) : Json → Json
  | .null => .null
  | .bool b => .bool b
  | .num n => .num n
  | .str s => resolveText records s
  | .arr items => .arr (resolveItems records items)
  | .obj fields => .obj (resolveFields records fields)
termination_by structural j => j

/-- The items of an array with every template resolved. -/
def resolveItems (records : List ToolRecord) : List Json → List Json
  | [] => []
  | x :: rest => resolve records x :: resolveItems records rest
termination_by structural items => items

/-- The fields of an object with every template in their values resolved. -/
def resolveFields (records : List ToolRecord) : List (String × Json) → List (String × Json)
  | [] => []
  | f :: rest => resolveField records f :: resolveFields records rest
termination_by structural fields => fields

/-- A field with every template in its value resolved. -/
def resolveField (records : List ToolRecord) : String × Json → String × Json
  | (k, v) => (k, resolve records v)
termination_by structural field => field

end

end AgentRun
