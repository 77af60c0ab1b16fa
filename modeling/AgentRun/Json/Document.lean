import AgentRun.Json.Reader
import AgentRun.Json.Record

/-!
# Types with documents

Many types of the library are written as documents. `Documented` joins what that takes: the outline
of the document, its reader and its writer. `Documented.ofText?` reads a value from the text of a
document, of which only the parts that the outline names have to make sense.
-/

namespace AgentRun

/-- A type whose values are written as documents. -/
class Documented (α : Type) where
  /-- The parts of a document that are looked at. -/
  outline : Outline
  /-- Reads a document. -/
  ofJson? : Json → Option α
  /-- The document of a value. -/
  toJson : α → Json

namespace Documented

/-- Reads the text of a document. -/
def ofText? {α : Type} [Documented α] (s : String) : Option α :=
  (Json.readParts (outline α) s).toOption.bind ofJson?

/-- A list is written as the array of its items. -/
instance {α : Type} [Documented α] : Documented (List α) where
  outline := .list (outline α)
  ofJson? := Json.list? ofJson?
  toJson := Json.list toJson

/-- A free value is its own document. -/
instance : Documented Json := ⟨.whole, Json.free?, id⟩

end Documented

end AgentRun
