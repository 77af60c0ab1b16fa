import AgentRun.Json.Document

/-!
# Skills

A skill is a named block of instructions. The skills that an agent declares make up a catalog that
goes behind its system prompt.
-/

namespace AgentRun

/-- A named block of instructions. -/
structure Skill where
  name : String
  /-- What it is for. -/
  description : String
  instructions : String
  deriving DecidableEq, Repr

namespace Skill

/-- The document of a skill. -/
def toJson (s : Skill) : Json :=
  .obj [("name", .str s.name), ("description", .str s.description),
    ("instructions", .str s.instructions)]

/-- What is looked at of the document of a skill. -/
def outline : Outline :=
  .flat ["name", "description", "instructions"]

/-- Reads the document of a skill. -/
def ofJson? (j : Json) : Option Skill := do
  let r ← j.record? outline.names
  return {
    name := ← r.required "name" Json.str?
    description := ← r.orElse "description" "" Json.str?
    instructions := ← r.required "instructions" Json.str? }

instance : Documented Skill := ⟨outline, ofJson?, toJson⟩

/-- The skill as an entry of a catalog. -/
def entry (s : Skill) : String :=
  "<skill name=\"" ++ s.name ++ "\" description=\"" ++ s.description ++ "\">\n" ++
    s.instructions ++ "\n</skill>"

end Skill

/-- The skills there are, by ascending names. -/
structure SkillRegistry where
  skills : List Skill
  deriving DecidableEq, Repr

namespace SkillRegistry

/-- No skills. -/
def empty : SkillRegistry := ⟨[]⟩

/-- Puts a skill into skills by ascending names, in the place of one of the same name. -/
def insert (s : Skill) : List Skill → List Skill
  | [] => [s]
  | t :: rest =>
    if s.name < t.name then s :: t :: rest
    else if s.name = t.name then s :: rest
    else t :: insert s rest

/-- Registers a skill. -/
def register (r : SkillRegistry) (s : Skill) : SkillRegistry := ⟨insert s r.skills⟩

/-- Registers skills in order. -/
def ofList (skills : List Skill) : SkillRegistry := skills.foldl register empty

/-- The skill of a name. -/
def get? (r : SkillRegistry) (name : String) : Option Skill := r.skills.find? fun s => s.name == name

/-- The names of the skills, ascending. -/
def names (r : SkillRegistry) : List String := r.skills.map Skill.name

/-- The catalog of the named skills, in order; names without a skill are passed over, and no
catalog is made of no skills. -/
def catalog? (r : SkillRegistry) (names : List String) : Option String :=
  match names.filterMap r.get? with
  | [] => none
  | skills => some ("<skills>\n" ++ "\n".intercalate (skills.map Skill.entry) ++ "\n</skills>")

end SkillRegistry

/-- A system prompt with a catalog behind it, if there is one. -/
def withCatalog (base : String) : Option String → String
  | none => base
  | some catalog => if base = "" then catalog else base ++ "\n\n" ++ catalog

end AgentRun
