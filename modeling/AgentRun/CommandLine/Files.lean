/-!
# Files

A command reads the files that its arguments name. `FileTree` holds the files that are there, and
`FileTree.read` follows a path through it name by name, through directories only. What goes wrong on
the way is a `FileFault`, in the words of the operating system.
-/

namespace AgentRun.CommandLine

/-- Why a file cannot be read. -/
inductive FileFault where
  /-- A name on the path is not there. -/
  | missing
  /-- The path goes on behind a file. -/
  | notDirectory
  /-- The path ends at a directory. -/
  | isDirectory
  /-- The path or one of its names is too long. -/
  | nameTooLong
  /-- The path holds a NUL, behind which the operating system would not look. -/
  | nulByte
  /-- The bytes of the file are no text. -/
  | notText
  /-- Something else, in its own words. -/
  | other (text : String)
  deriving DecidableEq, Repr

/-- The words for a fault. -/
def FileFault.message : FileFault → String
  | .missing => "No such file or directory (os error 2)"
  | .notDirectory => "Not a directory (os error 20)"
  | .isDirectory => "Is a directory (os error 21)"
  | .nameTooLong => "File name too long (os error 36)"
  | .nulByte => "file name contained an unexpected NUL byte"
  | .notText => "stream did not contain valid UTF-8"
  | .other text => text

/-- The most bytes of a name. -/
def nameLimit : Nat := 255

/-- The bytes that a path must stay below. -/
def pathLimit : Nat := 4096

/-- A place in a tree: the names on the way from there up to the root. -/
abbrev Place := List String

/-- The directories and the files that are there. -/
structure FileTree where
  /-- Directories. Those above them, above a file and above the home are there too. -/
  directories : List Place
  /-- The files with their texts. -/
  files : List (Place × String)
  /-- The directory in which a path begins that does not begin at the root. -/
  home : Place
  deriving DecidableEq, Repr

/-- The parts of a path between its slashes. -/
def pathParts : List Char → List (List Char)
  | [] => [[]]
  | c :: cs =>
    if c = '/' then [] :: pathParts cs
    else match pathParts cs with
      | [] => [[c]]
      | part :: parts => (c :: part) :: parts

namespace FileTree

/-- Whether a directory is at a place. -/
def isDirectory (t : FileTree) (place : Place) : Bool :=
  (t.home :: t.directories ++ t.files.map fun f => f.1.tail).any fun d => place.isSuffixOf d

/-- Whether anything is at a place. -/
def isThere (t : FileTree) (place : Place) : Bool :=
  t.isDirectory place || (t.files.lookup place).isSome

/-- The place that one part of a path leads to. An empty part stays where it is, but only in a
directory, so that a slash at the end of a path asks for one. -/
def follow (t : FileTree) (place : Place) (part : List Char) : Except FileFault Place :=
  let name := String.ofList part
  if !t.isDirectory place then .error .notDirectory
  else if name = "" ∨ name = "." then .ok place
  else if name = ".." then .ok place.tail
  else if nameLimit < name.utf8ByteSize then .error .nameTooLong
  else if t.isThere (name :: place) then .ok (name :: place)
  else .error .missing

/-- The place that a path leads to. -/
def locate (t : FileTree) (path : List Char) : Except FileFault Place :=
  (pathParts path).foldlM t.follow (if path.head? = some '/' then [] else t.home)

/-- The text of the file that a path leads to. -/
def read (t : FileTree) (path : String) : Except FileFault String :=
  if path.toList.contains '\x00' then .error .nulByte
  else if path = "" then .error .missing
  else if pathLimit ≤ path.utf8ByteSize then .error .nameTooLong
  else
    match t.locate path.toList with
    | .error fault => .error fault
    | .ok place =>
      match t.files.lookup place with
      | some text => .ok text
      | none => .error .isDirectory

end FileTree

end AgentRun.CommandLine
