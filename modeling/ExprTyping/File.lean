import ExprTyping.Bindings

/-!
# Files

The files that a command can open, by their paths relative to the working directory. A path is
looked up by its parts; empty parts and single dots name the place they stand at.
-/

namespace ExprTyping

/-- Why a file cannot be read. -/
inductive FileError where
  /-- There is no such file. -/
  | missing (path : Text)
  /-- There is a directory in its place. -/
  | directory (path : Text)
  /-- A part of the path that should be a directory is a file. -/
  | notDirectory (path : Text)
  /-- It is there and cannot be opened, for a reason. -/
  | unopened (path reason : Text)
  deriving DecidableEq, Repr

/-- The message of a file error. -/
def FileError.message : FileError → Text
  | .missing path => "open " ++ path ++ ": no such file or directory"
  | .directory path => "read " ++ path ++ ": is a directory"
  | .notDirectory path => "open " ++ path ++ ": not a directory"
  | .unopened path reason => "open " ++ path ++ ": " ++ reason

/-- The files below the working directory, by their paths. -/
abbrev Files := Bindings Text

namespace Files

/-- The parts of a path between slashes. -/
def rawParts : Text → List Text
  | [] => [[]]
  | g :: t =>
    if g = .char '/' then [] :: rawParts t
    else match rawParts t with
      | [] => [[g]]
      | part :: parts => (g :: part) :: parts

/-- Whether a part of a path names the place it stands at. -/
def isHere (part : Text) : Bool :=
  part.isEmpty || part == Text.ofString "."

/-- The parts of a path that lead somewhere. -/
def parts (path : Text) : List Text :=
  (rawParts path).filter (!isHere ·)

/-- Whether a path says that it names a directory, by ending in a slash or a dot. -/
def endsHere (path : Text) : Bool :=
  match (rawParts path).getLast? with
  | some part => isHere part
  | none => true

/-- Whether a path leads up from the working directory and no further. -/
def leadsUp (path : Text) : Bool :=
  !(parts path).isEmpty && (parts path).all (· == Text.ofString "..")

/-- The file at some parts of a path. -/
def at? (files : Files) (ps : List Text) : Option Text :=
  (files.entries.find? fun entry => parts entry.1 == ps).map Prod.snd

/-- Reads a file. -/
def read (files : Files) (path : Text) : Except FileError Text :=
  let ps := parts path
  if path.isEmpty then .error (.missing path)
  else if ps.isEmpty || leadsUp path then .error (.directory path)
  else match files.at? ps with
    | some content => if endsHere path then .error (.notDirectory path) else .ok content
    | none =>
      if files.entries.any fun entry => ps.isPrefixOf (parts entry.1) then
        .error (.directory path)
      else if files.entries.any fun entry => (parts entry.1).isPrefixOf ps then
        .error (.notDirectory path)
      else .error (.missing path)

end Files

end ExprTyping
