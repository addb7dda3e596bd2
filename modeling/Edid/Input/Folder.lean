/-
**Folders.** A working directory that holds a few files and no other directory. A path is followed
part by part: `.` stays, `..` goes up, a name that is not there ends the search, and nothing can
follow a file. Directories above the folder are there, and what else they hold is not known.
-/

import Edid.Field
import Edid.Input.FileError

namespace Edid

/-- The files of a working directory by name. -/
abbrev Folder := List (String × Bytes)

namespace Folder

/-- The longest path and the longest part of one, in bytes. -/
def longestPath : Nat := 4095

/-- The longest name of a file, in bytes. -/
def longestName : Nat := 255

/-- Where a path has led so far. -/
inductive Place where
  /-- The folder itself, or a directory the given number of steps above it. -/
  | directory (above : Nat)
  | root
  | file (content : Bytes)
deriving DecidableEq

def step (folder : Folder) (place : Place) (part : String) : Except FileError Place :=
  match place with
  | .file _ => .error .notADirectory
  | .root =>
      if part = "." ∨ part = ".." then .ok .root
      else if longestName < part.utf8ByteSize then .error .nameTooLong
      else .error .notFound
  | .directory above =>
      if part = "." then .ok (.directory above)
      else if part = ".." then .ok (.directory (above + 1))
      else if longestName < part.utf8ByteSize then .error .nameTooLong
      else if above = 0 then
        match folder.lookup part with
        | some content => .ok (.file content)
        | none => .error .notFound
      else .error .notFound

def follow (folder : Folder) (place : Place) : List String → Except FileError Place
  | [] => .ok place
  | part :: rest =>
      match step folder place part with
      | .error cause => .error cause
      | .ok next => follow folder next rest

/-- The pieces of a path between its strokes, empty ones included. -/
def pieces : List Char → List (List Char)
  | [] => [[]]
  | character :: rest =>
      if character = '/' then [] :: pieces rest
      else
        match pieces rest with
        | [] => [[character]]
        | first :: others => (character :: first) :: others

/-- The parts of a path; a stroke at its end asks for a directory, as a last part `.` does. -/
def parts (path : List Char) : List String :=
  let named := (pieces path).filter fun piece => !piece.isEmpty
  (named.map String.ofList) ++ if path.getLast? = some '/' then ["."] else []

def read (folder : Folder) (path : String) : Except FileError Bytes :=
  let characters := path.toList
  if characters = [] then .error .notFound
  else if longestPath < path.utf8ByteSize then .error .nameTooLong
  else
    let start := if characters.head? = some '/' then Place.root else .directory 0
    match follow folder start (parts characters) with
    | .error cause => .error cause
    | .ok (.file content) => .ok content
    | .ok _ => .error .isADirectory

end Folder

end Edid
