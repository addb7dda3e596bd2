/-
**Why a file cannot be read.** The causes that a system names, each with its number, its name and
the sentence it is reported with.
-/

namespace Edid

/-- Why a file could not be read. -/
inductive FileError where
  | notFound
  | permissionDenied
  | notADirectory
  | isADirectory
  | nameTooLong
  | inputOutput
deriving DecidableEq

namespace FileError

def code : FileError → Nat
  | notFound => 2
  | permissionDenied => 13
  | notADirectory => 20
  | isADirectory => 21
  | nameTooLong => 36
  | inputOutput => 5

def kind : FileError → String
  | notFound => "NotFound"
  | permissionDenied => "PermissionDenied"
  | notADirectory => "NotADirectory"
  | isADirectory => "IsADirectory"
  | nameTooLong => "InvalidFilename"
  | inputOutput => "Uncategorized"

def reason : FileError → String
  | notFound => "No such file or directory"
  | permissionDenied => "Permission denied"
  | notADirectory => "Not a directory"
  | isADirectory => "Is a directory"
  | nameTooLong => "File name too long"
  | inputOutput => "Input/output error"

def message (cause : FileError) : String :=
  cause.reason ++ " (os error " ++ toString cause.code ++ ")"

end FileError

end Edid
