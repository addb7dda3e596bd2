/-
**Invocations.** What the arguments of the program ask for: a command with its options and how
much to log, or one of the reasons why no command runs. Help and the version are such reasons too,
and the only ones that count as success.
-/

import Edid.Presentation

namespace Edid

/-- A command with its options. -/
inductive Command where
  | info (input : String) (format : Format)
  | resolutions (input : String)
  | descriptors (input : String) (raw : Bool)
  | sample (format : Format)
deriving DecidableEq

namespace Command

def path? : Command → Option String
  | info path _ => some path
  | resolutions path => some path
  | descriptors path _ => some path
  | sample _ => none

end Command

/-- What the arguments ask for. -/
structure Invocation where
  verbosity : Nat
  command : Command
deriving DecidableEq

/-- Why no command runs. -/
inductive Refusal where
  | help
  | version
  | noArguments
  /-- There are options and no command. -/
  | noCommand
  | noInput
  | unknownCommand
  | unknownArgument
  /-- An option or an input has no value, or none of those it can have. -/
  | invalidValue
  /-- A flag has a value. -/
  | surplusValue
  | repeatedOption
deriving DecidableEq

namespace Refusal

def exitCode : Refusal → Nat
  | help => 0
  | version => 0
  | _ => 2

end Refusal

end Edid
