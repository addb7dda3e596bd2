/-
**Words of a command line.** Before it is known what an option means, a word is told apart by its
form: the double dash after which nothing is an option, a long option with or without an attached
value, a cluster of short options, or plain text. A single dash is plain text, and so is the empty
word.

* `classify_cluster`: the letters of a cluster are never empty.
-/

namespace Edid

/-- The form of a word. -/
inductive Word where
  | endOfOptions
  /-- `--name` or `--name=value`. -/
  | long (name : List Char) (attached : Option (List Char))
  /-- `-abc`, a cluster of letters. -/
  | cluster (letters : List Char)
  | plain
deriving DecidableEq

namespace Word

/-- What stands before the first equals sign, and what stands after it if there is one. -/
def splitAttached : List Char → List Char × Option (List Char)
  | [] => ([], none)
  | character :: rest =>
      if character = '=' then ([], some rest)
      else
        let (name, attached) := splitAttached rest
        (character :: name, attached)

def classify (word : List Char) : Word :=
  match word with
  | ['-', '-'] => endOfOptions
  | '-' :: '-' :: rest => long (splitAttached rest).1 (splitAttached rest).2
  | '-' :: letter :: rest => cluster (letter :: rest)
  | _ => plain

/-- **A cluster** is what follows a single dash, and it has letters. -/
theorem classify_cluster (word letters : List Char) (form : classify word = cluster letters) :
    word = '-' :: letters ∧ letters ≠ [] := by
  unfold classify at form
  split at form
  · cases form
  · cases form
  · cases form
    exact ⟨rfl, List.cons_ne_nil _ _⟩
  · cases form

end Word

end Edid
