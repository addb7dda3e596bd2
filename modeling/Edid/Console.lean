/-
**Commands as data.** A command prints and logs on its way to a result or an error, and what it
printed before an error stands. A console computation returns its value with all of this; the
outer layer decides what reaches the screen.

* `value_run_bind`, `printed_run_bind`, `records_run_bind`: a failure ends a computation, and what
  was printed and logged stands.
-/

import Edid.Log

namespace Edid

/-- A value, the text printed and the records made on the way to it. -/
structure Console (α : Type) where
  value : α
  printed : String
  records : List Record

namespace Console

variable {α β : Type}

/-- Runs one computation after the other and joins what they printed and reported. -/
protected def bind (first : Console α) (next : α → Console β) : Console β :=
  let second := next first.value
  ⟨second.value, first.printed ++ second.printed, first.records ++ second.records⟩

instance : Monad Console where
  pure value := ⟨value, "", []⟩
  bind := Console.bind

def ofLogged (computation : Logged α) : Console α :=
  ⟨computation.value, "", computation.records⟩

instance : MonadLift Logged Console := ⟨ofLogged⟩

def print (text : String) : Console Unit := ⟨(), text, []⟩

def note (level : Level) (message : String) : Console Unit := ofLogged (Logged.note level message)

@[simp]
theorem value_bind (first : Console α) (next : α → Console β) :
    (first >>= next).value = (next first.value).value := rfl

@[simp]
theorem printed_bind (first : Console α) (next : α → Console β) :
    (first >>= next).printed = first.printed ++ (next first.value).printed := rfl

@[simp]
theorem records_bind (first : Console α) (next : α → Console β) :
    (first >>= next).records = first.records ++ (next first.value).records := rfl

variable {ε : Type}

/-- The value of a computation that may fail: the rest is reached only without a failure. -/
theorem value_run_bind (first : ExceptT ε Console α) (next : α → ExceptT ε Console β) :
    (first >>= next).run.value =
      match first.run.value with
      | .ok value => (next value).run.value
      | .error failure => .error failure := by
  rw [ExceptT.run_bind, value_bind]
  cases first.run.value <;> rfl

/-- What is printed before a failure stands, and nothing follows it. -/
theorem printed_run_bind (first : ExceptT ε Console α) (next : α → ExceptT ε Console β) :
    (first >>= next).run.printed =
      first.run.printed ++
        match first.run.value with
        | .ok value => (next value).run.printed
        | .error _ => "" := by
  rw [ExceptT.run_bind, printed_bind]
  cases first.run.value <;> rfl

/-- The records before a failure stand, and nothing follows them. -/
theorem records_run_bind (first : ExceptT ε Console α) (next : α → ExceptT ε Console β) :
    (first >>= next).run.records =
      first.run.records ++
        match first.run.value with
        | .ok value => (next value).run.records
        | .error _ => [] := by
  rw [ExceptT.run_bind, records_bind]
  cases first.run.value <;> rfl

end Console

end Edid
