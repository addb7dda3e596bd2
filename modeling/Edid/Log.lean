/-
**Log records as data.** A decoder that has something to report returns its value together with
the records it made, in order; nothing is written on the way. Which of the records a reader sees
is decided afterwards by a threshold.
-/

namespace Edid

/-- How weighty a record is, the weightiest first. -/
inductive Level where
  | error | warn | info | debug | trace
deriving DecidableEq

namespace Level

/-- The place of a level: the weightier, the smaller. -/
def rank : Level → Nat
  | error => 1
  | warn => 2
  | info => 3
  | debug => 4
  | trace => 5

def name : Level → String
  | error => "ERROR"
  | warn => "WARN"
  | info => "INFO"
  | debug => "DEBUG"
  | trace => "TRACE"

end Level

/-- The least weighty level that is shown; `none` shows nothing. -/
abbrev Threshold := Option Level

namespace Threshold

def admits : Threshold → Level → Bool
  | none, _ => false
  | some least, level => decide (level.rank ≤ least.rank)

end Threshold

/-- One line of the log. -/
structure Record where
  level : Level
  message : String
deriving DecidableEq

namespace Record

/-- A record as it is written: the level, a blank, the message. -/
def line (record : Record) : String :=
  record.level.name ++ " " ++ record.message

end Record

/-- A value and the records made on the way to it, the earliest first. -/
structure Logged (α : Type) where
  value : α
  records : List Record

namespace Logged

variable {α β : Type}

/-- Runs one computation after the other and joins their records in that order. -/
protected def bind (first : Logged α) (next : α → Logged β) : Logged β :=
  let second := next first.value
  ⟨second.value, first.records ++ second.records⟩

instance : Monad Logged where
  pure value := ⟨value, []⟩
  bind := Logged.bind

@[simp]
theorem value_bind (first : Logged α) (next : α → Logged β) :
    (first >>= next).value = (next first.value).value := rfl

@[simp]
theorem records_bind (first : Logged α) (next : α → Logged β) :
    (first >>= next).records = first.records ++ (next first.value).records := rfl

instance : LawfulMonad Logged := LawfulMonad.mk' Logged
  (fun computation => congrArg (Logged.mk computation.value) (List.append_nil _))
  (fun _ _ => rfl)
  (fun computation first second =>
    congrArg (Logged.mk (second (first computation.value).value).value)
      (List.append_assoc computation.records _ _))

/-- The value of a computation that may fail: the rest is reached only without a failure. -/
theorem value_run_bind {ε : Type} (first : ExceptT ε Logged α) (next : α → ExceptT ε Logged β) :
    (first >>= next).run.value =
      match first.run.value with
      | .ok value => (next value).run.value
      | .error failure => .error failure := by
  rw [ExceptT.run_bind, value_bind]
  cases first.run.value <;> rfl

/-- The records of a computation that may fail: those before a failure stand. -/
theorem records_run_bind {ε : Type} (first : ExceptT ε Logged α) (next : α → ExceptT ε Logged β) :
    (first >>= next).run.records =
      first.run.records ++
        match first.run.value with
        | .ok value => (next value).run.records
        | .error _ => [] := by
  rw [ExceptT.run_bind, records_bind]
  cases first.run.value <;> rfl

theorem value_run_lift {ε : Type} (answer : Except ε α) :
    (liftM answer : ExceptT ε Logged α).run.value = answer := rfl

/-- A computation that makes one record and nothing else. -/
def note (level : Level) (message : String) : Logged Unit :=
  ⟨(), [⟨level, message⟩]⟩

end Logged

end Edid
