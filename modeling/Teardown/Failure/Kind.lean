/-
# Kinds of failures

Key definitions: `FailureKind`, `FailureKind.name`.
-/

namespace Teardown

/-- What a failure stands for. -/
inductive FailureKind where
  /-- Raised by the caller's code. -/
  | error
  /-- A panic, turned into a failure. -/
  | panic
  /-- The root of a round whose supplier had none to give. -/
  | missingRoot
  /-- A copy left in place of a failure with too many suppressed ones. -/
  | truncated
  deriving DecidableEq, Repr

namespace FailureKind

/-- Every kind. -/
def all : List FailureKind := [error, panic, missingRoot, truncated]

/-- The kind as it is shown and stored. -/
def name : FailureKind → String
  | error => "error"
  | panic => "panic"
  | missingRoot => "missing_root"
  | truncated => "truncated"

/-- The kind of a stored name. -/
def ofName? (s : String) : Option FailureKind := all.find? fun k => k.name = s

/-- The kind as it stands in descriptions. -/
def describe : FailureKind → String
  | error => "Error"
  | panic => "Panic"
  | missingRoot => "MissingRoot"
  | truncated => "Truncated"

theorem ofName?_name (k : FailureKind) : ofName? k.name = some k := by
  cases k <;> decide

end FailureKind
end Teardown
