/-
# Error values

What a release can fail with before it becomes a failure: a plain message, an
I/O error, a rejected login, a failure that travels as an error, or any of
these under a context. An error refers to failures by `φ`: by identity in a
running program, by name in a script.

A context hides nothing: the *spine* of an error is what can be found in it,
outermost first, the context value before the error below it.

Key definitions: `ErrorOf`, `ErrorOf.spine`, `ErrorOf.find?`, `ErrorOf.traverse`.
-/
import Teardown.Login

namespace Teardown

/-- What an I/O operation ran into. -/
inductive IoErrorKind where
  | notFound
  | permissionDenied
  | connectionReset
  | brokenPipe
  | alreadyExists
  | invalidInput
  | invalidData
  | timedOut
  | writeZero
  | interrupted
  | unexpectedEof
  | other
  deriving DecidableEq, Repr

namespace IoErrorKind

/-- Every kind. -/
def all : List IoErrorKind :=
  [notFound, permissionDenied, connectionReset, brokenPipe, alreadyExists, invalidInput,
    invalidData, timedOut, writeZero, interrupted, unexpectedEof, other]

/-- The kind's name. -/
def name : IoErrorKind → String
  | notFound => "NotFound"
  | permissionDenied => "PermissionDenied"
  | connectionReset => "ConnectionReset"
  | brokenPipe => "BrokenPipe"
  | alreadyExists => "AlreadyExists"
  | invalidInput => "InvalidInput"
  | invalidData => "InvalidData"
  | timedOut => "TimedOut"
  | writeZero => "WriteZero"
  | interrupted => "Interrupted"
  | unexpectedEof => "UnexpectedEof"
  | other => "Other"

/-- The text of an error that carries nothing but its kind. -/
def standardText : IoErrorKind → String
  | notFound => "entity not found"
  | permissionDenied => "permission denied"
  | connectionReset => "connection reset"
  | brokenPipe => "broken pipe"
  | alreadyExists => "entity already exists"
  | invalidInput => "invalid input parameter"
  | invalidData => "invalid data"
  | timedOut => "timed out"
  | writeZero => "write zero"
  | interrupted => "operation interrupted"
  | unexpectedEof => "unexpected end of file"
  | other => "other error"

/-- The kind of a name. -/
def ofName? (s : String) : Option IoErrorKind := all.find? fun k => k.name = s

theorem ofName?_name (k : IoErrorKind) : ofName? k.name = some k := by
  cases k <;> decide

end IoErrorKind

/-- What an I/O error says beyond its kind. -/
inductive IoDetail (φ : Type) where
  /-- Nothing: the kind's standard text is shown. -/
  | standard
  | text (s : String)
  /-- The error stands for a failure: it shows the failure's message and goes
  on with the failure's own source. -/
  | failure (f : φ)
  deriving DecidableEq, Repr

/-- An I/O error. -/
structure IoErrorOf (φ : Type) where
  kind : IoErrorKind
  detail : IoDetail φ
  deriving DecidableEq, Repr

/-- An error value that refers to failures by `φ`. -/
inductive ErrorOf (φ : Type) where
  | message (text : String)
  | io (error : IoErrorOf φ)
  | login (error : LoginError)
  /-- A failure that travels as an error. -/
  | failure (f : φ)
  /-- A text laid over an error. -/
  | context (text : String) (below : ErrorOf φ)
  /-- A failure laid over an error. -/
  | contextFailure (f : φ) (below : ErrorOf φ)
  deriving DecidableEq, Repr

/-- A value that can be found in an error. -/
inductive Found (φ : Type) where
  | text (s : String)
  | io (error : IoErrorOf φ)
  | login (error : LoginError)
  | failure (f : φ)
  deriving DecidableEq, Repr

namespace Found

def text? {φ : Type} : Found φ → Option String
  | .text s => some s
  | _ => none

def io? {φ : Type} : Found φ → Option (IoErrorOf φ)
  | .io e => some e
  | _ => none

def login? {φ : Type} : Found φ → Option LoginError
  | .login e => some e
  | _ => none

def failure? {φ : Type} : Found φ → Option φ
  | .failure f => some f
  | _ => none

end Found

namespace ErrorOf

variable {φ ψ : Type}

/-- The values that can be found in an error, outermost first. -/
def spine : ErrorOf φ → List (Found φ)
  | .message s => [.text s]
  | .io e => [.io e]
  | .login e => [.login e]
  | .failure f => [.failure f]
  | .context s below => .text s :: below.spine
  | .contextFailure f below => .failure f :: below.spine

/-- The outermost value of an error that `pick` accepts. -/
def find? {α : Type} (pick : Found φ → Option α) : ErrorOf φ → Option α
  | .message s => pick (.text s)
  | .io e => pick (.io e)
  | .login e => pick (.login e)
  | .failure f => pick (.failure f)
  | .context s below => (pick (.text s)).or (below.find? pick)
  | .contextFailure f below => (pick (.failure f)).or (below.find? pick)

/-- The outermost failure in an error. -/
def failure? : ErrorOf φ → Option φ := find? Found.failure?

/-- Replaces every reference, innermost first; the first that fails decides. -/
def traverse {ε : Type} (g : φ → Except ε ψ) : ErrorOf φ → Except ε (ErrorOf ψ)
  | .message s => .ok (.message s)
  | .io ⟨kind, .standard⟩ => .ok (.io ⟨kind, .standard⟩)
  | .io ⟨kind, .text s⟩ => .ok (.io ⟨kind, .text s⟩)
  | .io ⟨kind, .failure f⟩ => do return .io ⟨kind, .failure (← g f)⟩
  | .login e => .ok (.login e)
  | .failure f => do return .failure (← g f)
  | .context s below => do return .context s (← below.traverse g)
  | .contextFailure f below => do
      let below ← below.traverse g
      return .contextFailure (← g f) below

end ErrorOf
end Teardown
