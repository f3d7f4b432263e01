/-
# Events

What the library tells a log: which failure was recorded, suppressed, dropped
or raised, and how the release of a group went. An event holds the texts that
are shown with it; its level, its target, its message and its fields follow
from what it is.

Key definitions: `Event`, `Level`, `Event.level`, `Event.target`, `Event.fields`.
-/
import Teardown.Failure.Stored

namespace Teardown

/-- How much an event matters, most first. -/
inductive Level where
  | error
  | warn
  | info
  | debug
  | trace
  deriving DecidableEq, Repr

namespace Level

/-- How far down the levels a level is. -/
def depth : Level → Nat
  | error => 1
  | warn => 2
  | info => 3
  | debug => 4
  | trace => 5

def name : Level → String
  | error => "ERROR"
  | warn => "WARN"
  | info => "INFO"
  | debug => "DEBUG"
  | trace => "TRACE"

end Level

/-- Something the library tells a log. -/
inductive Event where
  /-- The round's first failure became the primary one. -/
  | primaryRecorded (failure : String)
  /-- The round's first failure was attached to a root from the supplier. -/
  | rootSupplied (root failure : String)
  /-- A later failure was attached to the primary one. -/
  | failureSuppressed (primary failure : String)
  /-- The first failure over the limit was dropped. -/
  | limitReached (limit : Nat)
  /-- A further failure was dropped, the `dropped`th of the collector. -/
  | overLimit (dropped : Nat) (failure : String)
  /-- A collector was closed while it held a failure. -/
  | raisedOnClose (failure : String) (suppressed : Nat)
  /-- A collector was dropped while it held a failure. -/
  | droppedUnraised (report : Report)
  /-- A failure is raised as a panic. -/
  | raisedAsPanic (kind : FailureKind) (failure : String)
  | groupStarted (group : String) (members : Nat)
  | memberReleased (group member : String)
  | memberFailed (group : String) (index : Nat) (member error : String)
  | groupReleased (group : String)
  | groupFailed (group : String) (failures : Nat) (failure : String)
  /-- Logging was set up. -/
  | loggingStarted (environment format output : String)
  deriving Repr

/-- A value of an event's field. -/
inductive FieldValue where
  | nat (n : Nat)
  | text (s : String)
  deriving DecidableEq, Repr

namespace Event

def level : Event → Level
  | primaryRecorded _ | rootSupplied _ _ | failureSuppressed _ _ | overLimit _ _ => .trace
  | limitReached _ | raisedOnClose _ _ | memberReleased _ _ => .debug
  | groupStarted _ _ | groupReleased _ | loggingStarted _ _ _ => .info
  | droppedUnraised _ | memberFailed _ _ _ _ => .warn
  | raisedAsPanic _ _ | groupFailed _ _ _ => .error

/-- The part of the library that an event comes from. -/
def target : Event → String
  | raisedAsPanic _ _ => "deferred_failure::error"
  | groupStarted _ _ | memberReleased _ _ | memberFailed _ _ _ _ | groupReleased _
  | groupFailed _ _ _ => "deferred_failure::release"
  | loggingStarted _ _ _ => "deferred_failure::logging"
  | _ => "deferred_failure::deferred"

def message : Event → String
  | primaryRecorded _ => "primary failure recorded"
  | rootSupplied _ _ => "root failure supplied"
  | failureSuppressed _ _ => "failure suppressed"
  | limitReached _ => "suppressed failure limit reached, dropping further failures"
  | overLimit _ _ => "dropping failure over limit"
  | raisedOnClose _ _ => "deferred failure raised on close"
  | droppedUnraised _ => "deferred failure dropped without being raised"
  | raisedAsPanic _ _ => "raising failure as panic"
  | groupStarted _ _ => "releasing resource group"
  | memberReleased _ _ => "resource released"
  | memberFailed _ _ _ _ => "resource release failed"
  | groupReleased _ => "resource group released"
  | groupFailed _ _ _ => "resource group release failed"
  | loggingStarted _ _ _ => "logging initialized"

/-- An event's own fields; its message is one more. -/
def fields : Event → List (String × FieldValue)
  | primaryRecorded failure => [("failure", .text failure)]
  | rootSupplied root failure => [("root", .text root), ("failure", .text failure)]
  | failureSuppressed primary failure => [("primary", .text primary), ("failure", .text failure)]
  | limitReached limit => [("limit", .nat limit)]
  | overLimit dropped failure => [("dropped", .nat dropped), ("failure", .text failure)]
  | raisedOnClose failure suppressed =>
      [("failure", .text failure), ("suppressed", .nat suppressed)]
  | droppedUnraised report =>
      [("failure", .text report.message), ("report", .text report.encode)]
  | raisedAsPanic kind failure => [("kind", .text kind.name), ("failure", .text failure)]
  | groupStarted group members => [("group", .text group), ("members", .nat members)]
  | memberReleased group member => [("group", .text group), ("member", .text member)]
  | memberFailed group index member error =>
      [("group", .text group), ("member_index", .nat index), ("member", .text member),
        ("error", .text error)]
  | groupReleased group => [("group", .text group)]
  | groupFailed group failures failure =>
      [("group", .text group), ("failures", .nat failures), ("failure", .text failure)]
  | loggingStarted environment format output =>
      [("environment", .text environment), ("format", .text format), ("output", .text output)]

end Event
end Teardown
