/-
# Scripts

A script is a list of steps on failures and collectors that go by names. A
step may bind the failure it yields to a name. The release of a resource may
itself run steps; a step in it that panics is answered like any other, and
only when it is marked so does the panic go on and leave the release.

Key definitions: `Script.Step`, `Script.Releasable`, `Script.CollectorStep`.
-/
import Teardown.Release.Group
import Teardown.Settings.Basic

namespace Teardown
namespace Script

/-- What a script calls a failure or a collector. -/
abbrev Name := String

/-- What a script panics with. -/
inductive Thrown where
  | plain (payload : PayloadOf Name)
  /-- An error value, which is neither text nor a failure. -/
  | error (e : ErrorOf Name)
  deriving Repr

/-- What a script turns into a failure. -/
inductive Offer where
  | failure (name : Name)
  | fresh (message : String)
  | error (e : ErrorOf Name)
  | panic (thrown : Thrown)
  deriving Repr

/-- A tree of failures to build, with failures referred to by `φ`. -/
inductive TreeOf (φ : Type) where
  | node (message : String) (children : List (TreeOf φ))
  | ref (f : φ)
  deriving Repr

mutual

/-- Replaces every reference in a tree. -/
def TreeOf.traverse {φ ψ ε : Type} (g : φ → Except ε ψ) : TreeOf φ → Except ε (TreeOf ψ)
  | .node message children => do return .node message (← TreeOf.traverseAll g children)
  | .ref f => do return .ref (← g f)

/-- Replaces every reference in a list of trees. -/
def TreeOf.traverseAll {φ ψ ε : Type} (g : φ → Except ε ψ) :
    List (TreeOf φ) → Except ε (List (TreeOf ψ))
  | [] => .ok []
  | t :: rest => do
      let t ← t.traverse g
      return t :: (← TreeOf.traverseAll g rest)

end

/-- What is looked for in the error that a failure comes from. -/
inductive Sought where
  | io
  | login
  | failure
  | text
  deriving DecidableEq, Repr

/-- How a script makes a collector. -/
structure Setup where
  /-- What the supplier does at its first calls and from then on, if there is one. -/
  roots : Option (List (SupplyOf Name)) := none
  settings : Option Settings := none
  limit : Option Nat := none
  deriving Repr

/-- A step on a collector. -/
inductive CollectorStep where
  | add (offer : Offer)
  | addMany (count : Nat) (stem : String)
  | peek
  | take
  /-- Takes the primary failure and returns it as an error. -/
  | takeAsError
  | takeAndPanic
  | panicKeeping
  | close
  | hasFailure
  | isClosed
  | stats
  | limit
  | describe (spread : Bool)
  deriving Repr

/-- A step of a scope's body, on the scope's own collector. -/
inductive ScopeAction where
  | collector (step : CollectorStep)
  | panic (thrown : Thrown)
  deriving Repr

/-- What a step is marked with. -/
structure Marks where
  /-- The name that the step's failure is bound to. -/
  binds : Option Name := none
  /-- Whether a panic of the step goes on into what runs it. -/
  propagates : Bool := false
  deriving Repr

/-- A step of a scope's body. -/
structure ScopeStep where
  marks : Marks := {}
  action : ScopeAction
  deriving Repr

/-- How the release of a resource ends after its steps. -/
inductive ReleaseEnding where
  | succeeds
  | fails (e : ErrorOf Name)
  | panics (thrown : Thrown)
  deriving Repr

/-- A step that runs no other steps. -/
inductive Action where
  | make (kind : FailureKind) (message : String)
  | causedBy (message : String) (e : ErrorOf Name)
  | wrap (e : ErrorOf Name)
  | convert (offer : Offer)
  | ofPanic (thrown : Thrown)
  | tree (tree : TreeOf Name)
  /-- Failures that each hold the next one as suppressed. -/
  | chain (depth : Nat) (stem : String)
  /-- Failures that are each the cause of the next one. -/
  | causeChain (depth : Nat) (stem : String)
  | fan (f : Name) (count : Nat) (stem : String)
  | attach (f child : Name)
  | look (f : Name)
  | text (f : Name) (full : Bool)
  | describe (f : Name) (spread : Bool)
  | report (f : Name)
  | causes (f : Name)
  | graph (f : Name)
  | child (f : Name) (index : Nat)
  | find (f : Name) (sought : Sought)
  | same (f g : Name)
  | raise (f : Name)
  | setup (name : Name) (setup : Setup)
  | collector (name : Name) (step : CollectorStep)
  | drop (name : Name)
  /-- A scope whose body yields a value, given as text. -/
  | scope (setup : Setup) (body : List ScopeStep) (value : String)
  | group (group : ResourceOf Name) (times : Nat)
  deriving Repr

mutual

/-- A resource whose release runs steps before it ends. -/
inductive Releasable where
  | mk (steps : List Step) (ending : ReleaseEnding)

/-- A step. -/
inductive Step where
  | plain (marks : Marks) (action : Action)
  /-- Releases a resource, if there is one, into a named collector. -/
  | closeSuppressing (marks : Marks) (name : Name) (resource : Option Releasable)
  /-- Releases resources in order. -/
  | releaseAll (marks : Marks) (resources : List Releasable)

end

def Step.marks : Step → Marks
  | plain marks _ => marks
  | closeSuppressing marks _ _ => marks
  | releaseAll marks _ => marks

/-! ### Answers -/

/-- A failure as an answer shows it. -/
structure Shown where
  id : FailureId
  kind : FailureKind
  message : String
  /-- The number of failures it suppresses directly. -/
  suppressed : Nat
  deriving Repr

/-- A failure of a graph with the failures it suppresses. -/
structure Node where
  id : FailureId
  kind : FailureKind
  message : String
  suppressed : List FailureId
  deriving Repr

/-- How a run ended. -/
inductive Run where
  | succeeded
  | failed (f : Shown)
  | panicked (f : Shown)
  deriving Repr

/-- What a step that succeeds gives. -/
inductive Reply where
  | nothing
  | flag (b : Bool)
  | number (n : Nat)
  | text (s : String)
  | texts (ss : List String)
  | failure (f : Shown)
  | stats (s : Stats)
  | graph (nodes : List Node)
  /-- The value of a scope's body. -/
  | value (text : String)
  /-- The runs of a group with the number of its members and the names of its
  leaves in the order they finished. -/
  | runs (runs : List Run) (size : Nat) (finished : List String)

/-- How a step ended. -/
inductive Outcome where
  | ok (reply : Reply)
  | failed (f : Shown)
  | panicked (f : Shown)
  /-- The step uses a name that nothing is bound to. -/
  | unbound (name : Name)

/-- The answer to a step: how it ended, its events, the answers of the steps
that ran in it, and which resources were released. -/
structure Answer where
  outcome : Outcome
  log : Array Event
  body : Array Answer
  released : Option (Array Nat) := none

end Script
end Teardown
