/-
# Sessions

A session is what a script works on besides the heap and the log: what the
names stand for, the collectors, and the answers of the steps that ran within
the step at hand.

Key definitions: `Script.Session`, `Script.Session.lookup`,
`Script.collectorAt`, `Script.answering`.
-/
import Teardown.Script.Step

namespace Teardown
namespace Script

/-- The state of a script that is neither failures nor events. -/
structure Session where
  /-- The failures that names stand for, the last binding first. -/
  failures : List (Name × FailureId) := []
  /-- Every collector made by name. -/
  collectors : Array Collector := #[]
  /-- The collectors that names stand for. -/
  names : List (Name × Nat) := []
  /-- The collectors that a release under way works for. -/
  inUse : List Nat := []
  /-- The answers of the steps that ran within the step at hand. -/
  body : Array Answer := #[]
  /-- The parts of the log that belong to those steps. -/
  claimed : List (Nat × Nat) := []
  /-- The resources that the step at hand released, if it releases a sequence. -/
  released : Option (Array Nat) := none
  /-- A name that the step at hand uses and nothing is bound to. -/
  unbound : Option Name := none

/-- What a script does. -/
abbrev Play := Act Session

namespace Session

/-- The failure of a name. -/
def failure? (s : Session) (name : Name) : Except Name FailureId :=
  match s.failures.lookup name with
  | some f => .ok f
  | none => .error name

end Session

/-- Resolves names, all of them before anything else is done. A name that
nothing is bound to ends the step. -/
def resolve {α : Type} (g : (Name → Except Name FailureId) → Except Name α) : Play α := fun s =>
  match g s.focus.failure? with
  | .ok a => .ok a s
  | .error name => .error .other { s with focus := { s.focus with unbound := some name } }

/-- The failure of a name. -/
def failureOf (name : Name) : Play FailureId := resolve fun g => g name

/-- The collector of a name. -/
def collectorOf (name : Name) : Play Nat := fun s =>
  match s.focus.names.lookup name with
  | some k => .ok k s
  | none => .error .other { s with focus := { s.focus with unbound := some name } }

/-- The `k`th collector of a session. -/
def collectorAt (k : Nat) : Place Session Collector where
  get s := s.collectors[k]?.getD {}
  set s c := { s with collectors := s.collectors.setIfInBounds k c }

/-- Binds a name, if one is given, to a failure. -/
def bind (name : Option Name) (f : FailureId) : Play Unit :=
  match name with
  | some name => modify fun s =>
      { s with focus := { s.focus with failures := (name, f) :: s.focus.failures } }
  | none => pure ()

/-- A failure as it is shown. -/
def shown {σ : Type} (f : FailureId) : Act σ Shown :=
  Act.ask fun h => ⟨f, h.kind f, h.message f, (h.suppressed f).length⟩

/-- Drops the `k`th collector unless a name or a release still holds it. -/
def release (k : Nat) : Play Unit := do
  let s := (← get).focus
  if s.inUse.contains k || s.names.any (·.2 = k) then return ()
  else (collectorAt k).run Collector.drop

/-- Lets a name stand for nothing. -/
def forget (name : Name) : Play Unit :=
  modify fun s =>
    { s with focus := { s.focus with names := s.focus.names.filter (·.1 ≠ name) } }

/-- What a step gives: a reply or the failure it ends with. -/
abbrev Given := Except FailureId Reply

/-- The failure that an outcome yields, if any. -/
def Outcome.failure? : Outcome → Option FailureId
  | .ok (.failure f) => some f.id
  | .ok _ => none
  | .failed f => some f.id
  | .panicked f => some f.id
  | .unbound _ => none

/-- Whether a step was broken off. -/
def Outcome.brokenOff : Outcome → Bool
  | .panicked _ | .unbound _ => true
  | _ => false

/-- The events from `start` on that lie in none of the `claimed` parts. -/
def ownEvents (log : Array Event) (start : Nat) (claimed : List (Nat × Nat)) : Array Event :=
  ((List.range' start (log.size - start)).filter fun i =>
    !claimed.any fun part => part.1 ≤ i && i < part.2).toArray.filterMap fun i => log[i]?

/-- Overlooks that a name stands for nothing, so that its panic is like any other. -/
def overlook : Play Unit := modify fun s => { s with focus := { s.focus with unbound := none } }

/-- The outcome of what a step does. -/
def outcomeOf {σ : Type} (p : Place σ Session) (act : Act σ Given) : Act σ Outcome := do
  match ← Act.caught act with
  | .ok (.ok reply) => return .ok reply
  | .ok (.error f) => return .failed (← shown f)
  | .error payload =>
      match (p.get (← get).focus).unbound with
      | some name =>
          p.run overlook
          return .unbound name
      | none => return .panicked (← shown (← Act.onHeap (·.ofPanic payload)))

/-- Runs a step and gives its answer. The step's failure is bound to its name.
What the step around it has gathered so far is kept aside. -/
def answering {σ : Type} (p : Place σ Session) (marks : Marks) (act : Act σ Given) :
    Act σ Answer := do
  let outer := p.get (← get).focus
  let start := (← get).log.size
  p.run (modify fun s =>
    { s with focus := { s.focus with body := #[], claimed := [], released := none } })
  let outcome ← outcomeOf p act
  match outcome.failure? with
  | some f => p.run (bind marks.binds f)
  | none => pure ()
  let s ← get
  let inner := p.get s.focus
  p.run (modify fun t => { t with focus := { t.focus with
    body := outer.body
    claimed := (start, s.log.size) :: outer.claimed
    released := outer.released } })
  return { outcome, log := ownEvents s.log start inner.claimed, body := inner.body
           released := if outcome.brokenOff then none else inner.released }

/-- Adds the answer of a step that ran within the step at hand. A panic goes on
if the step is marked so. -/
def nest (marks : Marks) (answer : Answer) : Play Unit := do
  modify fun s => { s with focus := { s.focus with body := s.focus.body.push answer } }
  match answer.outcome with
  | .panicked f => if marks.propagates then throw (.failure f.id) else return ()
  | _ => return ()

end Script
end Teardown
