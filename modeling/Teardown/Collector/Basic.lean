/-
# Collectors

A collector gathers the failures of a teardown. The first failure of a round
becomes the primary one, or is attached to a root that a supplier gives; the
later ones are attached to the primary; beyond the limit they are dropped and
counted. A drain takes the primary and starts a new round. Closing takes it
for the last time: whatever is done with a closed collector panics, apart from
looking at it and dropping it.

Key definitions: `Collector`, `Collector.add`, `Collector.take`,
`Collector.close`, `Collector.drop`.
-/
import Teardown.Act

namespace Teardown

/-- What a supplier does when it is asked for a root, with failures referred
to by `φ`. -/
inductive SupplyOf (φ : Type) where
  /-- It gives a failure that exists. -/
  | root (f : φ)
  /-- It makes a failure. -/
  | fresh (message : String)
  /-- It has none. -/
  | nothing
  | panics (message : String)
  deriving DecidableEq, Repr

/-- What a supplier of a running program does when it is asked for a root. -/
abbrev Supply := SupplyOf FailureId

/-- The message of the root that stands in where a supplier has none. -/
def missingRootMessage : String := "missing root failure"

/-- The root that comes of asking a supplier, in the heap that then holds it, or
the message of its panic. -/
def Supply.rootIn (h : Heap) : Supply → Except String (FailureId × Heap)
  | .root f => .ok (f, h)
  | .fresh message => .ok (h.alloc { message })
  | .nothing => .ok (h.alloc { kind := .missingRoot, message := missingRootMessage })
  | .panics message => .error message

/-- Replaces the reference in what a supplier does. -/
def SupplyOf.traverse {φ ψ ε : Type} (g : φ → Except ε ψ) : SupplyOf φ → Except ε (SupplyOf ψ)
  | .root f => do return .root (← g f)
  | .fresh message => .ok (.fresh message)
  | .nothing => .ok .nothing
  | .panics message => .ok (.panics message)

/-- A supplier of roots: what it does at each call, and how often it was asked. -/
structure Supplier where
  answer : Nat → Supply
  calls : Nat := 0

/-- A supplier that has been asked once more. -/
def Supplier.called (supplier : Supplier) : Supplier :=
  { supplier with calls := supplier.calls + 1 }

/-- The limit of a fresh collector is positive. -/
theorem fresh_limit_pos : 0 < 5 := Nat.succ_pos 4

/-- A collector of failures. -/
structure Collector where
  /-- The failure that stands for the round. -/
  primary : Option FailureId := none
  closed : Bool := false
  /-- Failures offered since the last drain. -/
  observed : Nat := 0
  /-- Failures dropped over the limit since the beginning. -/
  dropped : Nat := 0
  /-- Failures kept in a round. -/
  limit : Nat := 5
  /-- Whether dropping the collector with a failure in it is told to the log. -/
  warnsOnDrop : Bool := true
  supplier : Option Supplier := none
  limit_pos : 0 < limit := by exact fresh_limit_pos

/-- The counters of a collector. -/
structure Stats where
  observed : Nat
  dropped : Nat
  deriving DecidableEq, Repr

namespace Collector

/-- What a closed collector panics with. -/
def closedMessage : String := "deferred failure used after close"

/-- A collector with another limit; a limit below one is raised to one. -/
def withLimit (c : Collector) (limit : Nat) : Collector :=
  { c with limit := max limit 1, limit_pos := by omega }

/-- A collector with a supplier of roots. -/
def withSupplier (answer : Nat → Supply) : Collector := { supplier := some { answer } }

def stats (c : Collector) : Stats := ⟨c.observed, c.dropped⟩

/-- A collector's parts, for programmers. -/
def describe (h : Heap) (c : Collector) : Described :=
  .record "DeferredFailure" [
    ("primary", .optional (c.primary.map h.describe)),
    ("closed", .flag c.closed),
    ("suppressed_limit", .number c.limit),
    ("has_root_supplier", .flag c.supplier.isSome)]

/-! ### Acts on a collector -/

/-- Panics if the collector is closed. -/
def ensureOpen : Act Collector Unit := fun s =>
  if s.focus.closed then .error (.text closedMessage) s else .ok () s

/-- Counts an offered failure. Its number within the round decides what becomes
of it. -/
def offer : Act Collector Nat := fun s =>
  let observed := s.focus.observed + 1
  .ok observed { s with focus := { s.focus with observed } }

/-- Counts a failure as dropped whose number in the round is over the limit. -/
def countDropped (f : FailureId) (number : Nat) : Act Collector Unit := fun s =>
  let c := s.focus
  let dropped := c.dropped + 1
  let event :=
    if number = c.limit + 1 then .limitReached c.limit
    else .overLimit dropped (s.heap.message f)
  .ok () { s with log := s.log.push event, focus := { c with dropped } }

/-- Drops a failure whose number in the round is over the limit. -/
def dropOver (f : FailureId) (number : Nat) : Act Collector Unit := do
  ensureOpen
  countDropped f number

/-- Asks a supplier for the root of a round. -/
def callSupplier (supplier : Supplier) : Act Collector FailureId := fun s =>
  let s := { s with focus := { s.focus with supplier := some supplier.called } }
  match (supplier.answer supplier.calls).rootIn s.heap with
  | .ok (root, heap) => .ok root { s with heap }
  | .error message => .error (.text message) s

/-- Makes a failure the primary one. -/
def install (f : FailureId) : Act Collector Unit := fun s =>
  .ok () { s with focus := { s.focus with primary := some f } }

/-- Keeps a failure whose number in the round is within the limit. It is
limited before the collector is looked at. -/
def keep (f : FailureId) : Act Collector Unit := do
  let c := (← get).focus
  let attached ← Act.onHeap (·.limit c.limit f)
  ensureOpen
  let message ← Act.ask (·.message attached)
  match c.primary with
  | some primary =>
      if primary ≠ f then
        Act.emit (.failureSuppressed (← Act.ask (·.message primary)) message)
        Act.attach primary attached
  | none =>
      match c.supplier with
      | none =>
          Act.emit (.primaryRecorded message)
          install attached
      | some supplier =>
          let root ← callSupplier supplier
          Act.emit (.rootSupplied (← Act.ask (·.message root)) message)
          Act.attach root attached
          install root

/-- Records a failure. -/
def add (f : FailureId) : Act Collector Unit := do
  let number ← offer
  if (← get).focus.limit < number then dropOver f number else keep f

/-- Records the failure of an error. -/
def addError (e : ErrorValue) : Act Collector Unit := do
  add (← Act.onHeap (·.ofError e))

/-- Hands out the primary failure, if any, and starts a new round. -/
def drain : Act Collector (Option FailureId) := fun s =>
  .ok s.focus.primary { s with focus := { s.focus with primary := none, observed := 0 } }

/-- Takes the primary failure, if any, and starts a new round. -/
def take : Act Collector (Option FailureId) := do
  ensureOpen
  drain

/-- Takes the primary failure and panics with it, if there is one. -/
def takeAndPanic : Act Collector Unit := do
  match ← take with
  | some f => Act.raise f
  | none => return ()

/-- Panics with the primary failure, if there is one, and leaves it in place. -/
def panicKeeping : Act Collector Unit := do
  match (← get).focus.primary with
  | some f => Act.raise f
  | none => return ()

/-- Hands out the primary failure, if any, for the last time. -/
def retire : Act Collector (Option FailureId) := fun s =>
  let focus := { s.focus with primary := none, closed := true }
  match s.focus.primary with
  | some f =>
      let event := .raisedOnClose (s.heap.message f) (s.heap.suppressed f).length
      .ok (some f) { s with log := s.log.push event, focus }
  | none => .ok none { s with focus }

/-- Closes the collector and takes what it still holds. -/
def close : Act Collector (Option FailureId) := do
  ensureOpen
  retire

/-- Drops the collector: a failure that it still holds is told to the log. -/
def drop : Act Collector Unit := fun s =>
  match s.focus.primary with
  | some f =>
      if s.focus.warnsOnDrop && !s.focus.closed then
        Act.emit (.droppedUnraised (s.heap.report f)) s
      else .ok () s
  | none => .ok () s

/-! ### How the acts run -/

section

variable (s : Scene Collector)

@[simp] theorem run_ensureOpen :
    ensureOpen.run s =
      if s.focus.closed then .error (.text closedMessage) s else .ok () s := by
  simp only [EStateM.run, ensureOpen]

@[simp] theorem run_offer :
    offer.run s = .ok (s.focus.observed + 1)
      { s with focus := { s.focus with observed := s.focus.observed + 1 } } := rfl

@[simp] theorem run_install (f : FailureId) :
    (install f).run s = .ok () { s with focus := { s.focus with primary := some f } } := rfl

@[simp] theorem run_countDropped (f : FailureId) (number : Nat) :
    (countDropped f number).run s = .ok () { s with
      log := s.log.push (if number = s.focus.limit + 1 then .limitReached s.focus.limit
        else .overLimit (s.focus.dropped + 1) (s.heap.message f))
      focus := { s.focus with dropped := s.focus.dropped + 1 } } := rfl

@[simp] theorem run_drain :
    drain.run s = .ok s.focus.primary
      { s with focus := { s.focus with primary := none, observed := 0 } } := rfl

theorem run_retire :
    retire.run s =
      let retired := { s.focus with primary := none, closed := true }
      match s.focus.primary with
      | some f => .ok (some f) { s with
          log := s.log.push (.raisedOnClose (s.heap.message f) (s.heap.suppressed f).length)
          focus := retired }
      | none => .ok none { s with focus := retired } := rfl

theorem run_take :
    take.run s = if s.focus.closed then .error (.text closedMessage) s
      else .ok s.focus.primary
        { s with focus := { s.focus with primary := none, observed := 0 } } := by
  cases hc : s.focus.closed <;> simp [take, hc]

theorem run_takeAndPanic :
    takeAndPanic.run s = if s.focus.closed then .error (.text closedMessage) s
      else
        let drained := { s.focus with primary := none, observed := 0 }
        match s.focus.primary with
        | some f => .error (.failure f) { s with
            log := s.log.push (.raisedAsPanic (s.heap.kind f) (s.heap.render f))
            focus := drained }
        | none => .ok () { s with focus := drained } := by
  cases hc : s.focus.closed with
  | true => simp [takeAndPanic, run_take, hc]
  | false => cases hp : s.focus.primary <;> simp [takeAndPanic, run_take, hc, hp]

theorem run_panicKeeping :
    panicKeeping.run s =
      match s.focus.primary with
      | some f => .error (.failure f) { s with
          log := s.log.push (.raisedAsPanic (s.heap.kind f) (s.heap.render f)) }
      | none => .ok () s := by
  cases hp : s.focus.primary <;> simp [panicKeeping, hp]

theorem run_close :
    close.run s = if s.focus.closed then .error (.text closedMessage) s
      else
        let retired := { s.focus with primary := none, closed := true }
        match s.focus.primary with
        | some f => .ok (some f) { s with
            log := s.log.push (.raisedOnClose (s.heap.message f) (s.heap.suppressed f).length)
            focus := retired }
        | none => .ok none { s with focus := retired } := by
  cases hc : s.focus.closed with
  | true => simp [close, hc]
  | false => cases hp : s.focus.primary <;> simp [close, run_retire, hc, hp]

/-- Dropping a collector tells of the failure that is still held, if such a drop
is to be told. -/
theorem run_drop :
    drop.run s =
      match s.focus.primary with
      | some f =>
          if s.focus.warnsOnDrop && !s.focus.closed then
            .ok () { s with log := s.log.push (.droppedUnraised (s.heap.report f)) }
          else .ok () s
      | none => .ok () s := rfl

theorem run_callSupplier (supplier : Supplier) :
    (callSupplier supplier).run s =
      match (supplier.answer supplier.calls).rootIn s.heap with
      | .ok (root, heap) => .ok root
          { s with heap, focus := { s.focus with supplier := some supplier.called } }
      | .error message => .error (.text message)
          { s with focus := { s.focus with supplier := some supplier.called } } := rfl

end

end Collector
end Teardown
