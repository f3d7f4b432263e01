/-
# Runs of operations on a collector

Whoever holds a collector adds to it, looks at it, drains it and closes it, and
releases resources on its behalf, which may use it in turn before they end. In
between anything may happen to failures elsewhere. A run goes on after a panic:
the panic is caught where it arises or ends the release it arises in.

What a run does with the collector is a list of moments, one for each operation
on it in the order they are done, those done by resources and the failures
recorded for them included. Where from moment to moment only the heap may change,
and not the collector or the log, the moments are linked, and what holds of the
collector and the log follows from what one operation does (`Linked.fold`).

Key definitions: `Collector.Operation`, `Collector.Use`, `Collector.playAll`,
`Collector.Moment`, `Collector.momentsOf`, `Collector.Linked`.
Key theorems: `Collector.after_closeSuppressing`, `Collector.Linked.fold`.
-/
import Teardown.Collector.Scope
import Teardown.Proofs.Collector.Adding

namespace Teardown

/-- An act at the place that is all of the focus is the act itself. -/
theorem Place.run_whole {σ α : Type} (act : Act σ α) : Place.whole.run act = act := by
  funext s
  simp only [Place.run, Place.whole, id_eq]
  cases act s <;> rfl

/-- All of a scene but its heap. -/
def Scene.beside {σ : Type} (s : Scene σ) : σ × Array Event := (s.focus, s.log)

namespace Collector

/-- An operation on a collector. -/
inductive Operation where
  /-- Turns something into a failure and adds it. -/
  | add (offer : Heap → FailureId × Heap)
  /-- Looks at the primary failure. -/
  | peek
  | take
  /-- Takes the primary failure and returns it as an error. -/
  | takeAsError
  | takeAndPanic
  | panicKeeping
  | close

/-- What an operation gives when it ends well. -/
inductive Answer where
  | done
  | value (f : Option FailureId)
  | error (f : FailureId)
  deriving DecidableEq, Repr

/-- A failure that is returned as an error, if there is one. -/
def Answer.raise : Option FailureId → Answer
  | some f => .error f
  | none => .done

namespace Operation

/-- What an operation does. -/
def act : Operation → Act Collector Answer
  | .add offer => do
      Collector.add (← Act.onHeap offer)
      return .done
  | .peek => do return .value (← get).focus.primary
  | .take => do return .value (← Collector.take)
  | .takeAsError => do return .raise (← Collector.take)
  | .takeAndPanic => do
      Collector.takeAndPanic
      return .done
  | .panicKeeping => do
      Collector.panicKeeping
      return .done
  | .close => do return .raise (← Collector.close)

/-- Whether an operation hands out the primary failure for good. -/
def Drains : Operation → Prop
  | .take | .takeAsError | .takeAndPanic | .close => True
  | _ => False

end Operation

mutual

/-- A resource whose release uses the collector and then ends, well, with an
error or with a panic. -/
inductive Client where
  | mk (uses : List Use) (ending : Except Payload (Except ErrorValue Unit))

/-- Something done by a holder of the collector. -/
inductive Use where
  | operation (op : Operation)
  /-- Releases a resource, if there is one, on the collector's behalf. -/
  | closeSuppressing (client : Option Client)
  /-- Something happens to failures elsewhere. -/
  | elsewhere (change : Heap → Heap)

end

mutual

/-- The release of a resource. -/
def Client.release : Client → Act Collector (Except ErrorValue Unit)
  | .mk uses ending => do
      playAll uses
      match ending with
      | .ok result => return result
      | .error payload => throw payload

/-- What is done with the collector. -/
def Use.act : Use → Act Collector Unit
  | .operation op => do
      let _ ← op.act
      return ()
  | .closeSuppressing none => Collector.closeSuppressing Place.whole none
  | .closeSuppressing (some client) =>
      Collector.closeSuppressing Place.whole (some client.release)
  | .elsewhere change => Act.onHeap fun h => ((), change h)

/-- A run: one use after the other, each of which may panic. -/
def playAll : List Use → Act Collector Unit
  | [] => return ()
  | use :: rest => do
      let _ ← Act.caught use.act
      playAll rest

end

/-! ### Moments -/

/-- An operation in the scene it is done in. -/
structure Moment where
  operation : Operation
  before : Scene Collector

namespace Moment

/-- How the operation ends. -/
def outcome (m : Moment) : Except Payload Answer :=
  match m.operation.act.run m.before with
  | .ok answer _ => .ok answer
  | .error payload _ => .error payload

/-- The scene the operation leaves. -/
def after (m : Moment) : Scene Collector := m.operation.act.after m.before

/-- The failure that the operation hands out for good, if any. -/
def delivered (m : Moment) : Option FailureId :=
  match m.operation, m.outcome with
  | .take, .ok (.value f) => f
  | .takeAsError, .ok (.error f) => some f
  | .takeAndPanic, .error (.failure f) => some f
  | .close, .ok (.error f) => some f
  | _, _ => none

end Moment

/-! ### What one operation does -/

namespace Operation

/-- The collector after a drain. -/
def drained (op : Operation) (c : Collector) : Collector :=
  match op with
  | .close => { c with primary := none, closed := true }
  | _ => { c with primary := none, observed := 0 }

@[simp] theorem drained_primary (op : Operation) (c : Collector) :
    (op.drained c).primary = none := by
  cases op <;> rfl

@[simp] theorem drained_limit (op : Operation) (c : Collector) :
    (op.drained c).limit = c.limit := by
  cases op <;> rfl

@[simp] theorem drained_supplier (op : Operation) (c : Collector) :
    (op.drained c).supplier = c.supplier := by
  cases op <;> rfl

/-- A drain that leaves a collector open starts a round. -/
theorem startsRound_drained (op : Operation) {c : Collector}
    (hopen : (op.drained c).closed = false) : (op.drained c).StartsRound where
  primary := op.drained_primary c
  isOpen := hopen
  observed := by
    cases op with
    | close => cases hopen
    | _ => rfl

variable {op : Operation} {s : Scene Collector}

/-- A closed collector is not drained. -/
theorem run_of_closed (hd : op.Drains) (hc : s.focus.closed = true) :
    op.act.run s = .error (.text closedMessage) s := by
  cases op <;>
    simp [Drains, act, run_take, run_takeAndPanic, run_close, hc, -bind_pure_comp] at hd ⊢

/-- It stays as it is and hands out nothing. -/
theorem after_of_closed (hd : op.Drains) (hc : s.focus.closed = true) :
    (⟨op, s⟩ : Moment).after = s ∧ (⟨op, s⟩ : Moment).delivered = none := by
  have hrun := run_of_closed hd hc
  refine ⟨Act.after_of_error hrun, ?_⟩
  cases op <;> simp [Moment.delivered, Moment.outcome, hrun]

/-- Draining an open collector hands out the primary failure and leaves none. -/
theorem run_of_open (hd : op.Drains) (hc : s.focus.closed = false) :
    (⟨op, s⟩ : Moment).delivered = s.focus.primary ∧
      (⟨op, s⟩ : Moment).after.focus = op.drained s.focus ∧
      (⟨op, s⟩ : Moment).after.heap = s.heap := by
  cases op <;> cases hp : s.focus.primary <;>
    simp [Drains, act, run_take, run_takeAndPanic, run_close, hc, hp, Moment.delivered,
      Moment.outcome, Moment.after, Act.after, Answer.raise, drained, -bind_pure_comp] at hd ⊢

/-- Adding a turned failure is adding it once it has been turned. -/
theorem run_add (offer : Heap → FailureId × Heap) (s : Scene Collector) :
    (Operation.add offer).act.run s =
      match (Collector.add (offer s.heap).1).run { s with heap := (offer s.heap).2 } with
      | .ok _ t => .ok .done t
      | .error payload t => .error payload t := by
  simp only [act, EStateM.run_bind, Act.run_onHeap]
  cases (Collector.add (offer s.heap).1).run { s with heap := (offer s.heap).2 } <;> rfl

/-- Looking at a collector changes nothing. -/
theorem run_peek (s : Scene Collector) :
    Operation.peek.act.run s = .ok (.value s.focus.primary) s := rfl

/-- Panicking with the primary failure leaves it in place. -/
theorem run_panicKeeping (s : Scene Collector) :
    Operation.panicKeeping.act.run s =
      match s.focus.primary with
      | some f => .error (.failure f) { s with
          log := s.log.push (.raisedAsPanic (s.heap.kind f) (s.heap.render f)) }
      | none => .ok .done s := by
  cases hp : s.focus.primary <;>
    simp [act, Collector.run_panicKeeping, hp, -bind_pure_comp]

end Operation

mutual

/-- The moments of a resource's release, and of the recording of its error. -/
def Client.moments : Client → Scene Collector → List Moment
  | .mk uses ending, s =>
      momentsOf uses s ++
        match ending with
        | .ok (.error e) => [⟨.add (·.ofError e), (playAll uses).after s⟩]
        | _ => []

/-- The moments of a use. -/
def Use.moments : Use → Scene Collector → List Moment
  | .operation op, s => [⟨op, s⟩]
  | .closeSuppressing none, _ => []
  | .closeSuppressing (some client), s => if s.focus.closed then [] else client.moments s
  | .elsewhere _, _ => []

/-- The moments of a run. -/
def momentsOf : List Use → Scene Collector → List Moment
  | [], _ => []
  | use :: rest, s => use.moments s ++ momentsOf rest (use.act.after s)

end

/-- The moments lead from one collector and log to another. -/
inductive Linked : Collector × Array Event → List Moment → Collector × Array Event → Prop where
  | nil (c : Collector × Array Event) : Linked c [] c
  | cons {m : Moment} {ms : List Moment} {d : Collector × Array Event}
      (rest : Linked m.after.beside ms d) : Linked m.before.beside (m :: ms) d

namespace Linked

variable {c d : Collector × Array Event} {ms : List Moment}

/-- What every operation preserves, beside what is gathered from the moments,
holds at the end. -/
theorem fold {γ : Type} {gather : γ → Moment → γ} {P : γ → Collector × Array Event → Prop}
    (hstep : ∀ g m, P g m.before.beside → P (gather g m) m.after.beside) (h : Linked c ms d) :
    ∀ {g : γ}, P g c → P (ms.foldl gather g) d := by
  induction h with
  | nil => exact fun hg => hg
  | cons _ ih => exact fun hg => ih (hstep _ _ hg)

end Linked

/-! ### How runs go -/

theorem run_playAll_cons (use : Use) (rest : List Use) (s : Scene Collector) :
    (playAll (use :: rest)).run s = (playAll rest).run (use.act.after s) := by
  rw [playAll, EStateM.run_bind, Act.run_caught, Act.after]
  cases use.act.run s <;> rfl

/-- A run never panics itself. -/
theorem run_playAll (uses : List Use) (s : Scene Collector) :
    (playAll uses).run s = .ok () ((playAll uses).after s) := by
  induction uses generalizing s with
  | nil => rfl
  | cons use rest ih =>
    rw [Act.after, run_playAll_cons, ih]

theorem after_playAll_cons (use : Use) (rest : List Use) (s : Scene Collector) :
    (playAll (use :: rest)).after s = (playAll rest).after (use.act.after s) := by
  simp only [Act.after, run_playAll_cons]

/-- A resource that is refused is not released. -/
theorem after_closeSuppressing_of_closed {s : Scene Collector} (hc : s.focus.closed = true)
    (client : Option Client) : (Use.closeSuppressing client).act.after s = s := by
  cases client <;>
    simp [Use.act, Collector.closeSuppressing, Place.run_whole, Act.after, hc]

theorem run_release_ok (uses : List Use) (result : Except ErrorValue Unit) (s : Scene Collector) :
    (Client.mk uses (.ok result)).release.run s = .ok result ((playAll uses).after s) := by
  rw [Client.release, EStateM.run_bind, run_playAll]
  rfl

theorem run_release_error (uses : List Use) (payload : Payload) (s : Scene Collector) :
    (Client.mk uses (.error payload)).release.run s =
      .error payload ((playAll uses).after s) := by
  rw [Client.release, EStateM.run_bind, run_playAll]
  rfl

/-- The scene after a release on behalf of an open collector: what the uses of
the resource leave, with its error recorded. -/
theorem after_closeSuppressing {s : Scene Collector} (hc : s.focus.closed = false)
    (uses : List Use) (ending : Except Payload (Except ErrorValue Unit)) :
    (Use.closeSuppressing (some (.mk uses ending))).act.after s =
      match ending with
      | .ok (.error e) => (addError e).after ((playAll uses).after s)
      | _ => (playAll uses).after s := by
  cases ending with
  | ok result =>
    cases result <;>
      simp [Use.act, Collector.closeSuppressing, Place.run_whole, Act.after, run_release_ok, hc]
  | error payload =>
    simp [Use.act, Collector.closeSuppressing, Place.run_whole, Act.after, run_release_error, hc]

theorem after_operation (op : Operation) (s : Scene Collector) :
    (Use.operation op).act.after s = op.act.after s := by
  simp only [Use.act, Act.after, EStateM.run_bind]
  cases op.act.run s <;> rfl

theorem after_addError (e : ErrorValue) (s : Scene Collector) :
    (addError e).after s = (Operation.add (·.ofError e)).act.after s := by
  simp only [addError, Operation.act, Act.after, EStateM.run_bind, Act.run_onHeap]
  cases (Collector.add (s.heap.ofError e).1).run { s with heap := (s.heap.ofError e).2 } <;> rfl

end Collector
end Teardown
