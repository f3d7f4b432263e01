/-
# What a holder of a collector does

Whoever holds a collector goes on by what comes of each step: it looks at the
collector whenever it likes, it is given the answer of each operation or the panic
that the operation ends with, and it catches that panic, lets it through or ends with
another one. A conduct is all that its holder may do until it ends, well or with a
panic. So it is told step by step which operations it does, in which scenes, and they
are linked as those of any other run (`Conduct.linked_moments`).

A collector is closed once a close has returned, and by nothing else
(`Linked.closed_iff`).

Key definitions: `Collector.Conduct`, `Collector.Conduct.act`,
`Collector.Conduct.moments`, `Collector.Closes`.
Key theorems: `Collector.Conduct.linked_moments`, `Collector.Linked.closed_iff`,
`Collector.Linked.mayPanic_iff`.
-/
import Teardown.Proofs.Collector.Closing

namespace Teardown
namespace Collector

/-- What a holder of a collector does until it ends. -/
inductive Conduct (α : Type) where
  | gives (value : α)
  /-- It ends with a panic, of its own or one that it lets through. -/
  | panics (payload : Payload)
  | looks (next : Scene Collector → Conduct α)
  /-- It does something with the collector and goes on by how that ended. -/
  | does (op : Operation) (next : Except Payload Answer → Conduct α)
  /-- It has a resource released, if there is one, on the collector's behalf. -/
  | releases (client : Option Client) (next : Except Payload Unit → Conduct α)
  /-- Something happens to failures elsewhere. -/
  | elsewhere (change : Heap → Heap) (next : Conduct α)

namespace Conduct

variable {α : Type}

/-- What a holder does, as an act. -/
def act : Conduct α → Act Collector α
  | gives value => return value
  | panics payload => throw payload
  | looks next => do (next (← get)).act
  | does op next => do (next (← Act.caught op.act)).act
  | releases client next => do (next (← Act.caught (Use.closeSuppressing client).act)).act
  | elsewhere change next => do
      (Use.elsewhere change).act
      next.act

/-- How a release on the collector's behalf ends. -/
def released (client : Option Client) (s : Scene Collector) : Except Payload Unit :=
  match (Use.closeSuppressing client).act.run s with
  | .ok _ _ => .ok ()
  | .error payload _ => .error payload

/-- How a holder ends. -/
def ending (conduct : Conduct α) (s : Scene Collector) : Except Payload α :=
  match conduct.act.run s with
  | .ok value _ => .ok value
  | .error payload _ => .error payload

/-- The moments of what a holder does. -/
def moments : Conduct α → Scene Collector → List Moment
  | gives _, _ => []
  | panics _, _ => []
  | looks next, s => (next s).moments s
  | does op next, s => ⟨op, s⟩ :: (next (Moment.outcome ⟨op, s⟩)).moments (Moment.after ⟨op, s⟩)
  | releases client next, s =>
      (Use.closeSuppressing client).moments s ++
        (next (released client s)).moments ((Use.closeSuppressing client).act.after s)
  | elsewhere change next, s => next.moments ((Use.elsewhere change).act.after s)

/-! ### How a conduct goes -/

theorem run_does (op : Operation) (next : Except Payload Answer → Conduct α)
    (s : Scene Collector) :
    (does op next).act.run s =
      (next (Moment.outcome ⟨op, s⟩)).act.run (Moment.after ⟨op, s⟩) := by
  rw [act, EStateM.run_bind, Act.run_caught, Moment.outcome, Moment.after, Act.after]
  cases op.act.run s <;> rfl

theorem run_releases (client : Option Client) (next : Except Payload Unit → Conduct α)
    (s : Scene Collector) :
    (releases client next).act.run s =
      (next (released client s)).act.run ((Use.closeSuppressing client).act.after s) := by
  rw [act, EStateM.run_bind, Act.run_caught, released, Act.after]
  cases (Use.closeSuppressing client).act.run s <;> rfl

/-- How a conduct ends, and the scene that it leaves. -/
theorem run_act (conduct : Conduct α) (s : Scene Collector) :
    conduct.act.run s =
      match conduct.ending s with
      | .ok value => .ok value (conduct.act.after s)
      | .error payload => .error payload (conduct.act.after s) := by
  rw [ending, Act.after]
  cases conduct.act.run s <;> rfl

@[simp] theorem ending_gives (value : α) (s : Scene Collector) :
    (gives value).ending s = .ok value := rfl

@[simp] theorem ending_panics (payload : Payload) (s : Scene Collector) :
    (panics payload : Conduct α).ending s = .error payload := rfl

@[simp] theorem ending_does (op : Operation) (next : Except Payload Answer → Conduct α)
    (s : Scene Collector) :
    (does op next).ending s = (next (Moment.outcome ⟨op, s⟩)).ending (Moment.after ⟨op, s⟩) := by
  rw [ending, run_does, ← ending]

/-- **A conduct leads from moment to moment.** -/
theorem follows_moments (conduct : Conduct α) (s : Scene Collector) :
    Follows .any s (conduct.moments s) (conduct.act.after s) := by
  induction conduct generalizing s with
  | gives value => exact .nil s
  | panics payload => exact .nil s
  | looks next ih => exact ih s s
  | does op next ih =>
    have hrun := run_does op next s
    have hmoment : (⟨op, s⟩ : Moment).Abides .any := fun _ _ => trivial
    rw [Act.after, hrun]
    exact .moment (m := ⟨op, s⟩) hmoment (ih _ _)
  | releases client next ih =>
    have hrun := run_releases client next s
    rw [Act.after, hrun]
    exact (follows_use _ s (Use.abides_any _ s)).append (ih _ _)
  | elsewhere change next ih =>
    exact (follows_use _ s (Use.abides_any (.elsewhere change) s)).append (ih _)

theorem linked_moments (conduct : Conduct α) (s : Scene Collector) :
    Linked s.beside (conduct.moments s) (conduct.act.after s).beside :=
  (conduct.follows_moments s).linked

end Conduct

/-! ### What any operation preserves -/

/-- A close that returns. -/
def Closes (m : Moment) : Prop := m.operation = .close ∧ m.returned = true

/-- Adding neither opens nor closes a collector. -/
theorem closed_after_add (offer : Heap → FailureId × Heap) (s : Scene Collector) :
    (⟨.add offer, s⟩ : Moment).after.focus.closed = s.focus.closed := by
  rw [after_add]
  refine after_of_added _ _ (P := fun t => t.focus.closed = s.focus.closed) fun r hr => ?_
  cases hr <;> rfl

/-- A drain closes an open collector exactly when it is a close. -/
theorem closed_after_drain {op : Operation} (hd : op.Drains) {s : Scene Collector}
    (hc : s.focus.closed = false) :
    (⟨op, s⟩ : Moment).after.focus.closed = true ↔ op = .close := by
  obtain ⟨-, hafter, -⟩ := Operation.run_of_open hd hc
  rw [hafter]
  cases op <;> simp [Operation.drained, hc]

/-- An open collector's close returns. -/
theorem returned_of_close {s : Scene Collector} (hc : s.focus.closed = false) :
    (⟨.close, s⟩ : Moment).returned = true := by
  unfold Moment.returned Moment.outcome
  cases hp : s.focus.primary <;>
    simp [Operation.act, run_close, hc, hp, -bind_pure_comp]

/-- **Only a close that returns closes a collector**, and nothing opens one. -/
theorem Moment.closed_after (m : Moment) :
    m.after.focus.closed = true ↔ m.before.focus.closed = true ∨ Closes m := by
  obtain ⟨op, s⟩ := m
  have hdrain : op.Drains → ((⟨op, s⟩ : Moment).after.focus.closed = true ↔
      s.focus.closed = true ∨ Closes ⟨op, s⟩) := by
    intro hd
    by_cases hc : s.focus.closed = true
    · rw [(Operation.after_of_closed hd hc).1]
      simp [hc]
    · have hopen : s.focus.closed = false := by simpa using hc
      rw [closed_after_drain hd hopen]
      constructor
      · rintro rfl
        exact .inr ⟨rfl, returned_of_close hopen⟩
      · rintro (hclosed | ⟨hop, -⟩)
        · exact absurd hclosed hc
        · exact hop
  cases op with
  | add offer => simp [closed_after_add, Closes]
  | peek => simp [Moment.after, Act.after, Operation.run_peek, Closes]
  | panicKeeping => cases hp : s.focus.primary <;> simp [after_panicKeeping, hp, Closes]
  | take => exact hdrain trivial
  | takeAsError => exact hdrain trivial
  | takeAndPanic => exact hdrain trivial
  | close => exact hdrain trivial

/-- Whether a supplier may panic is told by what it answers, not by how often it was
asked. -/
theorem mayPanic_of_eq {c d : Collector} (h : d.supplier = c.supplier) :
    d.MayPanic ↔ c.MayPanic := by
  simp [MayPanic, h]

/-- No operation exchanges the supplier. -/
theorem Moment.mayPanic_after (m : Moment) :
    m.after.focus.MayPanic ↔ m.before.focus.MayPanic := by
  obtain ⟨op, s⟩ := m
  have hdrain : op.Drains → ((⟨op, s⟩ : Moment).after.focus.MayPanic ↔ s.focus.MayPanic) := by
    intro hd
    by_cases hc : s.focus.closed = true
    · rw [(Operation.after_of_closed hd hc).1]
    · obtain ⟨-, hafter, -⟩ := Operation.run_of_open hd (by simpa using hc)
      rw [hafter]
      exact mayPanic_of_eq (op.drained_supplier s.focus)
  cases op with
  | add offer =>
    rw [after_add]
    refine after_of_added _ _ (P := fun t => t.focus.MayPanic ↔ s.focus.MayPanic) fun r hr => ?_
    cases hr with
    | supplied _ _ _ supplier hs => exact Tallied.mayPanic_called hs rfl
    | unsupplied _ _ _ supplier hs => exact Tallied.mayPanic_called hs rfl
    | _ => exact mayPanic_of_eq rfl
  | peek => exact Iff.rfl
  | panicKeeping => cases hp : s.focus.primary <;> simp [after_panicKeeping, hp]
  | take => exact hdrain trivial
  | takeAsError => exact hdrain trivial
  | takeAndPanic => exact hdrain trivial
  | close => exact hdrain trivial

namespace Linked

variable {c d : Collector × Array Event} {ms : List Moment}

/-- **A collector is closed at the end of a run** if it was so at its start, or if a close
in it has returned. -/
theorem closed_iff (h : Linked c ms d) :
    d.1.closed = true ↔ c.1.closed = true ∨ ∃ m ∈ ms, Closes m := by
  induction h with
  | nil => simp
  | @cons m ms d rest ih =>
    have hm := m.closed_after
    calc d.1.closed = true ↔ m.after.focus.closed = true ∨ ∃ n ∈ ms, Closes n := ih
      _ ↔ (m.before.focus.closed = true ∨ Closes m) ∨ ∃ n ∈ ms, Closes n := by rw [hm]
      _ ↔ m.before.focus.closed = true ∨ ∃ n ∈ m :: ms, Closes n := by
        simp only [List.mem_cons, exists_eq_or_imp, or_assoc]

/-- A collector that has been closed in a run holds nothing at its end. -/
theorem retired_of_closes (h : Linked c ms d) (hcloses : ∃ m ∈ ms, Closes m) : d.1.Retired := by
  obtain ⟨m, hm, hclose, hreturned⟩ := hcloses
  obtain ⟨before, later, rfl⟩ := List.append_of_mem hm
  obtain ⟨e, hlater⟩ := h.of_append_right
  cases hlater with
  | cons hlater =>
    obtain ⟨hd, -⟩ := hlater.retired (Moment.retired_after_close hclose hreturned)
    have hretired : m.after.focus.Retired := Moment.retired_after_close hclose hreturned
    rw [hd]
    exact ⟨hretired.closed, hretired.empty⟩

theorem mayPanic_iff (h : Linked c ms d) : d.1.MayPanic ↔ c.1.MayPanic := by
  induction h with
  | nil => exact Iff.rfl
  | @cons m _ _ _ ih => exact ih.trans m.mayPanic_after

end Linked

end Collector
end Teardown
