/-
# Releasing into a collector

A resource is released by an act that ends well, with an error, or with a
panic. `closeSuppressing` releases one on behalf of a collector, which the
resource may itself use: the collector is looked up again once the resource is
done. A `scope` gives a body a collector of its own and closes it at the end;
`releaseAll` does so for a sequence of resources.

Key definitions: `Release`, `Collector.closeSuppressing`, `Collector.during`,
`Collector.scope`, `releaseAll`.
-/
import Teardown.Collector.Basic

namespace Teardown

/-- The release of a resource. -/
abbrev Release (σ : Type) := Act σ (Except ErrorValue Unit)

namespace Collector

variable {σ α : Type}

/-- Releases a resource, if there is one, and records its error in the
collector at `p`, which must be open at the start in any case. -/
def closeSuppressing (p : Place σ Collector) (resource : Option (Release σ)) : Act σ Unit := do
  p.run ensureOpen
  match resource with
  | none => return ()
  | some release =>
      match ← release with
      | .ok () => return ()
      | .error e => p.run (addError e)

/-- Runs an act with a collector of its own, which is dropped when the act ends,
also by a panic. -/
def during (c : Collector) (body : Act (Collector × σ) α) : Act σ α := fun s =>
  let start : Scene (Collector × σ) := { heap := s.heap, log := s.log, focus := (c, s.focus) }
  match (Act.ensuring body (Place.first.run drop)) start with
  | .ok a t => .ok a { heap := t.heap, log := t.log, focus := t.focus.2 }
  | .error e t => .error e { heap := t.heap, log := t.log, focus := t.focus.2 }

/-- Runs a body with a collector of its own and closes the collector. What the
body left in it comes in place of the body's value. -/
def scope (c : Collector) (body : Act (Collector × σ) α) : Act σ (Except FailureId α) :=
  during c do
    let value ← body
    match ← Place.first.run close with
    | some f => return .error f
    | none => return .ok value

end Collector

/-- Releases every resource in order and gives the collected failure, if any. -/
def releaseAll {σ : Type} (resources : List (Release σ)) : Act σ (Except FailureId Unit) :=
  Collector.scope {} do
    resources.forM fun release =>
      Collector.closeSuppressing Place.first (some (Place.second.run release))

/-! ### How the acts run -/

/-- A scene with something else beside its focus. -/
def Scene.paired {σ τ : Type} (s : Scene σ) (x : τ) : Scene (σ × τ) := ⟨s.heap, s.log, (s.focus, x)⟩

namespace Place

variable {σ τ α : Type}

theorem run_first (act : Act σ α) (s : Scene σ) (x : τ) :
    (first.run act).run (s.paired x) =
      match act.run s with
      | .ok a t => .ok a (t.paired x)
      | .error e t => .error e (t.paired x) := by
  have hat : (⟨(s.paired x).heap, (s.paired x).log, first.get (s.paired x).focus⟩ : Scene σ) = s :=
    rfl
  simp only [EStateM.run, run, hat]
  cases act s <;> rfl

theorem run_second (act : Act τ α) (s : Scene σ) (x : τ) :
    (second.run act).run (s.paired x) =
      match act.run ⟨s.heap, s.log, x⟩ with
      | .ok a t => .ok a (Scene.paired ⟨t.heap, t.log, s.focus⟩ t.focus)
      | .error e t => .error e (Scene.paired ⟨t.heap, t.log, s.focus⟩ t.focus) := by
  have hat : (⟨(s.paired x).heap, (s.paired x).log, second.get (s.paired x).focus⟩ : Scene τ) =
      ⟨s.heap, s.log, x⟩ := rfl
  simp only [EStateM.run, run, hat]
  cases act ⟨s.heap, s.log, x⟩ <;> rfl

end Place

namespace Collector

variable {σ α : Type}

/-- A release on behalf of an open collector. What the resource does it does to the
rest of the focus. -/
theorem run_closeSuppressingFirst (release : Release σ) {s : Scene Collector}
    (hc : s.focus.closed = false) (x : σ) :
    (closeSuppressing Place.first (some (Place.second.run release))).run (s.paired x) =
      match release.run ⟨s.heap, s.log, x⟩ with
      | .ok (.ok ()) t => .ok () (Scene.paired ⟨t.heap, t.log, s.focus⟩ t.focus)
      | .ok (.error e) t =>
          (Place.first.run (addError e)).run (Scene.paired ⟨t.heap, t.log, s.focus⟩ t.focus)
      | .error payload t =>
          .error payload (Scene.paired ⟨t.heap, t.log, s.focus⟩ t.focus) := by
  have hopen : (Place.first.run ensureOpen).run (s.paired x) = .ok () (s.paired x) := by
    rw [Place.run_first, run_ensureOpen, hc]
    rfl
  rw [closeSuppressing, EStateM.run_bind, hopen]
  simp only [EStateM.run_bind, Place.run_second]
  cases release.run ⟨s.heap, s.log, x⟩ with
  | error payload t => rfl
  | ok result t => cases result <;> rfl

theorem run_dropFirst (s : Scene (Collector × σ)) :
    (Place.first.run drop).run s = .ok () { s with
      log := (drop.after ⟨s.heap, s.log, s.focus.1⟩).log } := by
  have hrun := Place.run_first drop ⟨s.heap, s.log, s.focus.1⟩ s.focus.2
  rw [run_drop] at hrun
  refine hrun.trans ?_
  simp only [Act.after, run_drop]
  cases s.focus.1.primary with
  | none => rfl
  | some f => cases s.focus.1.warnsOnDrop && !s.focus.1.closed <;> rfl

theorem run_during (c : Collector) (body : Act (Collector × σ) α) (s : Scene σ) :
    (during c body).run s =
      match body.run (Scene.paired ⟨s.heap, s.log, c⟩ s.focus) with
      | .ok a t => .ok a ⟨t.heap, (drop.after ⟨t.heap, t.log, t.focus.1⟩).log, t.focus.2⟩
      | .error e t => .error e ⟨t.heap, (drop.after ⟨t.heap, t.log, t.focus.1⟩).log, t.focus.2⟩ := by
  show during c body s = _
  unfold during Act.ensuring
  simp only [EStateM.run, Scene.paired]
  cases body ⟨s.heap, s.log, (c, s.focus)⟩ with
  | ok a t =>
    have hdrop : (Place.first.run drop) t = _ := run_dropFirst t
    simp only [EStateM.map, hdrop]
  | error e t =>
    have hdrop : (Place.first.run drop) t = _ := run_dropFirst t
    simp only [hdrop]

/-- How a scope ends. The collector tells of what it still holds only if the body
panics, since otherwise it is closed by then. -/
theorem run_scope (c : Collector) (body : Act (Collector × σ) α) (s : Scene σ) :
    (scope c body).run s =
      match body.run (Scene.paired ⟨s.heap, s.log, c⟩ s.focus) with
      | .ok value t =>
          match close.run ⟨t.heap, t.log, t.focus.1⟩ with
          | .ok (some f) u => .ok (.error f) ⟨u.heap, u.log, t.focus.2⟩
          | .ok none u => .ok (.ok value) ⟨u.heap, u.log, t.focus.2⟩
          | .error e u => .error e ⟨u.heap, u.log, t.focus.2⟩
      | .error e t => .error e ⟨t.heap, (drop.after ⟨t.heap, t.log, t.focus.1⟩).log, t.focus.2⟩ := by
  rw [scope, run_during, EStateM.run_bind]
  cases body.run (Scene.paired ⟨s.heap, s.log, c⟩ s.focus) with
  | error e t => rfl
  | ok value t =>
    have hclose := Place.run_first close ⟨t.heap, t.log, t.focus.1⟩ t.focus.2
    rw [show Scene.paired ⟨t.heap, t.log, t.focus.1⟩ t.focus.2 = t from rfl] at hclose
    simp only [EStateM.run_bind, hclose, run_close]
    cases hc : t.focus.1.closed with
    | true =>
      cases hp : t.focus.1.primary <;> simp [Scene.paired, Act.after, run_drop, hc, hp]
    | false =>
      cases hp : t.focus.1.primary <;> simp [Scene.paired, Act.after, run_drop]

section

variable {c : Collector} {body : Act (Collector × σ) α} {s : Scene σ} {t : Scene Collector} {x : σ}

/-- The body ends well and leaves the collector open. -/
theorem run_scope_of_ok {value : α}
    (hbody : body.run (Scene.paired ⟨s.heap, s.log, c⟩ s.focus) = .ok value (t.paired x))
    (hopen : t.focus.closed = false) :
    (scope c body).run s =
      match t.focus.primary with
      | some f => .ok (.error f)
          ⟨t.heap, t.log.push (.raisedOnClose (t.heap.message f) (t.heap.suppressed f).length), x⟩
      | none => .ok (.ok value) ⟨t.heap, t.log, x⟩ := by
  rw [run_scope, hbody]
  simp only [Scene.paired, run_close, hopen]
  cases t.focus.primary <;> rfl

/-- The body ends well and leaves the collector closed. -/
theorem run_scope_of_closed {value : α}
    (hbody : body.run (Scene.paired ⟨s.heap, s.log, c⟩ s.focus) = .ok value (t.paired x))
    (hclosed : t.focus.closed = true) :
    (scope c body).run s = .error (.text closedMessage) ⟨t.heap, t.log, x⟩ := by
  rw [run_scope, hbody]
  simp only [Scene.paired, run_close, hclosed]
  rfl

/-- The body panics. -/
theorem run_scope_of_error {payload : Payload}
    (hbody : body.run (Scene.paired ⟨s.heap, s.log, c⟩ s.focus) = .error payload (t.paired x)) :
    (scope c body).run s = .error payload ⟨t.heap, (drop.after t).log, x⟩ := by
  rw [run_scope, hbody]
  rfl

end

end Collector

end Teardown
