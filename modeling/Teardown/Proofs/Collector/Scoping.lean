/-
# How a scope ends

A scope makes a collector, gives it to a body and closes it when the body is done. Its
body does with the collector what it likes, and ends well or with a panic. What comes of
the scope is told by how the body ended and by what it left in the collector: the body's
panic goes on, and the collector that is dropped then tells of what it still holds; or
the scope returns what is held, or the body's value if nothing is; or, when the body has
closed the collector, the scope's own close panics (`scope_reports`). So what is still
held when the body ends is returned or told of, and never both.

Key definitions: `Collector.unraised`.
Key theorems: `Collector.log_after_drop`, `Collector.scope_reports`.
-/
import Teardown.Proofs.Collector.Conduct

namespace Teardown
namespace Collector

variable {σ α : Type}

/-- What dropping a collector tells. -/
def unraised (s : Scene Collector) : List Event :=
  if s.focus.warnsOnDrop = true ∧ s.focus.closed = false then
    s.focus.primary.toList.map fun f => .droppedUnraised (s.heap.report f)
  else []

theorem log_after_drop (s : Scene Collector) :
    (drop.after s).log.toList = s.log.toList ++ unraised s := by
  unfold Act.after
  rw [run_drop]
  cases hp : s.focus.primary with
  | none => simp [unraised, hp]
  | some f =>
    by_cases hw : s.focus.warnsOnDrop = true ∧ s.focus.closed = false
    · simp [unraised, hp, hw]
    · have hquiet : (s.focus.warnsOnDrop && !s.focus.closed) = false := by simpa using hw
      simp [unraised, if_neg hw, hquiet]

/-- A collector that holds nothing once it is closed tells of what it holds, if it is to
warn. -/
theorem unraised_eq {s : Scene Collector} (hs : s.focus.closed = true → s.focus.primary = none) :
    unraised s = if s.focus.warnsOnDrop then
      s.focus.primary.toList.map fun f => .droppedUnraised (s.heap.report f) else [] := by
  unfold unraised
  cases hc : s.focus.closed with
  | true => simp [hs hc]
  | false => simp

/-! ### The three ends of a scope -/

section

variable {c : Collector} {body : Conduct α} {s : Scene σ}

/-- The body is run beside what else is at hand, which it leaves as it is. -/
theorem run_body (c : Collector) (body : Conduct α) (s : Scene σ) :
    let start : Scene Collector := ⟨s.heap, s.log, c⟩
    (Place.first.run body.act).run (start.paired s.focus) =
      match body.ending start with
      | .ok value => .ok value ((body.act.after start).paired s.focus)
      | .error payload => .error payload ((body.act.after start).paired s.focus) := by
  intro start
  rw [Place.run_first, Conduct.run_act]
  cases body.ending start <;> rfl

/-- A body that panics ends the scope, and what is dropped is told of. -/
theorem run_scope_of_panic {payload : Payload}
    (hbody : body.ending ⟨s.heap, s.log, c⟩ = .error payload) :
    let left := body.act.after ⟨s.heap, s.log, c⟩
    ∃ u, (scope c (Place.first.run body.act)).run s = .error payload u ∧ u.heap = left.heap ∧
      u.focus = s.focus ∧ u.log.toList = left.log.toList ++ unraised left := by
  intro left
  have hrun := run_body c body s
  simp only [hbody] at hrun
  exact ⟨⟨left.heap, (drop.after left).log, s.focus⟩, run_scope_of_error hrun, rfl, rfl,
    log_after_drop left⟩

/-- A body that returns leaves the collector open, and the scope closes it. -/
theorem run_scope_of_return {value : α}
    (hbody : body.ending ⟨s.heap, s.log, c⟩ = .ok value)
    (hopen : (body.act.after ⟨s.heap, s.log, c⟩).focus.closed = false) :
    let left := body.act.after ⟨s.heap, s.log, c⟩
    ∃ u, (scope c (Place.first.run body.act)).run s =
        .ok (match left.focus.primary with | some f => .error f | none => .ok value) u ∧
      u.heap = left.heap ∧ u.focus = s.focus ∧
      u.log.toList = left.log.toList ++ left.focus.primary.toList.map fun f =>
        .raisedOnClose (left.heap.message f) (left.heap.suppressed f).length := by
  intro left
  have hrun := run_body c body s
  simp only [hbody] at hrun
  have hended := run_scope_of_ok hrun hopen
  cases hp : left.focus.primary with
  | none =>
    have hp : (body.act.after ⟨s.heap, s.log, c⟩).focus.primary = none := hp
    simp only [hp] at hended
    exact ⟨_, hended, rfl, rfl, (List.append_nil _).symm⟩
  | some f =>
    have hp : (body.act.after ⟨s.heap, s.log, c⟩).focus.primary = some f := hp
    simp only [hp] at hended
    exact ⟨_, hended, rfl, rfl, Array.toList_push⟩

/-- A body that returns with the collector closed makes the scope's close panic. -/
theorem run_scope_of_return_closed {value : α}
    (hbody : body.ending ⟨s.heap, s.log, c⟩ = .ok value)
    (hclosed : (body.act.after ⟨s.heap, s.log, c⟩).focus.closed = true) :
    let left := body.act.after ⟨s.heap, s.log, c⟩
    (scope c (Place.first.run body.act)).run s =
      .error (.text closedMessage) ⟨left.heap, left.log, s.focus⟩ := by
  have hrun := run_body c body s
  simp only [hbody] at hrun
  exact run_scope_of_closed hrun hclosed

end

/-! ### What a body leaves -/

section

variable {s : Scene Collector} (body : Conduct α)

/-- A body leaves the collector closed exactly when a close has returned in it. -/
theorem closed_after_body (hs : s.focus.StartsRound) :
    (body.act.after s).focus.closed = true ↔ ∃ m ∈ body.moments s, Closes m := by
  have hclosed : (body.act.after s).focus.closed = true ↔
      s.focus.closed = true ∨ ∃ m ∈ body.moments s, Closes m := (body.linked_moments s).closed_iff
  rw [hclosed, hs.isOpen]
  simp

end

/-- **A scope reports what its body leaves behind.** Let a scope make a collector at the
start of a round, with any limit and any supplier. Its body does not warn. If the body
panics the panic goes on, and what the collector still holds is told of, if it is to
warn; a collector that the body has closed holds nothing. If the body returns after it
has closed the collector, the scope panics and its value is lost. Else the scope gives
the failure that is held, or the body's value if none is, and only the close tells
something. So a failure that is held when the body ends is returned or told of, and never
both; one that is not told of is only lost when the collector is not to warn. -/
theorem scope_reports (c : Collector) (hc : c.StartsRound) (body : Conduct α) (s : Scene σ) :
    let start : Scene Collector := ⟨s.heap, s.log, c⟩
    let left := body.act.after start
    let held := left.focus.primary
    let closes := ∃ m ∈ body.moments start, Closes m
    let ended := (scope c (Place.first.run body.act)).run s
    warnings left.log = warnings s.log ∧ (closes → held = none) ∧
    ∃ u told, u.heap = left.heap ∧ u.focus = s.focus ∧ u.log.toList = left.log.toList ++ told ∧
      (∀ payload, body.ending start = .error payload → ended = .error payload u ∧
        told = if c.warnsOnDrop then held.toList.map fun f => .droppedUnraised (u.heap.report f)
          else []) ∧
      (∀ value, body.ending start = .ok value →
        (closes → ended = .error (.text closedMessage) u) ∧
        (¬ closes → ended = .ok (match held with | some f => .error f | none => .ok value) u) ∧
        told = held.toList.map fun f =>
          .raisedOnClose (u.heap.message f) (u.heap.suppressed f).length) ∧
      ∀ f, held = some f →
        (ended = .ok (.error f) u → ∀ event ∈ told, event.level ≠ .warn) ∧
        (c.warnsOnDrop = true → ended = .ok (.error f) u ∨
          told = [.droppedUnraised (u.heap.report f)]) := by
  intro start left held closes ended
  have hstart : start.focus.StartsRound := hc
  have hclosed : left.focus.closed = true ↔ closes := closed_after_body body hstart
  have hlinked : Linked start.beside (body.moments start) left.beside := body.linked_moments start
  have hempty : closes → held = none := fun h => (hlinked.retired_of_closes h).empty
  refine ⟨hlinked.warnings_eq, hempty, ?_⟩
  cases hbody : body.ending start with
  | error payload =>
    obtain ⟨u, hended, hheap, hfocus, hlog⟩ := run_scope_of_panic hbody
    have htold : unraised left = if c.warnsOnDrop then
        held.toList.map fun f => .droppedUnraised (u.heap.report f) else [] := by
      have hwarns : left.focus.warnsOnDrop = c.warnsOnDrop := hlinked.warnsOnDrop_eq
      rw [unraised_eq fun h => hempty (hclosed.mp h), hwarns, hheap]
    refine ⟨u, unraised left, hheap, hfocus, hlog, ?_, ?_,
      fun f hf => ⟨fun h => ?_, fun hw => .inr ?_⟩⟩
    · rintro payload' ⟨⟩
      exact ⟨hended, htold⟩
    · rintro value ⟨⟩
    · cases hended.symm.trans h
    · simp [htold, hw, hf]
  | ok value =>
    by_cases hcl : closes
    · -- the body has closed the collector
      have hended : ended = .error (.text closedMessage) ⟨left.heap, left.log, s.focus⟩ :=
        run_scope_of_return_closed hbody (hclosed.mpr hcl)
      have hnone : held = none := hempty hcl
      refine ⟨⟨left.heap, left.log, s.focus⟩, [], rfl, rfl, (List.append_nil _).symm, ?_, ?_, ?_⟩
      · rintro payload ⟨⟩
      · rintro value' ⟨⟩
        exact ⟨fun _ => hended, fun h => absurd hcl h, by simp [hnone]⟩
      · intro f hf
        simp [hnone] at hf
    · -- the scope closes it
      have hopen : left.focus.closed = false := by simpa [hcl] using hclosed
      obtain ⟨u, hended, hheap, hfocus, hlog⟩ := run_scope_of_return hbody hopen
      refine ⟨u, _, hheap, hfocus, hlog, ?_, ?_,
        fun f hf => ⟨fun _ event hevent => ?_, fun _ => .inl ?_⟩⟩
      · rintro payload ⟨⟩
      · rintro value' ⟨⟩
        exact ⟨fun h => absurd h hcl, fun _ => hended, by rw [hheap]⟩
      · obtain ⟨g, -, rfl⟩ := List.mem_map.mp hevent
        simp [Event.level]
      · have hf : left.focus.primary = some f := hf
        simp only [left, start] at hf
        simpa only [hf] using hended

/-- A body that catches the panic it has the collector raise, adds another failure and
then panics itself. -/
def recovering : Conduct Unit :=
  .does (.add (·.alloc { message := "a" })) fun _ =>
    .does .takeAndPanic fun _ =>
      .does (.add (·.alloc { message := "b" })) fun _ => .panics (.text "stop")

theorem ending_recovering (s : Scene Collector) : recovering.ending s = .error (.text "stop") := by
  simp only [recovering, Conduct.ending_does, Conduct.ending_panics]

/-- The failure that was raised is not told of again; the one that is still held is. -/
theorem scope_reports_recovering :
    ({} : Collector).StartsRound ∧
      ∃ u, (scope {} (Place.first.run recovering.act)).run (⟨{}, #[], ()⟩ : Scene Unit) =
          .error (.text "stop") u ∧
        (warnings u.log).map (·.fields.head?) = [some ("failure", .text "b")] := by
  refine ⟨startsRound_new, ?_⟩
  obtain ⟨hquiet, -, u, told, hheap, -, hlog, hpanic, -⟩ :=
    scope_reports {} startsRound_new recovering (⟨{}, #[], ()⟩ : Scene Unit)
  obtain ⟨hended, htold⟩ := hpanic (.text "stop") (ending_recovering _)
  refine ⟨u, hended, ?_⟩
  have hwarnings : warnings u.log = told.filter (·.level = .warn) := by
    rw [warnings] at hquiet
    rw [warnings, hlog, List.filter_append, hquiet]
    rfl
  rw [hwarnings, htold, hheap]
  decide +kernel

end Collector
end Teardown
