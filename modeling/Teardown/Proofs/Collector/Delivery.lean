/-
# Every primary failure is handed out once

In a run of operations the primary failures come in one after the other, and a
drain hands out the one that is there. So what is installed is what has been
handed out, followed by what is still held, in the same order
(`exactly_once`). No operation warns; dropping the collector does, once, if a
failure is still held and such a drop is to be told.

Key definitions: `Collector.Moment.installed`, `Collector.warnings`.
Key theorems: `Collector.Moment.conserves`, `Collector.Linked.conserves`,
`Collector.exactly_once`.
-/
import Teardown.Proofs.Collector.Acceptance

namespace Teardown
namespace Collector

/-- The failure that an addition makes the primary one, if it does. -/
def Moment.installed (m : Moment) : Option FailureId :=
  match m.operation with
  | .add _ => if m.before.focus.primary.isNone then m.after.focus.primary else none
  | _ => none

/-- The warnings of a log. -/
def warnings (log : Array Event) : List Event := log.toList.filter (·.level = .warn)

theorem warnings_push (log : Array Event) (event : Event) :
    warnings (log.push event) = warnings log ++ if event.level = .warn then [event] else [] := by
  by_cases h : event.level = .warn <;> simp [warnings, h]

/-! ### What one operation hands on -/

section

variable {s : Scene Collector}

theorem after_add (offer : Heap → FailureId × Heap) (s : Scene Collector) :
    (⟨.add offer, s⟩ : Moment).after =
      (Collector.add (offer s.heap).1).after { s with heap := (offer s.heap).2 } := by
  simp only [Moment.after, Act.after, Operation.run_add]
  cases (Collector.add (offer s.heap).1).run { s with heap := (offer s.heap).2 } <;> rfl

theorem after_panicKeeping (s : Scene Collector) :
    (⟨.panicKeeping, s⟩ : Moment).after =
      match s.focus.primary with
      | some f => { s with log := s.log.push (.raisedAsPanic (s.heap.kind f) (s.heap.render f)) }
      | none => s := by
  simp only [Moment.after, Act.after, Operation.run_panicKeeping]
  cases s.focus.primary <;> rfl

/-- Adding leaves a primary failure in its place. -/
theorem primary_after_add {f p : FailureId} (hp : s.focus.primary = some p) :
    ((Collector.add f).after s).focus.primary = some p := by
  refine after_of_added f s (P := fun t => t.focus.primary = some p) fun r hr => ?_
  cases hr with
  | recorded _ _ hnone => simp [hp] at hnone
  | supplied _ _ hnone => simp [hp] at hnone
  | unsupplied _ _ hnone => simp [hp] at hnone
  | _ => exact hp

/-- What a drain hands out is what was held, and it is not held any more. -/
theorem drain_conserves {op : Operation} (hd : op.Drains) (s : Scene Collector) :
    s.focus.primary.toList =
      (⟨op, s⟩ : Moment).delivered.toList ++ (⟨op, s⟩ : Moment).after.focus.primary.toList := by
  cases hc : s.focus.closed with
  | true =>
    obtain ⟨hafter, hdelivered⟩ := Operation.after_of_closed hd hc
    rw [hafter, hdelivered]
    rfl
  | false =>
    obtain ⟨hdelivered, hafter, -⟩ := Operation.run_of_open hd hc
    rw [hdelivered, hafter, Operation.drained_primary]
    simp

end

/-- **What one operation conserves.** What was held and what is installed are
what is handed out and what is held then. -/
theorem Moment.conserves (m : Moment) :
    m.before.focus.primary.toList ++ m.installed.toList =
      m.delivered.toList ++ m.after.focus.primary.toList := by
  obtain ⟨op, s⟩ := m
  cases op with
  | add offer =>
    have hdelivered : (⟨.add offer, s⟩ : Moment).delivered = none := by
      simp [Moment.delivered]
    rw [hdelivered]
    cases hp : s.focus.primary with
    | none => simp [Moment.installed, hp]
    | some p =>
      have hafter : (⟨.add offer, s⟩ : Moment).after.focus.primary = some p := by
        rw [after_add]
        exact primary_after_add hp
      simp [Moment.installed, hp, hafter]
  | peek => simp [Moment.installed, Moment.delivered, Moment.after, Act.after, Operation.run_peek]
  | panicKeeping =>
    cases hp : s.focus.primary <;>
      simp [Moment.installed, Moment.delivered, after_panicKeeping, hp]
  | take =>
    have hd : Operation.take.Drains := trivial
    simpa [Moment.installed] using drain_conserves hd s
  | takeAsError =>
    have hd : Operation.takeAsError.Drains := trivial
    simpa [Moment.installed] using drain_conserves hd s
  | takeAndPanic =>
    have hd : Operation.takeAndPanic.Drains := trivial
    simpa [Moment.installed] using drain_conserves hd s
  | close =>
    have hd : Operation.close.Drains := trivial
    simpa [Moment.installed] using drain_conserves hd s

/-- An operation leaves the choice to warn as it is. -/
theorem Moment.warnsOnDrop_after (m : Moment) :
    m.after.focus.warnsOnDrop = m.before.focus.warnsOnDrop := by
  obtain ⟨op, s⟩ := m
  cases op with
  | add offer =>
    rw [after_add]
    refine after_of_added _ _ (P := fun t => t.focus.warnsOnDrop = s.focus.warnsOnDrop)
      fun r hr => ?_
    cases hr <;> rfl
  | peek => rfl
  | panicKeeping => cases hp : s.focus.primary <;> simp [after_panicKeeping, hp]
  | _ =>
    cases hc : s.focus.closed <;> cases hp : s.focus.primary <;>
      simp [Moment.after, Act.after, Operation.act, run_take, run_takeAndPanic, run_close, hc, hp,
        -bind_pure_comp]

/-- No operation warns. -/
theorem Moment.warnings_after (m : Moment) : warnings m.after.log = warnings m.before.log := by
  obtain ⟨op, s⟩ := m
  cases op with
  | add offer =>
    rw [after_add]
    refine after_of_added _ _ (P := fun t => warnings t.log = warnings s.log) fun r hr => ?_
    cases hr with
    | dropped =>
      simp only [warnings_push]
      split <;> simp [Event.level]
    | _ => simp [warnings_push, Event.level]
  | peek => rfl
  | panicKeeping =>
    cases hp : s.focus.primary <;> simp [after_panicKeeping, hp, warnings_push, Event.level]
  | _ =>
    cases hc : s.focus.closed <;> cases hp : s.focus.primary <;>
      simp [Moment.after, Act.after, Operation.act, run_take, run_takeAndPanic, run_close, hc, hp,
        warnings_push, Event.level, -bind_pure_comp]

/-! ### What a run hands on -/

namespace Linked

variable {c d : Collector × Array Event} {ms ns : List Moment}

/-- A run's beginning is a run. -/
theorem of_append : ∀ {ms : List Moment} {c : Collector × Array Event},
    Linked c (ms ++ ns) d → ∃ e, Linked c ms e
  | [], c, _ => ⟨c, .nil c⟩
  | _ :: _, _, .cons rest =>
    let ⟨e, he⟩ := of_append rest
    ⟨e, .cons he⟩

/-- **What a run conserves.** -/
theorem conserves (h : Linked c ms d) :
    c.1.primary.toList ++ ms.filterMap Moment.installed =
      ms.filterMap Moment.delivered ++ d.1.primary.toList := by
  induction h with
  | nil => simp
  | @cons m ms d rest ih =>
    have hcons : ∀ g : Moment → Option FailureId,
        (m :: ms).filterMap g = (g m).toList ++ ms.filterMap g := by
      intro g
      cases hg : g m <;> simp [hg]
    calc m.before.beside.1.primary.toList ++ (m :: ms).filterMap Moment.installed
        = (m.before.focus.primary.toList ++ m.installed.toList) ++
            ms.filterMap Moment.installed := by rw [hcons, List.append_assoc]; rfl
      _ = m.delivered.toList ++ (m.after.focus.primary.toList ++
            ms.filterMap Moment.installed) := by rw [m.conserves, List.append_assoc]
      _ = m.delivered.toList ++ (ms.filterMap Moment.delivered ++ d.1.primary.toList) := by
            rw [← ih]; rfl
      _ = (m :: ms).filterMap Moment.delivered ++ d.1.primary.toList := by
            rw [hcons, List.append_assoc]

theorem warnsOnDrop_eq (h : Linked c ms d) : d.1.warnsOnDrop = c.1.warnsOnDrop := by
  induction h with
  | nil => rfl
  | @cons m _ _ _ ih => exact ih.trans m.warnsOnDrop_after

theorem warnings_eq (h : Linked c ms d) : warnings d.2 = warnings c.2 := by
  induction h with
  | nil => rfl
  | @cons m _ _ _ ih => exact ih.trans m.warnings_after

end Linked

/-! ### What a drop tells -/

theorem message_report (h : Heap) (f : FailureId) : (h.report f).message = h.message f := rfl

/-- **Every primary failure is handed out once, or it is still held at the end.**
In a run from the start of a round, the failures that were installed are the
ones that drains handed out followed by the one still held, in the same order,
and none is handed out before it is installed. A panic that keeps the failure
changes neither the collector nor any failure. The run itself does not warn;
dropping the collector warns once, with the message and the report of what is
still held, if anything is and the collector warns at all. -/
theorem exactly_once (s : Scene Collector) (hs : s.focus.StartsRound) (uses : List Use) :
    let t := (playAll uses).after s
    let ms := momentsOf uses s
    ms.filterMap Moment.installed = ms.filterMap Moment.delivered ++ t.focus.primary.toList ∧
      (∀ ns, ns <+: ms → ns.filterMap Moment.delivered <+: ns.filterMap Moment.installed) ∧
      (∀ m ∈ ms, m.operation = .panicKeeping →
        m.after.focus = m.before.focus ∧ m.after.heap = m.before.heap ∧
          ∀ f, m.before.focus.primary = some f → m.outcome = .error (.failure f)) ∧
      warnings t.log = warnings s.log ∧
      (∀ f, t.focus.primary = some f → s.focus.warnsOnDrop = true →
        ∃ event, drop.run t = .ok () { t with log := t.log.push event } ∧
          event.level = .warn ∧
          event.fields = [("failure", .text (t.heap.message f)),
            ("report", .text (t.heap.report f).encode)]) ∧
      (t.focus.primary = none ∨ s.focus.warnsOnDrop = false → drop.run t = .ok () t) := by
  intro t ms
  have hl : Linked s.beside ms t.beside := linked_momentsOf uses s
  have hwarns : t.focus.warnsOnDrop = s.focus.warnsOnDrop := hl.warnsOnDrop_eq
  have hstart : s.beside.1.primary = none := hs.primary
  refine ⟨?_, ?_, ?_, hl.warnings_eq, ?_, ?_⟩
  · have h := hl.conserves
    rw [hstart] at h
    exact h
  · rintro ns ⟨rest, hms⟩
    rw [← hms] at hl
    obtain ⟨e, he⟩ := hl.of_append
    have h := he.conserves
    rw [hstart] at h
    exact ⟨e.1.primary.toList, h.symm⟩
  · rintro ⟨op, u⟩ - hop
    obtain rfl : op = .panicKeeping := hop
    refine ⟨?_, ?_, fun f hf => ?_⟩
    · rw [after_panicKeeping]
      cases u.focus.primary <;> rfl
    · rw [after_panicKeeping]
      cases u.focus.primary <;> rfl
    · have hf : u.focus.primary = some f := hf
      simp [Moment.outcome, Operation.run_panicKeeping, hf]
  · intro f hf hw
    -- a collector that holds a failure is open
    have hopen : t.focus.closed = false := by
      cases hc : t.focus.closed with
      | false => rfl
      | true =>
        have hnone := (tallied_playAll hs uses).closed hc
        exact absurd (hf.symm.trans hnone) (by simp)
    refine ⟨.droppedUnraised (t.heap.report f), ?_, rfl, ?_⟩
    · simp [run_drop, hf, hwarns, hw, hopen]
    · rw [Event.fields, message_report]
  · rintro (hnone | hw)
    · simp [run_drop, hnone]
    · cases hp : t.focus.primary <;> simp [run_drop, hp, hwarns, hw]

/-- A run with two primary failures: one is taken, one is shown and held to the
end. -/
def twoRounds : List Use :=
  [addNew "a", .operation .take, addNew "b", .operation .panicKeeping]

theorem exactly_once_twoRounds :
    let ms := momentsOf twoRounds { focus := {} }
    let t := (playAll twoRounds).after { focus := {} }
    ms.filterMap Moment.installed = [0, 1] ∧ ms.filterMap Moment.delivered = [0] ∧
      ∃ event, drop.run t = .ok () { t with log := t.log.push event } ∧ event.level = .warn := by
  have hheld : ((playAll twoRounds).after { focus := {} }).focus.primary = some 1 := by
    decide +kernel
  have hdelivered : (momentsOf twoRounds { focus := {} }).filterMap Moment.delivered = [0] := by
    decide +kernel
  obtain ⟨hall, -, -, -, hwarns, -⟩ := exactly_once { focus := {} } startsRound_new twoRounds
  obtain ⟨event, hdrop, hlevel, -⟩ := hwarns 1 hheld rfl
  rw [hheld, hdelivered] at hall
  exact ⟨hall, hdelivered, event, hdrop, hlevel⟩

end Collector
end Teardown
