/-
# Closing is for good

Once a collector has been closed it holds nothing and stays so. Whatever is done
with it then is refused before anything else happens: no supplier is asked, no
failure is attached, no resource is released, no round begins and no failure is
counted as dropped (`refuses_of_retired`). Only the number of failures offered
goes on counting. So all that a run does with it after the close is to count
(`closed_for_good`).

Key definitions: `Collector.Retired`, `Collector.Refuses`.
Key theorems: `Collector.refuses_of_retired`, `Collector.Linked.retired`,
`Collector.closed_for_good`.
-/
import Teardown.Proofs.Collector.Delivery
import Teardown.Proofs.Failure.Limiting

namespace Teardown
namespace Collector

/-- A collector that has been closed. -/
structure Retired (c : Collector) : Prop where
  closed : c.closed = true
  empty : c.primary = none

/-- Whether an operation adds a failure. -/
def Operation.adds : Operation → Bool
  | .add _ => true
  | _ => false

/-- What is offered has at most been counted and limited: it is refused, the log
and the supplier are as they were, no failure that was there has changed, and none
suppresses it that did not before. -/
structure Rejects (offer : Heap → FailureId × Heap) (s : Scene Collector) (heap : Heap) :
    Prop where
  run : (Operation.add offer).act.run s =
    .error (.text closedMessage) { s with heap, focus := s.focus.counted }
  extends_heap : (offer s.heap).2.Extends heap
  noMore : Heap.NoMore (offer s.heap).1 (offer s.heap).2 heap

/-- How a collector that has been closed takes what is done with it. -/
structure Refuses (s : Scene Collector) : Prop where
  add : ∀ offer, ∃ heap, Rejects offer s heap
  drain : ∀ op : Operation, op.Drains → op.act.run s = .error (.text closedMessage) s
  /-- Whatever releasing the resource would do is not done. -/
  closeSuppressing : ∀ (τ : Type) (x : τ) (resource : Option (Release (Collector × τ))),
    (closeSuppressing Place.first resource).run { s with focus := (s.focus, x) } =
      .error (.text closedMessage) { s with focus := (s.focus, x) }
  peek : Operation.peek.act.run s = .ok (.value none) s
  panicKeeping : Operation.panicKeeping.act.run s = .ok .done s
  drop : drop.run s = .ok () s

section

variable {s : Scene Collector}

/-- Adding to a closed collector. -/
theorem rejects_of_closed (hc : s.focus.closed = true) (offer : Heap → FailureId × Heap) :
    ∃ heap, Rejects offer s heap := by
  have hrun := Operation.run_add offer s
  have hadd := added (offer s.heap).1 { s with heap := (offer s.heap).2 }
  generalize (Collector.add (offer s.heap).1).run { s with heap := (offer s.heap).2 } = r
    at hrun hadd
  cases hadd with
  | rejected _ heap hh =>
    refine ⟨heap, hrun, ?_, ?_⟩
    · rcases hh with rfl | rfl
      · exact .refl _
      · exact Heap.extends_limit _ _ _
    · rcases hh with rfl | rfl
      · exact .refl _ _
      · exact Heap.noMore_limit _ _ _
  | _ ho =>
    have ho : s.focus.closed = false := ho
    simp [hc] at ho

/-- A closed collector that holds nothing refuses whatever is done with it. -/
theorem refuses_of_retired (hs : s.focus.Retired) : Refuses s where
  add := rejects_of_closed hs.closed
  drain op hd := Operation.run_of_closed hd hs.closed
  closeSuppressing τ x resource := by
    have hopen : (Place.first.run ensureOpen).run { s with focus := (s.focus, x) } =
        .error (.text closedMessage) { s with focus := (s.focus, x) } := by
      simp [EStateM.run, Place.run, Place.first, ensureOpen, hs.closed]
    cases resource <;> rw [Collector.closeSuppressing.eq_def, EStateM.run_bind, hopen]
  peek := by rw [Operation.run_peek, hs.empty]
  panicKeeping := by
    rw [Operation.run_panicKeeping, hs.empty]
  drop := by rw [run_drop, hs.empty]

/-- What a moment leaves of a closed collector that holds nothing. -/
theorem Moment.after_of_retired (m : Moment) (hm : m.before.focus.Retired) :
    m.after.focus = (if m.operation.adds then m.before.focus.counted else m.before.focus) ∧
      m.after.log = m.before.log := by
  obtain ⟨op, s⟩ := m
  have hr := refuses_of_retired hm
  have hdrain : ∀ op : Operation, op.Drains → (⟨op, s⟩ : Moment).after = s :=
    fun op hd => Act.after_of_error (hr.drain op hd)
  cases op with
  | add offer =>
    obtain ⟨heap, hrejects⟩ := hr.add offer
    have hafter : (⟨.add offer, s⟩ : Moment).after = { s with heap, focus := s.focus.counted } :=
      Act.after_of_error hrejects.run
    rw [hafter]
    exact ⟨rfl, rfl⟩
  | peek => exact ⟨rfl, rfl⟩
  | panicKeeping =>
    have hafter : (⟨.panicKeeping, s⟩ : Moment).after = s := Act.after_of_ok hr.panicKeeping
    rw [hafter]
    exact ⟨rfl, rfl⟩
  | take => rw [hdrain .take trivial]; exact ⟨rfl, rfl⟩
  | takeAsError => rw [hdrain .takeAsError trivial]; exact ⟨rfl, rfl⟩
  | takeAndPanic => rw [hdrain .takeAndPanic trivial]; exact ⟨rfl, rfl⟩
  | close => rw [hdrain .close trivial]; exact ⟨rfl, rfl⟩

/-- A closed collector that has counted `n` more failures. -/
def countedBy (c : Collector) (n : Nat) : Collector := { c with observed := c.observed + n }

/-- **After a close a run only counts.** -/
theorem Linked.retired {c d : Collector × Array Event} {ms : List Moment} (h : Linked c ms d)
    (hc : c.1.Retired) :
    d = (c.1.countedBy (ms.countP (·.operation.adds)), c.2) ∧
      ∀ m ∈ ms, m.before.focus.Retired := by
  induction h with
  | nil => exact ⟨rfl, by simp⟩
  | @cons m ms d rest ih =>
    have hm : m.before.focus.Retired := hc
    obtain ⟨hfocus, hlog⟩ := m.after_of_retired hm
    have hafter : m.after.focus.Retired := by
      rw [hfocus]
      split
      · exact ⟨hm.closed, hm.empty⟩
      · exact hm
    obtain ⟨hd, hall⟩ := ih hafter
    refine ⟨?_, fun m' hm' => ?_⟩
    · have hcount : m.after.focus.countedBy (ms.countP (·.operation.adds)) =
          m.before.focus.countedBy ((m :: ms).countP (·.operation.adds)) := by
        rw [hfocus, List.countP_cons]
        cases m.operation.adds with
        | false => rfl
        | true => simp [counted, countedBy, Nat.add_assoc, Nat.add_comm 1]
      rw [hd]
      exact Prod.ext hcount hlog
    · rcases List.mem_cons.mp hm' with rfl | hm'
      · exact hm
      · exact hall m' hm'

/-- A run's end is a run. -/
theorem Linked.of_append_right {ns : List Moment} {d : Collector × Array Event} :
    ∀ {ms : List Moment} {c : Collector × Array Event}, Linked c (ms ++ ns) d →
      ∃ e, Linked e ns d
  | [], c, h => ⟨c, h⟩
  | _ :: _, _, .cons rest => rest.of_append_right

/-- A close that returns leaves a closed collector that holds nothing. -/
theorem Moment.retired_after_close {m : Moment} (hclose : m.operation = .close)
    (hreturned : m.returned = true) : m.after.focus.Retired := by
  obtain ⟨op, s⟩ := m
  obtain rfl : op = .close := hclose
  have hd : Operation.close.Drains := trivial
  cases hc : s.focus.closed with
  | true =>
    have hrun := Operation.run_of_closed hd hc
    simp [Moment.returned, Moment.outcome, hrun] at hreturned
  | false =>
    obtain ⟨-, hafter, -⟩ := Operation.run_of_open hd hc
    rw [hafter]
    exact ⟨rfl, rfl⟩

end

/-- **Closing is for good.** In any run, let a close return, be it from within the
release of a resource, and let `later` be what is done with the collector
afterwards. The collector is closed and empty throughout and refuses all of it,
and at the end it has told the log nothing more and is as the close left it, but
that the failures offered since have been counted. Then too it refuses whatever
is done with it: adding asks no supplier and attaches nothing, no resource is
released, and a drop tells nothing. -/
theorem closed_for_good (s : Scene Collector) (uses : List Use) (before later : List Moment)
    (m : Moment) (hms : momentsOf uses s = before ++ m :: later) (hclose : m.operation = .close)
    (hreturned : m.returned = true) :
    let closed := m.after.focus
    let u := (playAll uses).after s
    u.focus.closed = true ∧ u.focus.primary = none ∧
      u.focus.stats = ⟨closed.observed + later.countP (·.operation.adds), closed.dropped⟩ ∧
      u.focus = { closed with observed := u.focus.observed } ∧ u.log = m.after.log ∧
      (∀ n ∈ later, n.before.focus.Retired ∧ Refuses n.before) ∧ Refuses u := by
  intro closed u
  have hl : Linked s.beside (momentsOf uses s) u.beside := linked_momentsOf uses s
  rw [hms] at hl
  obtain ⟨e, hm⟩ := hl.of_append_right
  cases hm with
  | cons hlater =>
    obtain ⟨hu, hall⟩ := hlater.retired (Moment.retired_after_close hclose hreturned)
    have hfocus : u.focus = closed.countedBy (later.countP (·.operation.adds)) :=
      congrArg Prod.fst hu
    have hlog : u.log = m.after.log := congrArg Prod.snd hu
    have hretired : closed.Retired := Moment.retired_after_close hclose hreturned
    have huretired : u.focus.Retired := by
      rw [hfocus]
      exact ⟨hretired.closed, hretired.empty⟩
    refine ⟨huretired.closed, huretired.empty, ?_, ?_, hlog,
      fun n hn => ⟨hall n hn, refuses_of_retired (hall n hn)⟩, refuses_of_retired huretired⟩
    · rw [hfocus]
      rfl
    · rw [hfocus]
      rfl

/-- A resource that closes the collector while it is released for it, and then
fails. -/
def closer : Client := .mk [.operation .close, addNew "b"] (.ok (.error (.message "c")))

/-- What is added after the close and the resource's own failure are refused, and
so is all that follows. -/
theorem closed_for_good_by_client :
    let uses := [addNew "a", .closeSuppressing (some closer), .operation .take]
    let u := (playAll uses).after { focus := withLimit {} 1 }
    u.focus.stats = ⟨3, 0⟩ ∧ u.log.size = 2 ∧ Refuses u := by
  intro uses u
  let s : Scene Collector := { focus := withLimit {} 1 }
  let m : Moment := ⟨.close, (playAll [addNew "a"]).after s⟩
  have hms : momentsOf uses s =
      (momentsOf uses s).take 1 ++ m :: (momentsOf uses s).drop 2 := rfl
  obtain ⟨-, -, hstats, -, hlog, -, hrefuses⟩ :=
    closed_for_good s uses _ _ m hms rfl (by decide +kernel)
  refine ⟨hstats.trans (by decide +kernel), ?_, hrefuses⟩
  rw [hlog]
  decide +kernel

end Collector
end Teardown
