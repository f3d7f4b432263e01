/-
# Releases that come back to the collector

A resource that is released on behalf of a collector may use it: it may add to it, drain
it or close it before its own release ends. The collector is looked at before the
resource is released and again when its error is recorded, and in between it may have
become another one: drained, full or closed. So a release on behalf of an open collector
is what the resource does, once, and then the recording of its error in whatever that
has left (`closeSuppressing_reentering`). If it has left the collector closed, the error
is refused; a resource that ends well needs no collector.

Key theorems: `Collector.run_closeSuppressing_noting`,
`Collector.closeSuppressing_reentering`.
-/
import Teardown.Proofs.Collector.Conduct
import Teardown.Proofs.Collector.Sequence

namespace Teardown
namespace Collector

/-! ### Releasing a resource that uses the collector -/

section

variable {s : Scene Collector} {resource : Conduct (Except ErrorValue Unit)}

/-- A resource is released once, in the scene of the call, and its error is recorded in
the scene that it leaves. -/
theorem run_closeSuppressing_noting (hc : s.focus.closed = false)
    {result : Except ErrorValue Unit} (hresult : resource.ending s = .ok result) (i : Nat)
    (record : List Nat) :
    (closeSuppressing Place.first (some (noting i resource.act))).run (s.paired record) =
      let t := (resource.act.after s).paired (record ++ [i])
      match result with
      | .ok () => .ok () t
      | .error e => (Place.first.run (addError e)).run t := by
  have hopen : (Place.first.run ensureOpen).run (s.paired record) = .ok () (s.paired record) := by
    rw [Place.run_first, run_ensureOpen, hc]
    rfl
  have hrelease : (noting i resource.act).run (s.paired record) =
      .ok result ((resource.act.after s).paired (record ++ [i])) := by
    rw [run_noting, Conduct.run_act, hresult]
  rw [closeSuppressing, EStateM.run_bind, hopen]
  simp only [EStateM.run_bind, hrelease]
  cases result <;> rfl

/-- Recording an error is adding the failure that stands for it. -/
theorem run_addErrorFirst (e : ErrorValue) (t : Scene Collector) (record : List Nat) :
    (Place.first.run (addError e)).run (t.paired record) =
      match (add (t.heap.ofError e).1).run { t with heap := (t.heap.ofError e).2 } with
      | .ok _ u => .ok () (u.paired record)
      | .error payload u => .error payload (u.paired record) := by
  have hadd : (addError e).run t =
      (add (t.heap.ofError e).1).run { t with heap := (t.heap.ofError e).2 } := by
    rw [addError, EStateM.run_bind, Act.run_onHeap]
  rw [Place.run_first, hadd]
  cases (add (t.heap.ofError e).1).run { t with heap := (t.heap.ofError e).2 } <;> rfl

end

/-- **A release sees the collector as its resource has left it.** Let a resource be
released on behalf of an open collector, whose supplier does not panic. The resource may
do whatever it likes with that collector, and then ends well or with an error. It is
released once, as the record of the released ones says. If it ends well, that is all,
though it may have closed the collector. If it ends with an error, the failure that
stands for the error is added in the scene that the resource has left: it becomes the
primary failure, is attached to it, is it already, or is dropped and counted. If the
resource has closed the collector, the call panics: then no failure that there was has
changed, the one that the inner close handed out in particular, nothing suppresses the
failure of the error that did not before, and it is not held. -/
theorem closeSuppressing_reentering (s : Scene Collector) (hc : s.focus.closed = false)
    (hsup : ¬ s.focus.MayPanic) (resource : Conduct (Except ErrorValue Unit))
    (result : Except ErrorValue Unit) (hresult : resource.ending s = .ok result) (i : Nat)
    (record : List Nat) :
    let t := resource.act.after s
    let closes := ∃ m ∈ resource.moments s, Closes m
    let call := (closeSuppressing Place.first (some (noting i resource.act))).run (s.paired record)
    (result = .ok () → call = .ok () (t.paired (record ++ [i]))) ∧
    ∀ e, result = .error e →
      let f := (t.heap.ofError e).1
      let k := (t.heap.ofError e).2
      call = (Place.first.run (addError e)).run (t.paired (record ++ [i])) ∧
      (¬ closes → ∃ u, call = .ok () (u.paired (record ++ [i])) ∧ Accepts f ⟨k, t.log, t.focus⟩ u) ∧
      (closes → ∃ u : Scene Collector, call = .error (.text closedMessage) (u.paired (record ++ [i])) ∧
        u.focus = t.focus.counted ∧ u.focus.primary = none ∧ u.log = t.log ∧
        t.heap.Extends u.heap ∧ Heap.NoMore f k u.heap) := by
  intro t closes call
  have hcall := run_closeSuppressing_noting hc hresult i record
  have hlinked : Linked s.beside (resource.moments s) t.beside := resource.linked_moments s
  have hclosed : t.focus.closed = true ↔ closes := by
    have h : t.focus.closed = true ↔ s.focus.closed = true ∨ closes := hlinked.closed_iff
    simpa [hc] using h
  refine ⟨?_, ?_⟩
  · rintro rfl
    exact hcall
  · rintro e rfl f k
    have hadds : call = _ := hcall.trans (run_addErrorFirst e t (record ++ [i]))
    refine ⟨hcall, fun hnot => ?_, fun hcloses => ?_⟩
    · have hopen : t.focus.closed = false := by simpa [hnot] using hclosed
      have hquiet : ¬ t.focus.MayPanic := fun h => hsup (hlinked.mayPanic_iff.mp h)
      obtain ⟨u, hu, haccepts⟩ := accepts_of_open (s := ⟨k, t.log, t.focus⟩) hopen hquiet f
      refine ⟨u, ?_, haccepts⟩
      rw [hadds, hu]
    · have hretired : t.focus.Retired := hlinked.retired_of_closes hcloses
      obtain ⟨heap, hrejects⟩ := rejects_of_closed hretired.closed (·.ofError e)
      have hrefused : (add f).run { t with heap := k } =
          .error (.text closedMessage) { t with heap, focus := t.focus.counted } := by
        have hrun : (Operation.add (·.ofError e)).act.run t =
            match (add f).run { t with heap := k } with
            | .ok _ u => .ok .done u
            | .error payload u => .error payload u := Operation.run_add _ t
        rw [hrejects.run] at hrun
        generalize (add f).run { t with heap := k } = r at hrun
        cases r with
        | ok a u => cases hrun
        | error payload u =>
          cases hrun
          rfl
      refine ⟨{ t with heap, focus := t.focus.counted }, ?_, rfl, hretired.empty, rfl,
        (t.heap.extends_ofError e).trans hrejects.extends_heap, hrejects.noMore⟩
      rw [hadds, hrefused]

/-- A resource that takes what the collector holds and adds it again, closes the
collector, and then fails. -/
def returning : Conduct (Except ErrorValue Unit) :=
  .does .take fun taken =>
    .does (.add fun h => match taken with
      | .ok (.value (some f)) => (f, h)
      | _ => h.alloc { message := "none" }) fun _ =>
        .does .close fun _ => .gives (.error (.message "c"))

theorem ending_returning (s : Scene Collector) :
    returning.ending s = .ok (.error (.message "c")) := by
  simp only [returning, Conduct.ending_does, Conduct.ending_gives]

theorem closes_returning {s : Scene Collector} (hc : s.focus.closed = false) :
    ∃ m ∈ returning.moments s, Closes m := by
  have hdrains : (Operation.take).Drains := trivial
  obtain ⟨-, htaken, -⟩ := Operation.run_of_open hdrains hc
  refine ⟨⟨.close, _⟩, .tail _ (.tail _ (.head _)), rfl, returned_of_close ?_⟩
  rw [closed_after_add, htaken]
  exact hc

/-- The call panics, and the failure that the inner close handed out is as it was. -/
theorem closeSuppressing_returning :
    let s : Scene Collector := (addNew "a").act.after { focus := withLimit {} 1 }
    s.focus.closed = false ∧ ¬ s.focus.MayPanic ∧
      ∃ u : Scene Collector,
        (closeSuppressing Place.first (some (noting 7 returning.act))).run (s.paired []) =
          .error (.text closedMessage) (u.paired [7]) ∧
        u.heap.get? 0 = some { message := "a" } := by
  intro s
  have hc : s.focus.closed = false := by decide +kernel
  have hsup : ¬ s.focus.MayPanic := by
    rintro ⟨supplier, -, -, h, -⟩
    cases h
  obtain ⟨-, herror⟩ := closeSuppressing_reentering s hc hsup returning _ (ending_returning s) 7 []
  obtain ⟨-, -, hcloses⟩ := herror _ rfl
  obtain ⟨u, hu, -, -, -, hext, -⟩ := hcloses (closes_returning hc)
  exact ⟨hc, hsup, u, hu, hext 0 _ (by decide +kernel)⟩

end Collector
end Teardown
