/-
# What becomes of an added failure

Adding a failure has seven endings, told apart by the collector alone: it is
closed, or the round is over its limit, or the failure is the primary one
already, or it is attached to the primary one, or it becomes the primary one,
or a supplier is asked and gives a root, or panics. `Added` lists them with the
scene each leaves behind; what holds of adding follows by its cases.

Key definitions: `Collector.StartsRound`, `Collector.Added`, `Collector.Gives`.
Key theorems: `Collector.added`, `Collector.after_of_added`, `Collector.add_of_held`.
-/
import Teardown.Collector.Basic

namespace Teardown
namespace Collector

/-- A collector at the start of a round: open, with nothing in it and nothing
counted. -/
structure StartsRound (c : Collector) : Prop where
  primary : c.primary = none
  isOpen : c.closed = false
  observed : c.observed = 0

theorem startsRound_new : ({} : Collector).StartsRound := ⟨rfl, rfl, rfl⟩

theorem startsRound_withSupplier (answer : Nat → Supply) : (withSupplier answer).StartsRound :=
  ⟨rfl, rfl, rfl⟩

theorem StartsRound.withLimit {c : Collector} (hc : c.StartsRound) (limit : Nat) :
    (c.withLimit limit).StartsRound :=
  ⟨hc.primary, hc.isOpen, hc.observed⟩

/-- What a collector holds is part of it. -/
theorem with_primary {c : Collector} {p : Option FailureId} (hp : c.primary = p) :
    { c with primary := p } = c := by
  subst hp
  rfl

/-- A collector at the start of a round, told by its parts. -/
theorem StartsRound.eq {c : Collector} (hr : c.StartsRound) :
    { c with primary := none, closed := false, observed := 0 } = c := by
  obtain ⟨hp, ho, hn⟩ := hr
  rw [← hp, ← ho, ← hn]

/-- A collector that has counted one more failure. -/
def counted (c : Collector) : Collector := { c with observed := c.observed + 1 }

/-- The endings of adding `f` in the scene `s`. -/
inductive Added (f : FailureId) (s : Scene Collector) :
    EStateM.Result Payload (Scene Collector) Unit → Prop where
  /-- The collector is closed. Limiting `f` may have made copies of it. -/
  | rejected (hc : s.focus.closed = true) (heap : Heap)
      (hh : heap = s.heap ∨ heap = (s.heap.limit s.focus.limit f).2) :
      Added f s (.error (.text closedMessage) { s with heap, focus := s.focus.counted })
  /-- The round is over its limit. -/
  | dropped (hc : s.focus.closed = false) (ho : s.focus.limit ≤ s.focus.observed) :
      Added f s (.ok () { s with
        log := s.log.push (if s.focus.observed = s.focus.limit then .limitReached s.focus.limit
          else .overLimit (s.focus.dropped + 1) (s.heap.message f))
        focus := { s.focus.counted with dropped := s.focus.dropped + 1 } })
  /-- `f` is the primary failure already. -/
  | again (hc : s.focus.closed = false) (ho : s.focus.observed < s.focus.limit)
      (hp : s.focus.primary = some f) :
      Added f s (.ok () { s with
        heap := (s.heap.limit s.focus.limit f).2
        focus := s.focus.counted })
  /-- `f` is attached to the primary failure. -/
  | attached (hc : s.focus.closed = false) (ho : s.focus.observed < s.focus.limit)
      (primary : FailureId) (hp : s.focus.primary = some primary) (hne : primary ≠ f)
      (limited : FailureId × Heap) (hl : limited = s.heap.limit s.focus.limit f) :
      Added f s (.ok () {
        heap := limited.2.attach primary limited.1
        log := s.log.push
          (.failureSuppressed (limited.2.message primary) (limited.2.message limited.1))
        focus := s.focus.counted })
  /-- There is no supplier, and `f` becomes the primary failure. -/
  | recorded (hc : s.focus.closed = false) (ho : s.focus.observed < s.focus.limit)
      (hp : s.focus.primary = none) (hs : s.focus.supplier = none)
      (limited : FailureId × Heap) (hl : limited = s.heap.limit s.focus.limit f) :
      Added f s (.ok () {
        heap := limited.2
        log := s.log.push (.primaryRecorded (limited.2.message limited.1))
        focus := { s.focus.counted with primary := some limited.1 } })
  /-- The supplier gives a root, which `f` is attached to. -/
  | supplied (hc : s.focus.closed = false) (ho : s.focus.observed < s.focus.limit)
      (hp : s.focus.primary = none) (supplier : Supplier) (hs : s.focus.supplier = some supplier)
      (limited : FailureId × Heap) (hl : limited = s.heap.limit s.focus.limit f)
      (root : FailureId) (heap : Heap)
      (hr : (supplier.answer supplier.calls).rootIn limited.2 = .ok (root, heap)) :
      Added f s (.ok () {
        heap := heap.attach root limited.1
        log := s.log.push (.rootSupplied (heap.message root) (limited.2.message limited.1))
        focus := { s.focus.counted with primary := some root, supplier := some supplier.called } })
  /-- The supplier panics. -/
  | unsupplied (hc : s.focus.closed = false) (ho : s.focus.observed < s.focus.limit)
      (hp : s.focus.primary = none) (supplier : Supplier) (hs : s.focus.supplier = some supplier)
      (message : String)
      (hr : (supplier.answer supplier.calls).rootIn (s.heap.limit s.focus.limit f).2 =
        .error message) :
      Added f s (.error (.text message) { s with
        heap := (s.heap.limit s.focus.limit f).2
        focus := { s.focus.counted with supplier := some supplier.called } })

section

variable (f : FailureId) (s : Scene Collector)

/-- A failure is dropped when the round is over its limit. -/
theorem run_add_of_le (ho : s.focus.limit ≤ s.focus.observed) :
    (add f).run s =
      (dropOver f (s.focus.observed + 1)).run { s with focus := s.focus.counted } := by
  have hlt : s.focus.limit < s.focus.observed + 1 := Nat.lt_succ_of_le ho
  rw [add, EStateM.run_bind, run_offer]
  simp only [EStateM.run_bind, EStateM.run_get, if_pos hlt]
  rfl

/-- A failure is kept within the limit. -/
theorem run_add_of_lt (ho : s.focus.observed < s.focus.limit) :
    (add f).run s = (keep f).run { s with focus := s.focus.counted } := by
  have hlt : ¬ s.focus.limit < s.focus.observed + 1 := Nat.not_lt_of_le ho
  rw [add, EStateM.run_bind, run_offer]
  simp only [EStateM.run_bind, EStateM.run_get, if_neg hlt]
  rfl

/-- **Adding a failure has no other endings.** -/
theorem added : Added f s ((add f).run s) := by
  by_cases ho : s.focus.limit ≤ s.focus.observed
  · -- the round is over its limit
    rw [run_add_of_le f s ho]
    cases hc : s.focus.closed with
    | true =>
      have hrun := Added.rejected (f := f) hc _ (.inl rfl)
      simp only [counted] at hrun
      simpa [dropOver, hc, counted] using hrun
    | false =>
      have hrun := Added.dropped (f := f) hc ho
      simp only [counted] at hrun
      simpa [dropOver, hc, counted] using hrun
  · have ho : s.focus.observed < s.focus.limit := Nat.lt_of_not_le ho
    rw [run_add_of_lt f s ho]
    cases hc : s.focus.closed with
    | true =>
      have hrun := Added.rejected (f := f) hc _ (.inr rfl)
      simp only [counted] at hrun
      simpa [keep, hc, counted] using hrun
    | false =>
      cases hp : s.focus.primary with
      | some primary =>
        by_cases hpf : primary = f
        · subst hpf
          have hrun := Added.again hc ho hp
          simp only [counted] at hrun
          simpa [keep, hc, hp, counted, -bind_pure_comp] using hrun
        · have hrun := Added.attached hc ho primary hp hpf _ rfl
          simp only [counted] at hrun
          simpa [keep, hc, hp, hpf, counted] using hrun
      | none =>
        cases hs : s.focus.supplier with
        | none =>
          have hrun := Added.recorded (f := f) hc ho hp hs _ rfl
          simp only [counted] at hrun
          simpa [keep, hc, hp, hs, counted] using hrun
        | some supplier =>
          cases hr : (supplier.answer supplier.calls).rootIn
              (s.heap.limit s.focus.limit f).2 with
          | ok given =>
            have hrun := Added.supplied (f := f) hc ho hp supplier hs _ rfl given.1 given.2 hr
            simp only [counted] at hrun
            simpa [keep, hc, hp, hs, counted, run_callSupplier, hr] using hrun
          | error message =>
            have hrun := Added.unsupplied (f := f) hc ho hp supplier hs message hr
            simp only [counted] at hrun
            simpa [keep, hc, hp, hs, counted, run_callSupplier, hr] using hrun

/-- What holds of the scene that each ending leaves holds after adding. -/
theorem after_of_added {P : Scene Collector → Prop}
    (h : ∀ r, Added f s r → P (match r with | .ok _ t => t | .error _ t => t)) :
    P ((add f).after s) := by
  have hadd := h _ (added f s)
  unfold Act.after
  generalize (add f).run s = r at hadd
  cases r <;> exact hadd

end

/-- What adding `f` attaches to the primary failure `p`: what stands for `f` under
the limit, if the round has room for it and `f` is not `p` itself. -/
def attachedAt (s : Scene Collector) (p f : FailureId) : List FailureId :=
  if s.focus.observed < s.focus.limit ∧ f ≠ p then [(s.heap.limit s.focus.limit f).1] else []

/-- Adding to an open collector that holds a failure: the call is counted, and no
failure changes but the one held, to which it may be attached. -/
theorem add_of_held {s : Scene Collector} {p : FailureId} (hc : s.focus.closed = false)
    (hp : s.focus.primary = some p) (hlt : p < s.heap.size) (f : FailureId) :
    ∃ t, (add f).run s = .ok () t ∧
      (∃ dropped, t.focus = { s.focus.counted with dropped }) ∧ s.heap.size ≤ t.heap.size ∧
      (∀ g < s.heap.size, t.heap.get? g = (s.heap.get? g).map fun x =>
        if g = p then { x with suppressed := x.suppressed ++ attachedAt s p f } else x) ∧
      (s.focus.limit ≤ s.focus.observed → t.heap = s.heap) := by
  have hext := Heap.extends_limit s.heap s.focus.limit f
  -- a call that attaches nothing leaves every failure as it was
  have hnone : ∀ {t : Heap}, s.heap.Extends t → attachedAt s p f = [] →
      ∀ g < s.heap.size, t.get? g = (s.heap.get? g).map fun x =>
        if g = p then { x with suppressed := x.suppressed ++ attachedAt s p f } else x := by
    intro t ht hnil g hg
    rw [ht.get?_eq hg, hnil]
    cases s.heap.get? g <;> simp
  generalize hrun : (add f).run s = r
  have ha : Added f s r := hrun ▸ added f s
  cases ha with
  | dropped _ ho =>
    have hnil : attachedAt s p f = [] := if_neg fun h => Nat.not_lt_of_le ho h.1
    exact ⟨_, rfl, ⟨_, rfl⟩, Nat.le_refl _, hnone (.refl _) hnil, fun _ => rfl⟩
  | again _ ho hp' =>
    have hfp : f = p := Option.some.inj (hp'.symm.trans hp)
    have hnil : attachedAt s p f = [] := if_neg fun h => h.2 hfp
    exact ⟨_, rfl, ⟨_, rfl⟩, hext.size_le, hnone hext hnil, fun hle => absurd ho (by omega)⟩
  | attached _ ho p' hp' hne limited hl =>
    obtain rfl : p = p' := Option.some.inj (hp.symm.trans hp')
    subst hl
    have hone : attachedAt s p f = [(s.heap.limit s.focus.limit f).1] := if_pos ⟨ho, Ne.symm hne⟩
    have hpl : p ≠ (s.heap.limit s.focus.limit f).1 := Heap.limit_ne hlt hne
    refine ⟨_, rfl, ⟨_, rfl⟩, ?_, fun g hg => ?_, fun hle => absurd ho (by omega)⟩
    · rw [Heap.size_attach]
      exact hext.size_le
    · rw [Heap.get?_attach, hext.get?_eq hg, hone]
      simp only [and_iff_left hpl]
  | rejected hc' => simp [hc] at hc'
  | recorded _ _ hp' => simp [hp] at hp'
  | supplied _ _ hp' => simp [hp] at hp'
  | unsupplied _ _ hp' => simp [hp] at hp'

/-! ### What a supplier gives -/

/-- The collector's supplier gives `r` as the root at some call. -/
def Gives (c : Collector) (r : FailureId) : Prop :=
  ∃ supplier n, c.supplier = some supplier ∧ supplier.answer n = .root r

theorem gives_called {c d : Collector} {supplier : Supplier} (hc : c.supplier = some supplier)
    (hd : d.supplier = some supplier.called) (r : FailureId) : d.Gives r ↔ c.Gives r := by
  simp [Gives, hc, hd, Supplier.called]

theorem gives_of_eq {c d : Collector} (h : d.supplier = c.supplier) (r : FailureId) :
    d.Gives r ↔ c.Gives r := by
  simp [Gives, h]

/-- Asking a supplier changes no failure. -/
theorem extends_rootIn {h h' : Heap} {supply : Supply} {root : FailureId}
    (hr : supply.rootIn h = .ok (root, h')) : h.Extends h' := by
  cases supply with
  | root r =>
    cases hr
    exact Heap.Extends.refl h
  | fresh message =>
    cases hr
    exact Heap.extends_alloc h _
  | nothing =>
    cases hr
    exact Heap.extends_alloc h _
  | panics message => simp [Supply.rootIn] at hr

end Collector
end Teardown
