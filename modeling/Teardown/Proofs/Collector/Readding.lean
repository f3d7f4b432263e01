/-
# Adding the first failure of a round again

A failure that is offered is compared with the one that the collector holds. What it
holds is what stands for the first failure of the round. If that failure was within
the limit when it was added, this is the failure itself, and adding it again changes
nothing, however much it may have come to suppress by then. If it was over the limit,
it is a copy, which the failure is not recognised as: what stands for the failure is
attached to the copy as if it were another failure (`Collector.readd_first`).

Key definitions: `Collector.Rule.growing`, `Collector.Keeping`.
Key theorems: `Collector.Keeping.step`, `Collector.Keeping.run`,
`Collector.readd_first`.
-/
import Teardown.Proofs.Collector.Delivery
import Teardown.Proofs.Collector.Round

namespace Teardown
namespace Collector

/-- No failure is lost. -/
def Rule.growing : Rule where
  allows s heap := s.heap.size ≤ heap.size
  ofError s e := (s.heap.extends_ofError e).size_le

/-- An open collector that holds `p`. -/
structure Keeping (p : FailureId) (limit : Nat) (s : Scene Collector) : Prop where
  isOpen : s.focus.closed = false
  primary : s.focus.primary = some p
  primary_lt : p < s.heap.size
  limit_eq : s.focus.limit = limit

namespace Keeping

variable {p : FailureId} {limit : Nat} {s t : Scene Collector}

/-- Failures may change elsewhere. -/
theorem elsewhere (h : Keeping p limit s) {heap : Heap} (hle : s.heap.size ≤ heap.size) :
    Keeping p limit { s with heap } :=
  ⟨h.isOpen, h.primary, Nat.lt_of_lt_of_le h.primary_lt hle, h.limit_eq⟩

/-- What is added to a collector is never held in place of what it holds. -/
theorem add (h : Keeping p limit s) (f : FailureId) :
    Keeping p limit ((Collector.add f).after s) := by
  obtain ⟨t, ht, ⟨dropped, hfocus⟩, hsize, -⟩ := add_of_held h.isOpen h.primary h.primary_lt f
  rw [Act.after_of_ok ht]
  refine ⟨?_, ?_, Nat.lt_of_lt_of_le h.primary_lt hsize, ?_⟩
  · rw [hfocus]
    exact h.isOpen
  · rw [hfocus]
    exact h.primary
  · rw [hfocus]
    exact h.limit_eq

/-- Only a drain ends it. -/
theorem step {m : Moment} (h : Keeping p limit m.before) (ha : m.Abides .growing)
    (hd : ¬ m.operation.Drains) : Keeping p limit m.after := by
  obtain ⟨op, s⟩ := m
  cases op with
  | add offer =>
    rw [after_add]
    exact (h.elsewhere (ha offer rfl)).add _
  | peek => exact h
  | panicKeeping =>
    have hp : s.focus.primary = some p := h.primary
    rw [after_panicKeeping, hp]
    exact ⟨h.isOpen, h.primary, h.primary_lt, h.limit_eq⟩
  | take | takeAsError | takeAndPanic | close => exact absurd trivial hd

/-- **What is held is held until it is drained.** -/
theorem run {ms : List Moment} (hf : Follows .growing s ms t) (h : Keeping p limit s)
    (hd : ∀ m ∈ ms, ¬ m.operation.Drains) : Keeping p limit t := by
  induction hf with
  | nil => exact h
  | elsewhere hle _ ih => exact ih (h.elsewhere hle) hd
  | moment ha _ ih =>
    exact ih (h.step ha (hd _ (List.mem_cons_self ..)))
      fun m hm => hd m (List.mem_cons_of_mem _ hm)

end Keeping

/-- **Adding the first failure again.** A round of a collector without a supplier begins
with `f`, and it is not drained. Then what stands for `f` is the primary failure, and
when `f` is added again within the limit it stays so. If `f` was within the limit at
first it is the primary failure itself, and what it suppresses is as it was. If it was
over the limit, what stands for it now is attached to what stood for it then. -/
theorem readd_first (s : Scene Collector) (hr : s.focus.StartsRound)
    (hs : s.focus.supplier = none) (f : FailureId) (hf : f < s.heap.size) (uses : List Use) :
    let limit := s.focus.limit
    let primary := (s.heap.limit limit f).1
    let first := (add f).after s
    let now := (playAll uses).after first
    RunAbides .growing uses first → (∀ m ∈ momentsOf uses first, ¬ m.operation.Drains) →
      now.focus.observed < limit →
      now.focus.primary = some primary ∧
      ∃ next, (add f).run now = .ok () next ∧ next.focus.primary = some primary ∧
        ((s.heap.suppressed f).length ≤ limit →
          primary = f ∧ next.heap.suppressed primary = now.heap.suppressed primary) ∧
        (limit < (s.heap.suppressed f).length →
          primary ≠ f ∧ next.heap.suppressed primary =
            now.heap.suppressed primary ++ [(now.heap.limit limit f).1]) := by
  intro limit primary first now habides hd hwithin
  obtain ⟨t, ht, hlimit, hu, -⟩ := hr.add hs hf
  have hfirst : Keeping primary limit first := by
    rw [show first = t from Act.after_of_ok ht]
    exact ⟨hu.isOpen, hu.primary, hu.primary_lt, hlimit⟩
  have hnow : Keeping primary limit now :=
    Keeping.run (follows_playAll uses first habides) hfirst hd
  obtain ⟨next, hnext, ⟨dropped, hfocus⟩, -, hget, -⟩ :=
    add_of_held hnow.isOpen hnow.primary hnow.primary_lt f
  -- what the second call attaches
  have hattached : next.heap.suppressed primary =
      now.heap.suppressed primary ++ attachedAt now primary f := by
    obtain ⟨x, hx⟩ := Heap.exists_get? hnow.primary_lt
    have hx' := hget primary hnow.primary_lt
    rw [hx, Option.map_some, if_pos rfl] at hx'
    rw [Heap.suppressed_of_get? hx', Heap.suppressed_of_get? hx]
  rw [attachedAt, hnow.limit_eq] at hattached
  refine ⟨hnow.primary, next, hnext, ?_, fun hle => ?_, fun hlt => ?_⟩
  · rw [hfocus]
    exact hnow.primary
  · have hself : primary = f := congrArg Prod.fst (Heap.limit_of_le hle)
    rw [if_neg fun h => h.2 hself.symm, List.append_nil] at hattached
    exact ⟨hself, hattached⟩
  · have hlt : limit < (s.heap.suppressed f).length := hlt
    have hcopy : f ≠ primary := Nat.ne_of_lt (Nat.lt_of_lt_of_le hf (Heap.limit_of_lt hlt).1)
    rw [if_pos ⟨hwithin, hcopy⟩] at hattached
    exact ⟨hcopy.symm, hattached⟩

/-- A failure that suppresses one gets a second one and a third one while it is held, and
then it is added again: nothing changes. The wide failure is attached to its copy. -/
theorem readd_first_tangled :
    let widened := (playAll [.elsewhere fun h => (h.attach 1 2).attach 1 0]).after
      ((add 1).after tangled)
    let shown := (playAll [.operation .panicKeeping]).after ((add 0).after tangled)
    tangled.focus.StartsRound ∧ tangled.focus.supplier = none ∧
      widened.focus.primary = some 1 ∧ widened.heap.suppressed 1 = [0, 2, 0] ∧
      (∃ next, (add 1).run widened = .ok () next ∧ next.heap.suppressed 1 = [0, 2, 0]) ∧
      shown.focus.primary = some 3 ∧ shown.heap.suppressed 3 = [1, 2] ∧
      ∃ next, (add 0).run shown = .ok () next ∧ next.heap.suppressed 3 = [1, 2, 4] := by
  intro widened shown
  have hr : tangled.focus.StartsRound := startsRound_new.withLimit 2
  obtain ⟨hp, next, hrun, -, hsame, -⟩ := readd_first tangled hr rfl 1 (by decide)
    [.elsewhere fun h => (h.attach 1 2).attach 1 0]
    ⟨show _ ≤ _ by decide +kernel, trivial⟩ (by simp [momentsOf, Use.moments])
    (by decide +kernel)
  obtain ⟨hp', next', hrun', -, -, hmore⟩ := readd_first tangled hr rfl 0 (by decide)
    [.operation .panicKeeping] ⟨trivial, trivial⟩
    (by simp [momentsOf, Use.moments, Operation.Drains]) (by decide +kernel)
  refine ⟨hr, rfl, hp, by decide +kernel, ⟨next, hrun, ?_⟩, hp', by decide +kernel, next', hrun', ?_⟩
  · exact (hsame (by decide)).2.trans (by decide +kernel)
  · exact (hmore (by decide)).2.trans (by decide +kernel)

/-- The wide failure is not recognised: a copy of it holds the round, and another copy is
attached to that one. -/
theorem first_attached_again :
    let first := (add 0).after tangled
    let second := (add 0).after first
    tangled.focus.StartsRound ∧ tangled.focus.supplier = none ∧ tangled.focus.limit = 2 ∧
      first.focus.observed < first.focus.limit ∧ first.focus.primary = some 3 ∧
      first.heap.suppressed 3 = [1, 2] ∧
      second.focus.primary = some 3 ∧ second.heap.suppressed 3 = [1, 2, 4] ∧
      second.heap.message 4 = first.heap.message 3 :=
  ⟨startsRound_new.withLimit 2, by decide +kernel⟩

end Collector
end Teardown
