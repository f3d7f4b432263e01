/-
# What a round gathers

Once a round has a primary failure, however it came by it, each failure that is
offered is attached to it, limited in the heap of its own call, until the limit is
reached, and unless it is the primary failure itself. So the primary failure stays
as it was when the round got it, but for what is attached to it, which the offers
tell (`Collector.Opened.add`). Nothing is needed of the rest of the heap: between the
calls other failures may change, as long as the primary one does not
(`Collector.Opened.of_get?`). Without a supplier what stands for the first failure
is the primary one (`Collector.Gathering.add`).

Key definitions: `Collector.standIns`, `Collector.Opened`, `Collector.Gathering`.
Key theorems: `Collector.standIns_take_concat`, `Collector.Opened.add`,
`Collector.Gathering.add`.
-/
import Teardown.Proofs.Collector.Round

namespace Teardown
namespace Collector

/-- What stands under the limit for failures that are offered, each in the heap of
its own call, without the primary failure `p` itself. -/
def standIns (p : FailureId) (limit : Nat) (offers : List (FailureId × Heap)) : List FailureId :=
  (offers.filter (·.1 ≠ p)).map fun offer => (offer.2.limit limit offer.1).1

theorem standIns_append (p : FailureId) (limit : Nat) (offers more : List (FailureId × Heap)) :
    standIns p limit (offers ++ more) = standIns p limit offers ++ standIns p limit more := by
  simp [standIns]

/-- One more offer, in a round with room for `room` of them. -/
theorem standIns_take_concat (p : FailureId) (limit room : Nat)
    (offers : List (FailureId × Heap)) (f : FailureId) (h : Heap) :
    standIns p limit ((offers ++ [(f, h)]).take room) = standIns p limit (offers.take room) ++
      if offers.length < room ∧ f ≠ p then [(h.limit limit f).1] else [] := by
  rw [List.take_append, standIns_append]
  congr 1
  by_cases hroom : offers.length < room
  · obtain ⟨k, hk⟩ : ∃ k, room - offers.length = k + 1 := ⟨room - offers.length - 1, by omega⟩
    rw [hk, List.take_succ_cons, List.take_nil]
    by_cases hf : f = p <;> simp [standIns, hf, hroom]
  · rw [Nat.sub_eq_zero_of_le (Nat.le_of_not_lt hroom)]
    simp [standIns, hroom]

/-- A round with the primary failure `p`, which was `x` when the round got it. The
failures `later` have been offered since. -/
structure Opened (p : FailureId) (x : Failure) (later : List (FailureId × Heap))
    (s : Scene Collector) : Prop where
  isOpen : s.focus.closed = false
  primary : s.focus.primary = some p
  observed : s.focus.observed = later.length + 1
  get? : s.heap.get? p = some { x with
    suppressed := x.suppressed ++ standIns p s.focus.limit (later.take (s.focus.limit - 1)) }

namespace Opened

variable {p : FailureId} {x : Failure} {later : List (FailureId × Heap)} {s : Scene Collector}

/-- The round has just got its primary failure. -/
theorem start (hc : s.focus.closed = false) (hp : s.focus.primary = some p)
    (ho : s.focus.observed = 1) (hx : s.heap.get? p = some x) : Opened p x [] s where
  isOpen := hc
  primary := hp
  observed := ho
  get? := by simpa [standIns] using hx

theorem primary_lt (h : Opened p x later s) : p < s.heap.size := Heap.lt_size_of_get? h.get?

theorem suppressed (h : Opened p x later s) : s.heap.suppressed p =
    x.suppressed ++ standIns p s.focus.limit (later.take (s.focus.limit - 1)) :=
  Heap.suppressed_of_get? h.get?

theorem message (h : Opened p x later s) : s.heap.message p = x.message := by
  simp [Heap.message, h.get?]

/-- Other failures may change. -/
theorem of_get? (h : Opened p x later s) {t : Scene Collector} (hfocus : t.focus = s.focus)
    (hp : ∀ y, s.heap.get? p = some y → t.heap.get? p = some y) : Opened p x later t where
  isOpen := hfocus ▸ h.isOpen
  primary := hfocus ▸ h.primary
  observed := hfocus ▸ h.observed
  get? := by
    rw [hfocus]
    exact hp _ h.get?

/-- **One more failure is offered.** -/
theorem add (h : Opened p x later s) (f : FailureId) :
    ∃ t, (Collector.add f).run s = .ok () t ∧
      (∃ dropped, t.focus = { s.focus.counted with dropped }) ∧ s.heap.size ≤ t.heap.size ∧
      Opened p x (later ++ [(f, s.heap)]) t := by
  obtain ⟨t, ht, ⟨dropped, hfocus⟩, hsize, hget, -⟩ :=
    add_of_held h.isOpen h.primary h.primary_lt f
  have hattached : attachedAt s p f =
      if later.length < s.focus.limit - 1 ∧ f ≠ p then [(s.heap.limit s.focus.limit f).1] else [] := by
    have hroom : s.focus.observed < s.focus.limit ↔ later.length < s.focus.limit - 1 := by
      rw [h.observed]
      omega
    simp only [attachedAt, hroom]
  refine ⟨t, ht, ⟨dropped, hfocus⟩, hsize, ?_, ?_, ?_, ?_⟩
  · rw [hfocus]
    exact h.isOpen
  · rw [hfocus]
    exact h.primary
  · have hobserved : t.focus.observed = s.focus.observed + 1 := by
      rw [hfocus]
      rfl
    rw [hobserved, h.observed, List.length_append]
    rfl
  · have hlimit : t.focus.limit = s.focus.limit := by
      rw [hfocus]
      rfl
    rw [hget p h.primary_lt, h.get?, Option.map_some, if_pos rfl, hattached, hlimit,
      standIns_take_concat]
    simp only [List.append_assoc]

end Opened

/-- A round without a supplier that `offers` have been made to. -/
structure Gathering (limit : Nat) (offers : List (FailureId × Heap)) (s : Scene Collector) :
    Prop where
  isOpen : s.focus.closed = false
  supplier : s.focus.supplier = none
  limit_eq : s.focus.limit = limit
  start : offers = [] → s.focus.StartsRound
  opened : ∀ f h later, offers = (f, h) :: later →
    ∃ x, (h.limit limit f).2.get? (h.limit limit f).1 = some x ∧
      Opened (h.limit limit f).1 x later s

namespace Gathering

variable {limit : Nat} {offers : List (FailureId × Heap)} {s : Scene Collector}

/-- Failures may be made, and the log may be told of something. -/
theorem of_extends (hg : Gathering limit offers s) {t : Scene Collector}
    (hfocus : t.focus = s.focus) (hext : s.heap.Extends t.heap) : Gathering limit offers t where
  isOpen := hfocus ▸ hg.isOpen
  supplier := hfocus ▸ hg.supplier
  limit_eq := hfocus ▸ hg.limit_eq
  start hnil := hfocus ▸ hg.start hnil
  opened f h later heq :=
    let ⟨x, hx, ho⟩ := hg.opened f h later heq
    ⟨x, hx, ho.of_get? hfocus fun y hy => hext _ y hy⟩

/-- **One more failure is offered.** -/
theorem add (hg : Gathering limit offers s) {f : FailureId} (hf : f < s.heap.size) :
    ∃ t, (Collector.add f).run s = .ok () t ∧ s.heap.size ≤ t.heap.size ∧
      Gathering limit (offers ++ [(f, s.heap)]) t := by
  cases offers with
  | nil =>
    obtain ⟨t, ht, hlimit, hu, hheap⟩ := (hg.start rfl).add hg.supplier hf
    rw [hg.limit_eq] at hu hheap
    refine ⟨t, ht, ?_, hu.isOpen, hu.supplier, hlimit.trans hg.limit_eq, by simp, ?_⟩
    · rw [hheap]
      exact (s.heap.extends_limit limit f).size_le
    · rintro f h later ⟨⟩
      obtain ⟨x, hx⟩ := Heap.exists_get? hu.primary_lt
      exact ⟨x, hheap ▸ hx, .start hu.isOpen hu.primary hu.observed hx⟩
  | cons first later =>
    obtain ⟨x, hx, ho⟩ := hg.opened first.1 first.2 later rfl
    obtain ⟨t, ht, ⟨dropped, hfocus⟩, hsize, ho'⟩ := ho.add f
    refine ⟨t, ht, hsize, ho'.isOpen, ?_, ?_, by simp, ?_⟩
    · rw [hfocus]
      exact hg.supplier
    · rw [hfocus]
      exact hg.limit_eq
    · rintro f h later ⟨⟩
      exact ⟨x, hx, ho'⟩

end Gathering

end Collector
end Teardown
