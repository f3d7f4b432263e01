/-
# The law of a round

Failures added in turn to a collector without a supplier, from the start of a
round: the first one, limited, is the primary failure; those that follow are
limited and attached to it in order, up to the collector's limit and but for
the primary failure itself; and nothing else in the heap changes. Each is
limited in the heap as it stands at its own call, which earlier ones may have
changed: the primary failure may be a caller's own object, and what is added
later may contain it.

Key definitions: `Collector.afterAdding`, `Collector.attachedBy`,
`Collector.UnderWay`.
Key theorems: `Collector.UnderWay.add`, `Collector.UnderWay.run`,
`Collector.round_law`.
-/
import Teardown.Proofs.Collector.Adding

namespace Teardown
namespace Collector

/-- The scene after `fs` have been added in turn. -/
def afterAdding : Scene Collector → List FailureId → Scene Collector
  | s, [] => s
  | s, f :: fs => afterAdding ((add f).after s) fs

/-- What `fs`, added in turn to a round whose primary failure is `primary`, stand
for under the limit, each in the heap of its own call, without the primary
failure itself. -/
def attachedBy (primary : FailureId) : Scene Collector → List FailureId → List FailureId
  | _, [] => []
  | s, f :: fs =>
      let rest := attachedBy primary ((add f).after s) fs
      if f = primary then rest else (s.heap.limit s.focus.limit f).1 :: rest

/-- A round without a supplier, `n` failures into it. -/
structure UnderWay (p : FailureId) (n : Nat) (s : Scene Collector) : Prop where
  isOpen : s.focus.closed = false
  supplier : s.focus.supplier = none
  primary : s.focus.primary = some p
  primary_lt : p < s.heap.size
  observed : s.focus.observed = n

/-- The first failure of a round becomes the primary one. -/
theorem StartsRound.add {s : Scene Collector} (hr : s.focus.StartsRound)
    (hs : s.focus.supplier = none) {f : FailureId} (hf : f < s.heap.size) :
    ∃ t, (add f).run s = .ok () t ∧ t.focus.limit = s.focus.limit ∧
      UnderWay (s.heap.limit s.focus.limit f).1 1 t ∧
      t.heap = (s.heap.limit s.focus.limit f).2 := by
  have hpos := s.focus.limit_pos
  generalize hrun : (Collector.add f).run s = r
  have ha : Added f s r := hrun ▸ added f s
  cases ha with
  | recorded hc ho hp hs limited hl =>
    subst hl
    exact ⟨_, rfl, rfl,
      ⟨hc, hs, rfl, Heap.limit_lt_size _ hf, by simp [counted, hr.observed]⟩, rfl⟩
  | rejected hc => simp [hr.isOpen] at hc
  | dropped hc ho => rw [hr.observed] at ho; omega
  | again hc ho hp => simp [hr.primary] at hp
  | attached hc ho primary hp => simp [hr.primary] at hp
  | supplied hc ho hp supplier hs' => simp [hs] at hs'
  | unsupplied hc ho hp supplier hs' => simp [hs] at hs'

namespace UnderWay

variable {primary : FailureId} {n : Nat} {s : Scene Collector}

/-- One more failure: within the limit it is attached, unless it is the primary
one; no other failure changes, and over the limit none does. -/
theorem add (h : UnderWay primary n s) (f : FailureId) :
    ∃ t, (Collector.add f).run s = .ok () t ∧ t.focus.limit = s.focus.limit ∧
      UnderWay primary (n + 1) t ∧
      t.heap.suppressed primary = s.heap.suppressed primary ++
        (if n < s.focus.limit ∧ f ≠ primary then [(s.heap.limit s.focus.limit f).1] else []) ∧
      (∀ g < s.heap.size, g ≠ primary → t.heap.get? g = s.heap.get? g) ∧
      (s.focus.limit ≤ n → t.heap = s.heap) := by
  obtain ⟨t, ht, ⟨dropped, hfocus⟩, hsize, hget, hover⟩ :=
    add_of_held h.isOpen h.primary h.primary_lt f
  refine ⟨t, ht, ?_, ⟨?_, ?_, ?_, Nat.lt_of_lt_of_le h.primary_lt hsize, ?_⟩, ?_, ?_, ?_⟩
  · rw [hfocus]
    rfl
  · rw [hfocus]
    exact h.isOpen
  · rw [hfocus]
    exact h.supplier
  · rw [hfocus]
    exact h.primary
  · rw [hfocus, ← h.observed]
    rfl
  · obtain ⟨x, hx⟩ := Heap.exists_get? h.primary_lt
    have hx' := hget primary h.primary_lt
    rw [hx, Option.map_some, if_pos rfl] at hx'
    rw [Heap.suppressed_of_get? hx', Heap.suppressed_of_get? hx, ← h.observed]
    rfl
  · intro g hg hne
    rw [hget g hg]
    cases s.heap.get? g <;> simp [hne]
  · rw [← h.observed]
    exact hover

/-- A run of calls: what is attached is what the calls within the limit attach,
one after the other. -/
theorem run : ∀ (fs : List FailureId) {n : Nat} {s : Scene Collector}, UnderWay primary n s →
    (afterAdding s fs).focus.limit = s.focus.limit ∧
    UnderWay primary (n + fs.length) (afterAdding s fs) ∧
      (afterAdding s fs).heap.suppressed primary =
        s.heap.suppressed primary ++ attachedBy primary s (fs.take (s.focus.limit - n))
  | [], _, _, h => ⟨rfl, h, by simp [afterAdding, attachedBy]⟩
  | f :: fs, n, s, h => by
    obtain ⟨t, ht, hlim, hu, hsup, -, -⟩ := h.add f
    have hafter : (Collector.add f).after s = t := Act.after_of_ok ht
    obtain ⟨hlim', hu', hsup'⟩ := run fs hu
    simp only [afterAdding, hafter]
    refine ⟨hlim'.trans hlim, ?_, ?_⟩
    · have : n + (f :: fs).length = n + 1 + fs.length := by simp; omega
      rw [this]
      exact hu'
    · rw [hsup', hsup, hlim, List.append_assoc]
      congr 1
      by_cases hn : n < s.focus.limit
      · -- this call is within the limit
        have htake : (f :: fs).take (s.focus.limit - n) =
            f :: fs.take (s.focus.limit - (n + 1)) := by
          rw [show s.focus.limit - n = s.focus.limit - (n + 1) + 1 by omega, List.take_succ_cons]
        rw [htake, attachedBy, hafter]
        by_cases hf : f = primary <;> simp [hf, hn]
      · have h0 : s.focus.limit - n = 0 := by omega
        have h1 : s.focus.limit - (n + 1) = 0 := by omega
        simp [hn, h0, h1, attachedBy]

end UnderWay

theorem afterAdding_append (s : Scene Collector) (fs gs : List FailureId) :
    afterAdding s (fs ++ gs) = afterAdding (afterAdding s fs) gs := by
  induction fs generalizing s with
  | nil => rfl
  | cons f fs ih => exact ih _

/-- **The law of a round.** From the start of a round of a collector without a
supplier, `f :: fs` are added in turn. The primary failure is what `f` stands for
under the limit; the ones that follow are attached to it, as long as the limit
lasts and unless they are the primary failure. Every single call returns, it
changes no failure but the primary one, the first call changes none at all, and
neither does a call beyond the limit. -/
theorem round_law (s : Scene Collector) (hr : s.focus.StartsRound) (hs : s.focus.supplier = none)
    (f : FailureId) (fs : List FailureId) (hf : f < s.heap.size) :
    let limit := s.focus.limit
    let primary := (s.heap.limit limit f).1
    let first := afterAdding s [f]
    let last := afterAdding s (f :: fs)
    last.focus.primary = some primary ∧
    last.heap.suppressed primary = first.heap.suppressed primary ++
      attachedBy primary first (fs.take (limit - 1)) ∧
    ∀ before g after, f :: fs = before ++ g :: after →
      let now := afterAdding s before
      let next := afterAdding s (before ++ [g])
      (add g).run now = .ok () next ∧
      (∀ x < now.heap.size, x ≠ primary ∨ before = [] → next.heap.get? x = now.heap.get? x) ∧
      (limit ≤ before.length → next.heap = now.heap) := by
  intro limit primary first last
  obtain ⟨t, ht, hlim, hu, hheap⟩ := hr.add hs hf
  have hfirst : first = t := Act.after_of_ok ht
  have hlast : last = afterAdding t fs := by
    rw [← hfirst]
    rfl
  obtain ⟨-, hu', hsup⟩ := hu.run fs
  refine ⟨?_, ?_, ?_⟩
  · rw [hlast]
    exact hu'.primary
  · rw [hlast, hsup, hfirst, hlim]
  · intro before g after heq now next
    cases before with
    | nil =>
      -- the first call
      cases heq
      have hnext : next = t := hfirst
      refine ⟨hnext ▸ ht, fun x hx _ => ?_, fun hle => ?_⟩
      · rw [hnext, hheap]
        exact (Heap.extends_limit s.heap limit f).get?_eq hx
      · have := s.focus.limit_pos
        simp only [List.length_nil] at hle
        omega
    | cons b before =>
      cases heq
      obtain ⟨hlim', hub, -⟩ := hu.run before
      have hnow : now = afterAdding t before := by
        rw [← hfirst]
        rfl
      obtain ⟨u, hrun, -, -, -, hframe, hover⟩ := hub.add g
      rw [← hnow] at hrun hframe hover
      have hnext : next = u := by
        rw [← Act.after_of_ok hrun, ← show afterAdding now [g] = (add g).after now from rfl]
        exact afterAdding_append s (f :: before) [g]
      refine ⟨hnext ▸ hrun, fun x hx hne => ?_, fun hle => ?_⟩
      · rw [hnext]
        exact hframe x hx (hne.resolve_right (by simp))
      · rw [hnext]
        refine hover ?_
        rw [hnow, hlim', hlim]
        simpa [Nat.add_comm] using hle

/-- A collector that keeps two failures, beside a failure that suppresses three,
one of them twice and one that suppresses it in turn. -/
def tangled : Scene Collector where
  heap := ⟨#[{ message := "a", suppressed := [1, 2, 1] }, { message := "b", suppressed := [0] },
    { message := "c" }]⟩
  focus := withLimit {} 2

/-- The wide failure is added twice: a copy of it becomes the primary failure,
and another copy is attached to that one. -/
theorem round_law_tangled :
    tangled.focus.StartsRound ∧ tangled.focus.supplier = none ∧ 0 < tangled.heap.size ∧
      (afterAdding tangled [0, 0, 1]).focus.primary = some 3 ∧
      (afterAdding tangled [0, 0, 1]).heap.suppressed 3 = [1, 2] ++ [4] := by
  have hr : tangled.focus.StartsRound := startsRound_new.withLimit 2
  have hf : 0 < tangled.heap.size := by decide
  obtain ⟨hp, hs, -⟩ := round_law tangled hr rfl 0 [0, 1] hf
  refine ⟨hr, rfl, hf, hp, ?_⟩
  exact hs

end Collector
end Teardown
