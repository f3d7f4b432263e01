/-
# How many failures the primary one suppresses

Two mechanisms keep a round small: numbers beyond the limit are dropped, so that
at most `limit - 1` failures are attached to the primary one, and what is added
is limited first, so that none brings more than `limit` of its own. Neither
looks at the other. The primary failure suppresses the failures it brought and,
after these, those attached to it (`length_suppressed_primary`): as many as
`2 * limit - 1`, not `limit`.

Key theorems: `Heap.length_suppressed_limit`, `Collector.length_attachedBy`,
`Collector.length_suppressed_primary`.
-/
import Teardown.Proofs.Collector.Round

namespace Teardown

/-! ### What a limited failure brings -/

namespace Heap

/-- What stands for a failure under a limit suppresses as many failures as the
failure itself, up to the limit. -/
theorem length_suppressed_limit (h : Heap) {limit : Nat} (hpos : 0 < limit) (f : FailureId) :
    ((h.limit limit f).2.suppressed (h.limit limit f).1).length =
      min (h.suppressed f).length limit := by
  by_cases hle : (h.suppressed f).length ≤ limit
  · rw [limit_of_le hle, Nat.min_eq_left hle]
  · -- a copy is left, with what the first `limit` suppressed failures stand for
    obtain ⟨levels, rfl⟩ : ∃ levels, limit = levels + 1 := ⟨limit - 1, by omega⟩
    have hkept : (limitEach (limitWithin (levels + 1) levels) h
        ((h.suppressed f).take (levels + 1))).1.length =
          ((h.suppressed f).take (levels + 1)).length := length_limitEach _ h
    rw [Nat.min_eq_right (by omega)]
    unfold Heap.limit limitWithin
    rw [if_neg hle]
    rw [List.length_take, Nat.min_eq_left (by omega)] at hkept
    refine (congrArg List.length ?_).trans hkept
    exact (suppressed_alloc _ _ _).trans (if_pos rfl)

end Heap

/-! ### What is attached to it -/

namespace Collector

/-- Every failure is attached but the primary one. -/
theorem length_attachedBy (primary : FailureId) : ∀ (s : Scene Collector) (fs : List FailureId),
    (attachedBy primary s fs).length = fs.countP (· ≠ primary)
  | _, [] => rfl
  | s, f :: fs => by
    have ih := length_attachedBy primary ((add f).after s) fs
    by_cases hf : f = primary
    · rw [attachedBy, if_pos hf, ih, List.countP_cons_of_neg (by simpa using hf)]
    · rw [attachedBy, if_neg hf, List.length_cons, ih,
        List.countP_cons_of_pos (by simpa using hf)]

/-- **The size of a round.** From the start of a round of a collector without a
supplier, `f :: fs` are added in turn. The primary failure suppresses as many
failures as `f` did, up to the limit, and one more for each of the next
`limit - 1` failures that is not the primary one itself. So it is within the
limit exactly when what it brought leaves room for what is attached, and it
never suppresses more than `2 * limit - 1`. -/
theorem length_suppressed_primary (s : Scene Collector) (hr : s.focus.StartsRound)
    (hs : s.focus.supplier = none) (f : FailureId) (fs : List FailureId) (hf : f < s.heap.size) :
    let limit := s.focus.limit
    let primary := (s.heap.limit limit f).1
    let last := afterAdding s (f :: fs)
    let brought := min (s.heap.suppressed f).length limit
    let attached := (fs.take (limit - 1)).countP (· ≠ primary)
    last.focus.primary = some primary ∧
    (last.heap.suppressed primary).length = brought + attached ∧
    ((last.heap.suppressed primary).length ≤ limit ↔ attached ≤ limit - brought) ∧
    (last.heap.suppressed primary).length ≤ 2 * limit - 1 := by
  intro limit primary last brought attached
  have hpos : 0 < limit := s.focus.limit_pos
  obtain ⟨t, ht, hlim, hu, hheap⟩ := hr.add hs hf
  obtain ⟨-, hu', hsup⟩ := hu.run fs
  have hlast : last = afterAdding t fs := by
    show afterAdding ((add f).after s) fs = afterAdding t fs
    rw [Act.after_of_ok ht]
  have hlength : (last.heap.suppressed primary).length = brought + attached := by
    calc (last.heap.suppressed primary).length
        = (t.heap.suppressed primary).length +
            (attachedBy primary t (fs.take (limit - 1))).length := by
          rw [hlast, hsup, hlim, List.length_append]
      _ = brought + attached := by
          rw [hheap, Heap.length_suppressed_limit s.heap hpos f, length_attachedBy]
  have hbrought : brought ≤ limit := Nat.min_le_right _ _
  have hattached : attached ≤ limit - 1 := by
    refine Nat.le_trans List.countP_le_length ?_
    rw [List.length_take]
    exact Nat.min_le_left _ _
  refine ⟨?_, hlength, ?_, ?_⟩
  · rw [hlast]
    exact hu'.primary
  · omega
  · omega

/-- A copy of the wide failure brings two, and another copy is attached to it. -/
theorem length_suppressed_tangled :
    tangled.focus.StartsRound ∧ tangled.focus.supplier = none ∧ 0 < tangled.heap.size ∧
      (afterAdding tangled [0, 0, 1]).focus.primary = some 3 ∧
      ((afterAdding tangled [0, 0, 1]).heap.suppressed 3).length = 2 + 1 := by
  have hr : tangled.focus.StartsRound := startsRound_new.withLimit 2
  have hf : 0 < tangled.heap.size := by decide
  obtain ⟨hp, hl, -⟩ := length_suppressed_primary tangled hr rfl 0 [0, 1] hf
  exact ⟨hr, rfl, hf, hp, hl⟩

/-- A collector that keeps two failures, beside a failure that suppresses two
and one that suppresses none. -/
def burdened : Scene Collector where
  heap := ⟨#[{ message := "a", suppressed := [1, 2] }, { message := "b" }, { message := "c" },
    { message := "d" }]⟩
  focus := withLimit {} 2

/-- The failure brings two and one is attached: three, where the limit is two. -/
theorem primary_over_limit :
    burdened.focus.StartsRound ∧ burdened.focus.supplier = none ∧ burdened.focus.limit = 2 ∧
      (afterAdding burdened [0, 3]).focus.primary = some 0 ∧
      (afterAdding burdened [0, 3]).heap.suppressed 0 = [1, 2, 3] :=
  ⟨startsRound_new.withLimit 2, by decide +kernel⟩

end Collector
end Teardown
