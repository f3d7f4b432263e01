/-
# Limiting suppressed lists

Before a failure is recorded, its suppressed lists are cut down to a limit.
A failure within the limit is kept as the same object, with everything below
it. One over the limit is replaced by a truncated copy: same message, same
origin, and its first suppressed failures, each limited in the same way. As
many levels down as the limit allows, an oversized failure keeps none.

What stood in the heap before is never touched: limiting only makes new failures.

Key definitions: `Heap.limit`.
-/
import Teardown.Failure.Heap

namespace Teardown
namespace Heap

/-- Runs `step` on each identity in turn, keeping the answers. -/
def limitEach (step : Heap → FailureId → FailureId × Heap) :
    Heap → List FailureId → List FailureId × Heap
  | h, [] => ([], h)
  | h, f :: rest =>
      let (f', h) := step h f
      let (rest', h) := limitEach step h rest
      (f' :: rest', h)

/-- The copy left in place of `f`, with the suppressed failures `kept`. -/
def truncatedCopy (h : Heap) (f : FailureId) (kept : List FailureId) : Failure :=
  { kind := .truncated, message := h.message f, origin := h.origin f, suppressed := kept }

/-- Limits `f`, of which copies may go `levels` further down. -/
def limitWithin (limit : Nat) : Nat → Heap → FailureId → FailureId × Heap
  | levels, h, f =>
      if (h.suppressed f).length ≤ limit then (f, h)
      else
        match levels with
        | 0 => h.alloc (h.truncatedCopy f [])
        | levels + 1 =>
            let (kept, h') := limitEach (limitWithin limit levels) h ((h.suppressed f).take limit)
            h'.alloc (h.truncatedCopy f kept)

/-- The failure that stands for `f` under a limit. -/
def limit (h : Heap) (limit : Nat) (f : FailureId) : FailureId × Heap :=
  limitWithin limit limit h f

/-- Each identity has its answer. -/
theorem length_limitEach {step : Heap → FailureId → FailureId × Heap} :
    ∀ (fs : List FailureId) (h : Heap), (limitEach step h fs).1.length = fs.length
  | [], _ => rfl
  | f :: fs, h => by
    show (limitEach step (step h f).2 fs).1.length + 1 = fs.length + 1
    rw [length_limitEach fs (step h f).2]

/-- A failure within the limit is kept as the same object. -/
theorem limit_of_le {h : Heap} {limit : Nat} {f : FailureId}
    (hle : (h.suppressed f).length ≤ limit) : h.limit limit f = (f, h) := by
  unfold Heap.limit limitWithin
  simp [hle]

/-! ### What limiting leaves in place -/

theorem extends_limitEach {step : Heap → FailureId → FailureId × Heap}
    (hstep : ∀ (h : Heap) (f : FailureId), h.Extends (step h f).2) :
    ∀ (fs : List FailureId) (h : Heap), h.Extends (limitEach step h fs).2
  | [], h => Extends.refl h
  | f :: fs, h => (hstep h f).trans (extends_limitEach hstep fs (step h f).2)

theorem extends_limitWithin (limit : Nat) : ∀ (levels : Nat) (h : Heap) (f : FailureId),
    h.Extends (limitWithin limit levels h f).2 := by
  intro levels
  induction levels with
  | zero =>
    intro h f
    unfold limitWithin
    split
    · exact Extends.refl h
    · exact extends_alloc h _
  | succ levels ih =>
    intro h f
    unfold limitWithin
    split
    · exact Extends.refl h
    · exact (extends_limitEach ih _ h).trans (extends_alloc _ _)

/-- What stood in the heap before is never touched. -/
theorem extends_limit (h : Heap) (limit : Nat) (f : FailureId) : h.Extends (h.limit limit f).2 :=
  extends_limitWithin limit limit h f

/-- A failure over the limit is replaced by a new one. -/
theorem limit_of_lt {h : Heap} {limit : Nat} {f : FailureId}
    (hlt : limit < (h.suppressed f).length) :
    h.size ≤ (h.limit limit f).1 ∧ (h.limit limit f).1 < (h.limit limit f).2.size := by
  unfold Heap.limit limitWithin
  rw [if_neg (by omega)]
  cases limit with
  | zero => simp [alloc, size]
  | succ limit =>
    have hle := (extends_limitEach (extends_limitWithin (limit + 1) limit)
      ((h.suppressed f).take (limit + 1)) h).size_le
    refine ⟨?_, ?_⟩
    · simpa [alloc] using hle
    · simp [alloc, size]

/-- What replaces a failure over the limit is a truncated copy of it. -/
theorem get?_limit_of_lt {h : Heap} {limit : Nat} {f : FailureId}
    (hlt : limit < (h.suppressed f).length) :
    ∃ kept, (h.limit limit f).2.get? (h.limit limit f).1 = some (h.truncatedCopy f kept) := by
  unfold Heap.limit limitWithin
  rw [if_neg (by omega)]
  cases limit with
  | zero => exact ⟨[], (get?_alloc h _ _).trans (if_pos rfl)⟩
  | succ limit => exact ⟨_, (get?_alloc _ _ _).trans (if_pos rfl)⟩

/-- What stands for a failure has its message. -/
theorem message_limit (h : Heap) (limit : Nat) (f : FailureId) :
    (h.limit limit f).2.message (h.limit limit f).1 = h.message f := by
  by_cases hle : (h.suppressed f).length ≤ limit
  · rw [limit_of_le hle]
  · obtain ⟨kept, hget⟩ := get?_limit_of_lt (Nat.lt_of_not_le hle)
    simp [message, hget, truncatedCopy]

/-- Limiting gives the failure itself or a new one. -/
theorem limit_eq_or_le (h : Heap) (limit : Nat) (f : FailureId) :
    h.limit limit f = (f, h) ∨ h.size ≤ (h.limit limit f).1 := by
  by_cases hle : (h.suppressed f).length ≤ limit
  · exact Or.inl (limit_of_le hle)
  · exact Or.inr (limit_of_lt (by omega)).1

theorem limit_lt_size {h : Heap} {f : FailureId} (limit : Nat) (hf : f < h.size) :
    (h.limit limit f).1 < (h.limit limit f).2.size := by
  by_cases hle : (h.suppressed f).length ≤ limit
  · rw [limit_of_le hle]
    exact hf
  · exact (limit_of_lt (by omega)).2

/-- No other failure that exists can come of limiting `f`. -/
theorem limit_ne {h : Heap} {limit : Nat} {f g : FailureId} (hg : g < h.size) (hne : g ≠ f) :
    g ≠ (h.limit limit f).1 := by
  rcases h.limit_eq_or_le limit f with he | hle
  · rw [he]
    exact hne
  · exact Nat.ne_of_lt (Nat.lt_of_lt_of_le hg hle)

end Heap
end Teardown
