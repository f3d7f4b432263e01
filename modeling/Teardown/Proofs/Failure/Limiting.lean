/-
# Limiting attaches what is kept, and nothing else

A failure over the limit is never kept itself: a copy stands for it wherever it
is met. So limiting a failure attaches it to nothing, not even to the copies
that are made (`Heap.noMore_limit`).

Key definitions: `Heap.NoMore`.
Key theorems: `Heap.noMore_limitWithin`, `Heap.noMore_limit`.
-/
import Teardown.Failure.Limit

namespace Teardown
namespace Heap

/-- What suppresses `x` in `h'` suppresses it in `h` already. -/
def NoMore (x : FailureId) (h h' : Heap) : Prop :=
  ∀ g, x ∈ h'.suppressed g → x ∈ h.suppressed g

theorem NoMore.refl (x : FailureId) (h : Heap) : NoMore x h h := fun _ hg => hg

theorem NoMore.trans {x : FailureId} {h₁ h₂ h₃ : Heap} (h₁₂ : NoMore x h₁ h₂)
    (h₂₃ : NoMore x h₂ h₃) : NoMore x h₁ h₃ :=
  fun g hg => h₁₂ g (h₂₃ g hg)

theorem noMore_alloc {h : Heap} {x : FailureId} {failure : Failure} (hx : x ∉ failure.suppressed) :
    NoMore x h (h.alloc failure).2 := by
  intro g hg
  rw [suppressed_alloc] at hg
  split at hg
  · exact absurd hg hx
  · exact hg

/-- `x` exists and is over the limit. -/
structure Oversized (limit : Nat) (x : FailureId) (h : Heap) : Prop where
  lt_size : x < h.size
  lt_length : limit < (h.suppressed x).length

theorem Oversized.extends {limit : Nat} {x : FailureId} {h h' : Heap} (hx : Oversized limit x h)
    (he : h.Extends h') : Oversized limit x h' where
  lt_size := Nat.lt_of_lt_of_le hx.lt_size he.size_le
  lt_length := by
    rw [he.suppressed_eq hx.lt_size]
    exact hx.lt_length

section

variable {limit : Nat} {x : FailureId}

theorem noMore_limitEach {step : Heap → FailureId → FailureId × Heap}
    (hext : ∀ (h : Heap) (f : FailureId), h.Extends (step h f).2)
    (hstep : ∀ (h : Heap) (f : FailureId), Oversized limit x h →
      (step h f).1 ≠ x ∧ NoMore x h (step h f).2) :
    ∀ (fs : List FailureId) (h : Heap), Oversized limit x h →
      x ∉ (limitEach step h fs).1 ∧ NoMore x h (limitEach step h fs).2
  | [], h, _ => ⟨by simp [limitEach], .refl x h⟩
  | f :: fs, h, hx => by
    obtain ⟨hne, hfirst⟩ := hstep h f hx
    obtain ⟨hmem, hrest⟩ := noMore_limitEach hext hstep fs (step h f).2 (hx.extends (hext h f))
    refine ⟨?_, hfirst.trans hrest⟩
    simp only [limitEach, List.mem_cons, not_or]
    exact ⟨Ne.symm hne, hmem⟩

/-- A failure over the limit is not kept, whatever is limited. -/
theorem noMore_limitWithin : ∀ (levels : Nat) (h : Heap) (f : FailureId), Oversized limit x h →
    (limitWithin limit levels h f).1 ≠ x ∧ NoMore x h (limitWithin limit levels h f).2 := by
  intro levels
  induction levels with
  | zero =>
    intro h f hx
    unfold limitWithin
    split
    · rename_i hle
      exact ⟨fun hfx : f = x => Nat.not_lt_of_le hle (hfx ▸ hx.lt_length), .refl x h⟩
    · exact ⟨Nat.ne_of_gt hx.lt_size, noMore_alloc (by simp [truncatedCopy])⟩
  | succ levels ih =>
    intro h f hx
    unfold limitWithin
    split
    · rename_i hle
      exact ⟨fun hfx : f = x => Nat.not_lt_of_le hle (hfx ▸ hx.lt_length), .refl x h⟩
    · have hext := extends_limitWithin limit levels
      obtain ⟨hmem, hkept⟩ := noMore_limitEach hext ih ((h.suppressed f).take limit) h hx
      have hsize := (extends_limitEach hext ((h.suppressed f).take limit) h).size_le
      exact ⟨Nat.ne_of_gt (Nat.lt_of_lt_of_le hx.lt_size hsize), hkept.trans (noMore_alloc hmem)⟩

end

/-- **Limiting a failure attaches it to nothing.** -/
theorem noMore_limit (h : Heap) (limit : Nat) (f : FailureId) :
    NoMore f h (h.limit limit f).2 := by
  by_cases hle : (h.suppressed f).length ≤ limit
  · rw [limit_of_le hle]
    exact .refl f h
  · have hf : f < h.size := by
      refine Nat.lt_of_not_le fun hge => hle ?_
      have hnone : h.get? f = none := Array.getElem?_eq_none hge
      simp [suppressed, hnone]
    exact (noMore_limitWithin limit h f ⟨hf, Nat.lt_of_not_le hle⟩).2

end Heap
end Teardown
