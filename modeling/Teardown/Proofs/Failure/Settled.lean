/-
# Settled failures

While failures are gathered, some are still being attached to and the others
stand still. A view knows the settled ones: they stand in the heap as the view
says, and so does whatever they suppress. Making failures of errors and
limiting them settle new failures and move no other (`Grown`), so what is known
of a settled failure is known for good.

Key definitions: `View`, `Heap.ShownBy`, `Settled`, `Grown`, `Moved`.
Key theorems: `Settled.shownBy`, `Settled.limit`, `Settled.ofError`.
-/
import Teardown.Failure.Cause
import Teardown.Failure.Limit

namespace Teardown

/-- What is known of failures. -/
abbrev View := FailureId → Option Failure

namespace View

/-- `w` knows what `v` knows. -/
def Le (v w : View) : Prop := ∀ f x, v f = some x → w f = some x

theorem Le.refl (v : View) : v.Le v := fun _ _ hx => hx

theorem Le.trans {u v w : View} (huv : u.Le v) (hvw : v.Le w) : u.Le w :=
  fun f x hx => hvw f x (huv f x hx)

def Knows (v : View) (f : FailureId) : Prop := ∃ x, v f = some x

theorem Knows.mono {v w : View} {f : FailureId} (hf : v.Knows f) (hvw : v.Le w) : w.Knows f := by
  obtain ⟨x, hx⟩ := hf
  exact ⟨x, hvw f x hx⟩

end View

namespace Heap

/-- Every suppressed failure exists. -/
def Whole (h : Heap) : Prop := ∀ f x, h.get? f = some x → ∀ g ∈ x.suppressed, g < h.size

/-- The failures that are met from `f` along suppressed lists. -/
inductive Reaches (h : Heap) (f : FailureId) : FailureId → Prop where
  | refl : h.Reaches f f
  | step {g x : FailureId} (hg : h.Reaches f g) (hx : x ∈ h.suppressed g) : h.Reaches f x

/-- `f` and whatever is met from it exist, and the view knows them as they stand. -/
def ShownBy (h : Heap) (v : View) (f : FailureId) : Prop :=
  ∀ g, h.Reaches f g → ∃ x, h.get? g = some x ∧ v g = some x

theorem ShownBy.mono {h : Heap} {v w : View} {f : FailureId} (hf : h.ShownBy v f)
    (hvw : v.Le w) : h.ShownBy w f := by
  intro g hg
  obtain ⟨x, hx, hv⟩ := hf g hg
  exact ⟨x, hx, hvw g x hv⟩

theorem ShownBy.knows {h : Heap} {v : View} {f : FailureId} (hf : h.ShownBy v f) : v.Knows f := by
  obtain ⟨x, -, hx⟩ := hf f .refl
  exact ⟨x, hx⟩

end Heap

/-- The failures that the view `v` knows are settled in the heap `k`, all those
of the heap `h` among them. -/
structure Settled (h : Heap) (v : View) (k : Heap) : Prop where
  start : ∀ f x, h.get? f = some x → v f = some x
  stands : ∀ f x, v f = some x → k.get? f = some x
  whole : ∀ f x, v f = some x → ∀ g ∈ x.suppressed, v.Knows g

/-- From one view and heap to another, new failures are made and known, and
nothing else happens. -/
structure Grown (v : View) (k : Heap) (v' : View) (k' : Heap) : Prop where
  heap : k.Extends k'
  view : ∀ f, f < k.size → v' f = v f

namespace Grown

variable {v v₁ v₂ : View} {k k₁ k₂ : Heap}

theorem refl (v : View) (k : Heap) : Grown v k v k := ⟨.refl k, fun _ _ => rfl⟩

theorem trans (h₁ : Grown v k v₁ k₁) (h₂ : Grown v₁ k₁ v₂ k₂) : Grown v k v₂ k₂ where
  heap := h₁.heap.trans h₂.heap
  view f hf := (h₂.view f (Nat.lt_of_lt_of_le hf h₁.heap.size_le)).trans (h₁.view f hf)

end Grown

namespace Settled

variable {h k : Heap} {v : View}

theorem initial (hh : h.Whole) : Settled h h.get? h where
  start _ _ hx := hx
  stands _ _ hx := hx
  whole f x hx g hg := Heap.exists_get? (hh f x hx g hg)

theorem extends_heap (hs : Settled h v k) : h.Extends k :=
  fun f x hx => hs.stands f x (hs.start f x hx)

theorem lt_size (hs : Settled h v k) {f : FailureId} (hf : v.Knows f) : f < k.size := by
  obtain ⟨x, hx⟩ := hf
  exact Heap.lt_size_of_get? (hs.stands f x hx)

theorem le (hs : Settled h v k) {v' : View} {k' : Heap} (hg : Grown v k v' k') : v.Le v' := by
  intro f x hx
  rw [hg.view f (hs.lt_size ⟨x, hx⟩), hx]

/-- What a settled failure suppresses is settled. -/
theorem knows_suppressed (hs : Settled h v k) {f g : FailureId} (hf : v.Knows f)
    (hg : g ∈ k.suppressed f) : v.Knows g := by
  obtain ⟨x, hx⟩ := hf
  rw [Heap.suppressed_of_get? (hs.stands f x hx)] at hg
  exact hs.whole f x hx g hg

/-- **What is met from a settled failure is settled.** -/
theorem shownBy (hs : Settled h v k) {f : FailureId} (hf : v.Knows f) : k.ShownBy v f := by
  intro g hg
  have hknown : v.Knows g := by
    induction hg with
    | refl => exact hf
    | step _ hx ih => exact hs.knows_suppressed ih hx
  obtain ⟨x, hx⟩ := hknown
  exact ⟨x, hs.stands g x hx, hx⟩

/-- A new failure that suppresses settled ones is settled. -/
theorem alloc (hs : Settled h v k) {x : Failure} (hx : ∀ g ∈ x.suppressed, v.Knows g) :
    ∃ v', Grown v k v' (k.alloc x).2 ∧ Settled h v' (k.alloc x).2 ∧ v'.Knows (k.alloc x).1 := by
  let v' : View := fun f => if f = k.size then some x else v f
  have hold : ∀ f, f < k.size → v' f = v f := fun f hf => if_neg (Nat.ne_of_lt hf)
  have hnew : v' k.size = some x := if_pos rfl
  have hgrown : Grown v k v' (k.alloc x).2 := ⟨Heap.extends_alloc k x, hold⟩
  have hle := hs.le hgrown
  refine ⟨v', hgrown, ⟨fun f y hy => hle f y (hs.start f y hy), fun f y hy => ?_,
    fun f y hy g hg => ?_⟩, x, hnew⟩
  · rw [Heap.get?_alloc]
    by_cases hf : f = k.size
    · simpa [v', hf] using hy
    · rw [if_neg hf]
      exact hs.stands f y (by simpa [v', hf] using hy)
  · by_cases hf : f = k.size
    · obtain rfl : x = y := by simpa [v', hf] using hy
      exact (hx g hg).mono hle
    · exact (hs.whole f y (by simpa [v', hf] using hy) g hg).mono hle

/-- Steps that settle what they give settle what they give one after the other. -/
theorem limitEach {step : Heap → FailureId → FailureId × Heap}
    (hstep : ∀ {v : View} {k : Heap} {f : FailureId}, Settled h v k → v.Knows f →
      ∃ v', Grown v k v' (step k f).2 ∧ Settled h v' (step k f).2 ∧ v'.Knows (step k f).1) :
    ∀ (fs : List FailureId) {v : View} {k : Heap}, Settled h v k → (∀ f ∈ fs, v.Knows f) →
      ∃ v', Grown v k v' (Heap.limitEach step k fs).2 ∧
        Settled h v' (Heap.limitEach step k fs).2 ∧
        ∀ f ∈ (Heap.limitEach step k fs).1, v'.Knows f
  | [], v, k, hs, _ => ⟨v, .refl v k, hs, by simp [Heap.limitEach]⟩
  | f :: fs, v, k, hs, hfs => by
    obtain ⟨v₁, hg₁, hs₁, hf⟩ := hstep hs (hfs f (by simp))
    have hrest : ∀ g ∈ fs, v₁.Knows g := fun g hg => (hfs g (by simp [hg])).mono (hs.le hg₁)
    obtain ⟨v₂, hg₂, hs₂, hkept⟩ := limitEach hstep fs hs₁ hrest
    refine ⟨v₂, hg₁.trans hg₂, hs₂, fun g hg => ?_⟩
    rcases List.mem_cons.mp hg with rfl | hg
    · exact hf.mono (hs₁.le hg₂)
    · exact hkept g hg

theorem limitWithin (limit : Nat) : ∀ (levels : Nat) {v : View} {k : Heap} {f : FailureId},
    Settled h v k → v.Knows f →
      ∃ v', Grown v k v' (Heap.limitWithin limit levels k f).2 ∧
        Settled h v' (Heap.limitWithin limit levels k f).2 ∧
        v'.Knows (Heap.limitWithin limit levels k f).1 := by
  intro levels
  induction levels with
  | zero =>
    intro v k f hs hf
    unfold Heap.limitWithin
    split
    · exact ⟨v, .refl v k, hs, hf⟩
    · exact hs.alloc (by simp [Heap.truncatedCopy])
  | succ levels ih =>
    intro v k f hs hf
    unfold Heap.limitWithin
    split
    · exact ⟨v, .refl v k, hs, hf⟩
    · have hkids : ∀ g ∈ (k.suppressed f).take limit, v.Knows g :=
        fun g hg => hs.knows_suppressed hf (List.mem_of_mem_take hg)
      obtain ⟨v₁, hg₁, hs₁, hkept⟩ := limitEach ih _ hs hkids
      obtain ⟨v₂, hg₂, hs₂, hcopy⟩ := hs₁.alloc (x := k.truncatedCopy f _) hkept
      exact ⟨v₂, hg₁.trans hg₂, hs₂, hcopy⟩

/-- **Limiting a settled failure settles what stands for it.** -/
theorem limit (hs : Settled h v k) (limit : Nat) {f : FailureId} (hf : v.Knows f) :
    ∃ v', Grown v k v' (k.limit limit f).2 ∧ Settled h v' (k.limit limit f).2 ∧
      v'.Knows (k.limit limit f).1 :=
  limitWithin limit limit hs hf

/-- **The failure of an error is settled** if the failure it carries is. -/
theorem ofError (hs : Settled h v k) {e : ErrorValue} (he : ∀ f, e.failure? = some f → v.Knows f) :
    ∃ v', Grown v k v' (k.ofError e).2 ∧ Settled h v' (k.ofError e).2 ∧
      v'.Knows (k.ofError e).1 := by
  unfold Heap.ofError
  cases hf : e.failure? with
  | some f => exact ⟨v, .refl v k, hs, he f hf⟩
  | none => exact hs.alloc (by simp)

theorem of_extends (hs : Settled h v k) {k' : Heap} (hk : k.Extends k') : Settled h v k' where
  start := hs.start
  stands f x hx := hk f x (hs.stands f x hx)
  whole := hs.whole

/-- Attaching to a failure that is not settled leaves the settled ones alone. -/
theorem attach (hs : Settled h v k) {p : FailureId} (hp : v p = none) (x : FailureId) :
    Settled h v (k.attach p x) where
  start := hs.start
  stands f y hy := by
    have hne : f ≠ p := by
      rintro rfl
      simp [hp] at hy
    rw [Heap.get?_attach_of_ne k x hne]
    exact hs.stands f y hy
  whole := hs.whole

/-- A failure settles once what it suppresses is settled. -/
theorem settle (hs : Settled h v k) {f : FailureId} {x : Failure} (hf : v f = none)
    (hx : k.get? f = some x) (hkept : ∀ g ∈ x.suppressed, v.Knows g) :
    ∃ v', v.Le v' ∧ v' f = some x ∧ (∀ g, g ≠ f → v' g = v g) ∧ Settled h v' k := by
  let v' : View := fun g => if g = f then some x else v g
  have hother : ∀ g, g ≠ f → v' g = v g := fun g hg => if_neg hg
  have hle : v.Le v' := by
    intro g y hy
    have hne : g ≠ f := by
      rintro rfl
      simp [hf] at hy
    rw [hother g hne, hy]
  refine ⟨v', hle, if_pos rfl, hother, fun g y hy => hle g y (hs.start g y hy), fun g y hy => ?_,
    fun g y hy a ha => ?_⟩
  · by_cases hg : g = f
    · obtain rfl : x = y := by simpa [v', hg] using hy
      rw [hg, hx]
    · exact hs.stands g y (by rwa [hother g hg] at hy)
  · by_cases hg : g = f
    · obtain rfl : x = y := by simpa [v', hg] using hy
      exact (hkept a ha).mono hle
    · exact (hs.whole g y (by rwa [hother g hg] at hy) a ha).mono hle

end Settled

/-! ### What may move meanwhile -/

/-- From one view and heap to another, of the failures that are not settled only
those in `own` may change or settle. -/
structure Moved (own : List FailureId) (v : View) (k : Heap) (v' : View) (k' : Heap) : Prop where
  size_le : k.size ≤ k'.size
  le : v.Le v'
  others : ∀ f x, k.get? f = some x → v f = none → f ∉ own → k'.get? f = some x ∧ v' f = none

namespace Moved

variable {own own₁ own₂ : List FailureId} {v v₁ v₂ : View} {h k k₁ k₂ : Heap}

theorem refl (own : List FailureId) (v : View) (k : Heap) : Moved own v k v k :=
  ⟨Nat.le_refl _, .refl v, fun _ _ hx hf _ => ⟨hx, hf⟩⟩

theorem of_grown (hs : Settled h v k) (hg : Grown v k v₁ k₁) (own : List FailureId) :
    Moved own v k v₁ k₁ where
  size_le := hg.heap.size_le
  le := hs.le hg
  others f x hx hf _ := ⟨hg.heap f x hx, (hg.view f (Heap.lt_size_of_get? hx)).trans hf⟩

theorem extends_heap (hm : Moved own v k v₁ k₁) (hk : k₁.Extends k₂) : Moved own v k v₁ k₂ where
  size_le := Nat.le_trans hm.size_le hk.size_le
  le := hm.le
  others f x hx hf hown := ⟨hk f x (hm.others f x hx hf hown).1, (hm.others f x hx hf hown).2⟩

/-- What may change may be attached to, and so may what is new. -/
theorem attach (hm : Moved own v k v₁ k₁) {p : FailureId} (hp : p ∈ own ∨ k.size ≤ p)
    (x : FailureId) : Moved own v k v₁ (k₁.attach p x) where
  size_le := by
    rw [Heap.size_attach]
    exact hm.size_le
  le := hm.le
  others f y hy hf hown := by
    have hne : f ≠ p := by
      rintro rfl
      rcases hp with hp | hp
      · exact hown hp
      · exact Nat.lt_irrefl _ (Nat.lt_of_lt_of_le (Heap.lt_size_of_get? hy) hp)
    rw [Heap.get?_attach_of_ne k₁ x hne]
    exact hm.others f y hy hf hown

/-- One move after the other, where the second may also change what is new. -/
theorem trans (h₁ : Moved own₁ v k v₁ k₁) (h₂ : Moved own₂ v₁ k₁ v₂ k₂)
    (hown₁ : ∀ f ∈ own₁, f ∈ own) (hown₂ : ∀ f ∈ own₂, f ∈ own ∨ k.size ≤ f) :
    Moved own v k v₂ k₂ where
  size_le := Nat.le_trans h₁.size_le h₂.size_le
  le := h₁.le.trans h₂.le
  others f x hx hf hown := by
    obtain ⟨hx₁, hf₁⟩ := h₁.others f x hx hf fun hmem => hown (hown₁ f hmem)
    refine h₂.others f x hx₁ hf₁ fun hmem => ?_
    rcases hown₂ f hmem with hmem | hle
    · exact hown hmem
    · exact Nat.lt_irrefl _ (Nat.lt_of_lt_of_le (Heap.lt_size_of_get? hx) hle)

end Moved
end Teardown
