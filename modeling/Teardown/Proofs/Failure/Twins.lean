/-
# Doing the same again

When the same is done from a heap `h` and, later, from a heap `k` that `h` has become,
what is made in the one case is made in the other too, in the same order. So the failures
that were there in `h` are the same objects in both cases, and each one that is made has
its twin, as far behind the end of `k` as it is behind the end of `h` (`Heap.twinOf`). The
two heaps that come of it are alike in what they say of a failure and of its twin
(`Heap.Twin`). Whatever makes failures from errors, limits them and attaches to new ones
keeps this, and twins have the same report (`Heap.Twin.report_eq`).

Key definitions: `Heap.Stays`, `Heap.twinOf`, `Heap.Twin`.
Key theorems: `Heap.Twin.limit`, `Heap.Twin.ofError`, `Heap.Extends.report_eq`,
`Heap.Twin.report_eq`.
-/
import Teardown.Proofs.Failure.Causes

namespace Teardown
namespace Heap

/-! ### What stays -/

/-- What `h` holds, `h'` holds too, but for what has been attached to it. -/
def Stays (h h' : Heap) : Prop :=
  ∀ f x, h.get? f = some x → ∃ kept, h'.get? f = some { x with suppressed := kept }

theorem Stays.refl (h : Heap) : h.Stays h := fun _ x hx => ⟨x.suppressed, hx⟩

theorem Stays.trans {h₁ h₂ h₃ : Heap} (h₁₂ : h₁.Stays h₂) (h₂₃ : h₂.Stays h₃) : h₁.Stays h₃ := by
  intro f x hx
  obtain ⟨kept, hkept⟩ := h₁₂ f x hx
  obtain ⟨kept', hkept'⟩ := h₂₃ f _ hkept
  exact ⟨kept', hkept'⟩

theorem Extends.stays {h h' : Heap} (he : h.Extends h') : h.Stays h' :=
  fun f x hx => ⟨x.suppressed, he f x hx⟩

theorem stays_attach (h : Heap) (parent child : FailureId) : h.Stays (h.attach parent child) := by
  intro f x hx
  rw [get?_attach, hx, Option.map_some]
  split
  · exact ⟨_, rfl⟩
  · exact ⟨x.suppressed, rfl⟩

/-- Attaching to what is new leaves what was there. -/
theorem Extends.attach {h h' : Heap} (he : h.Extends h') {parent : FailureId}
    (hp : h.size ≤ parent) (child : FailureId) : h.Extends (h'.attach parent child) := by
  intro f x hx
  have hne : f ≠ parent := Nat.ne_of_lt (Nat.lt_of_lt_of_le (lt_size_of_get? hx) hp)
  rw [get?_attach_of_ne h' child hne]
  exact he f x hx

/-! ### What is shown of what stays -/

namespace Extends

variable {h h' : Heap}

theorem message_eq (he : h.Extends h') {f : FailureId} (hf : f < h.size) :
    h'.message f = h.message f := by
  simp [message, he.get?_eq hf]

/-- What is left as it is shows the same causes. -/
theorem causes_eq (he : h.Extends h') (hh : h.Sound) {f : FailureId} (hf : f < h.size) :
    h'.causes f = h.causes f := by
  induction f using Nat.strongRecOn with
  | ind f ih =>
    have horigin : h'.origin f = h.origin f := by simp [Heap.origin, he.get?_eq hf]
    rw [causes_eq_below, causes_eq_below, horigin]
    refine causesWith_congr ((hh.origin f).mono fun g hgf => ?_)
    have hlt : g < h.size := Nat.lt_trans hgf hf
    rw [causesBelow_of_lt hgf, causesBelow_of_lt hgf]
    exact ⟨he.message_eq hlt, ih g hgf hlt⟩

theorem reportWithin_eq (he : h.Extends h') (hh : h.Sound) : ∀ (levels : Nat) {f : FailureId},
    f < h.size → h'.reportWithin levels f = h.reportWithin levels f
  | 0, f, hf => by
    simp only [reportWithin, kind, message, suppressed, he.get?_eq hf, he.causes_eq hh hf]
  | levels + 1, f, hf => by
    have hsuppressed : (h'.suppressed f).map (h'.reportWithin levels) =
        (h.suppressed f).map (h.reportWithin levels) := by
      rw [he.suppressed_eq hf]
      exact List.map_congr_left fun g hg => reportWithin_eq he hh levels (hh.suppressed hg)
    simp only [reportWithin, hsuppressed, kind, message, he.get?_eq hf, he.causes_eq hh hf]

/-- **What is left as it is has the same report.** -/
theorem report_eq (he : h.Extends h') (hh : h.Sound) {f : FailureId} (hf : f < h.size) :
    h'.report f = h.report f :=
  he.reportWithin_eq hh depthLimit hf

end Extends

/-! ### Twins -/

/-- The failure that stands in `k` and after it where `f` stands in `h` and after it. -/
def twinOf (h k : Heap) (f : Nat) : Nat :=
  if f < h.size then f else f - h.size + k.size

/-- A failure with the twins of what it suppresses. -/
def twinned (h k : Heap) (x : Failure) : Failure :=
  { x with suppressed := x.suppressed.map (twinOf h k) }

theorem twinOf_of_lt {h : Heap} (k : Heap) {f : FailureId} (hf : f < h.size) :
    twinOf h k f = f :=
  if_pos hf

theorem size_le_twinOf {h : Heap} (k : Heap) {f : FailureId} (hf : h.size ≤ f) :
    k.size ≤ twinOf h k f := by
  rw [twinOf, if_neg (Nat.not_lt_of_le hf)]
  exact Nat.le_add_left _ _

/-- The heap `k` has come of `h`, and the same has been done from `h`, which has led to
`h'`, and from `k`, which has led to `k'`. -/
structure Twin (h k h' k' : Heap) : Prop where
  later : h.Extends k
  first : h.Extends h'
  second : k.Extends k'
  size_eq : k'.size = twinOf h k h'.size
  get?_eq : ∀ f, k'.get? (twinOf h k f) = (h'.get? f).map (twinned h k)
  /-- Whatever is made comes from errors that refer to what was there. -/
  origin : ∀ f x, h'.get? f = some x → x.origin.All (· < h.size)

/-- Two errors are one that refers to what was there, or twins. -/
inductive TwinErrors (h k : Heap) : ErrorValue → ErrorValue → Prop where
  | same {e : ErrorValue} (he : e.All (· < h.size)) : TwinErrors h k e e
  | failure (f : FailureId) : TwinErrors h k (.failure f) (.failure (twinOf h k f))

namespace Twin

variable {h k h' k' : Heap}

theorem twinOf_inj (ht : Twin h k h' k') {f g : Nat} :
    twinOf h k f = twinOf h k g ↔ f = g := by
  have hle := ht.later.size_le
  unfold twinOf
  split <;> split <;> omega

/-- Nothing has been done yet. -/
theorem initial (hk : h.Extends k) (hh : h.Sound) : Twin h k h k where
  later := hk
  first := .refl h
  second := .refl k
  size_eq := by simp [twinOf]
  get?_eq f := by
    by_cases hf : f < h.size
    · obtain ⟨x, hx⟩ := exists_get? hf
      have hold : x.suppressed.map (twinOf h k) = x.suppressed.map id :=
        List.map_congr_left fun g hg => twinOf_of_lt k ((hh f x hx).2 g hg)
      rw [twinOf_of_lt k hf, hx, hk f x hx, Option.map_some, twinned, hold, List.map_id]
    · have hnone : h.get? f = none := Array.getElem?_eq_none (Nat.le_of_not_lt hf)
      have hnone' : k.get? (twinOf h k f) = none :=
        Array.getElem?_eq_none (size_le_twinOf k (Nat.le_of_not_lt hf))
      rw [hnone, hnone', Option.map_none]
  origin f x hx := (hh f x hx).1.mono fun g hg => Nat.lt_trans hg (lt_size_of_get? hx)

section

variable (ht : Twin h k h' k') (f : FailureId)
include ht

theorem kind_eq : k'.kind (twinOf h k f) = h'.kind f := by
  simp only [kind, ht.get?_eq f]
  cases h'.get? f <;> rfl

theorem message_eq : k'.message (twinOf h k f) = h'.message f := by
  simp only [message, ht.get?_eq f]
  cases h'.get? f <;> rfl

theorem origin_eq : k'.origin (twinOf h k f) = h'.origin f := by
  simp only [Heap.origin, ht.get?_eq f]
  cases h'.get? f <;> rfl

theorem suppressed_eq : k'.suppressed (twinOf h k f) = (h'.suppressed f).map (twinOf h k) := by
  simp only [suppressed, ht.get?_eq f]
  cases h'.get? f <;> rfl

theorem origin_lt : (h'.origin f).All (· < h.size) := by
  cases hf : h'.get? f with
  | none =>
    rw [Heap.origin, hf]
    trivial
  | some x =>
    rw [Heap.origin, hf]
    exact ht.origin f x hf

end

/-! ### What can be done to both -/

/-- Twins are made. -/
theorem alloc (ht : Twin h k h' k') {x : Failure} (hx : x.origin.All (· < h.size)) :
    (k'.alloc (twinned h k x)).1 = twinOf h k (h'.alloc x).1 ∧
      Twin h k (h'.alloc x).2 (k'.alloc (twinned h k x)).2 := by
  have hle := ht.first.size_le
  refine ⟨ht.size_eq, ht.later, ht.first.trans (extends_alloc h' x),
    ht.second.trans (extends_alloc k' _), ?_, fun f => ?_, fun f y hy => ?_⟩
  · have hsize := ht.size_eq
    rw [size_alloc, size_alloc, hsize, twinOf, twinOf, if_neg (Nat.not_lt_of_le hle),
      if_neg (Nat.not_lt_of_le (Nat.le_succ_of_le hle))]
    omega
  · rw [get?_alloc, get?_alloc, ht.size_eq]
    by_cases hf : f = h'.size
    · rw [if_pos hf, if_pos (ht.twinOf_inj.mpr hf), Option.map_some]
    · rw [if_neg hf, if_neg (fun heq => hf (ht.twinOf_inj.mp heq)), ht.get?_eq]
  · rw [get?_alloc] at hy
    split at hy
    · cases hy
      exact hx
    · exact ht.origin f y hy

/-- Twins are attached to twins that were made. -/
theorem attach (ht : Twin h k h' k') {parent : FailureId} (hp : h.size ≤ parent)
    (child : FailureId) :
    Twin h k (h'.attach parent child) (k'.attach (twinOf h k parent) (twinOf h k child)) := by
  refine ⟨ht.later, ht.first.attach hp child, ht.second.attach (size_le_twinOf k hp) _, ?_,
    fun f => ?_, fun f y hy => ?_⟩
  · rw [size_attach, size_attach, ht.size_eq]
  · rw [get?_attach, get?_attach, ht.get?_eq]
    simp only [ht.twinOf_inj, ne_eq]
    cases h'.get? f with
    | none => rfl
    | some x =>
      simp only [Option.map_some, twinned]
      split <;> simp
  · rw [get?_attach, Option.map_eq_some_iff] at hy
    obtain ⟨x, hx, rfl⟩ := hy
    have ho := ht.origin f x hx
    split <;> exact ho

/-- A step gives twins. -/
def Gives (h k : Heap) (step : Heap → FailureId → FailureId × Heap) : Prop :=
  ∀ {h' k' : Heap}, Twin h k h' k' → ∀ f,
    (step k' (twinOf h k f)).1 = twinOf h k (step h' f).1 ∧
      Twin h k (step h' f).2 (step k' (twinOf h k f)).2

theorem limitEach {step : Heap → FailureId → FailureId × Heap} (hstep : Gives h k step) :
    ∀ (fs : List FailureId) {h' k' : Heap}, Twin h k h' k' →
      (Heap.limitEach step k' (fs.map (twinOf h k))).1 =
          (Heap.limitEach step h' fs).1.map (twinOf h k) ∧
        Twin h k (Heap.limitEach step h' fs).2 (Heap.limitEach step k' (fs.map (twinOf h k))).2
  | [], _, _, ht => ⟨rfl, ht⟩
  | f :: fs, h', k', ht => by
    obtain ⟨hf, ht₁⟩ := hstep ht f
    obtain ⟨hfs, ht₂⟩ := limitEach hstep fs ht₁
    refine ⟨?_, ht₂⟩
    simp only [List.map_cons, Heap.limitEach, hf, hfs]

theorem length_suppressed_eq (ht : Twin h k h' k') (f : FailureId) :
    (k'.suppressed (twinOf h k f)).length = (h'.suppressed f).length := by
  rw [ht.suppressed_eq, List.length_map]

/-- A copy that keeps the twins is the twin of the copy. -/
theorem truncatedCopy_twinOf (ht : Twin h k h' k') (f : FailureId) (kept : List FailureId) :
    k'.truncatedCopy (twinOf h k f) (kept.map (twinOf h k)) =
      twinned h k (h'.truncatedCopy f kept) := by
  simp only [truncatedCopy, twinned, ht.message_eq, ht.origin_eq]

theorem limitWithin (limit : Nat) : ∀ levels : Nat, Gives h k (Heap.limitWithin limit levels) := by
  intro levels
  induction levels with
  | zero =>
    intro h' k' ht f
    unfold Heap.limitWithin
    rw [ht.length_suppressed_eq]
    split
    · exact ⟨rfl, ht⟩
    · have hcopy := ht.truncatedCopy_twinOf f []
      rw [List.map_nil] at hcopy
      rw [hcopy]
      exact ht.alloc (ht.origin_lt f)
  | succ levels ih =>
    intro h' k' ht f
    unfold Heap.limitWithin
    rw [ht.length_suppressed_eq]
    split
    · exact ⟨rfl, ht⟩
    · obtain ⟨hkept, ht₁⟩ := limitEach ih ((h'.suppressed f).take limit) ht
      rw [ht.suppressed_eq, ← List.map_take]
      simp only [hkept, ht.truncatedCopy_twinOf]
      exact ht₁.alloc (ht.origin_lt f)

/-- **Limiting twins gives twins.** -/
theorem limit (limit : Nat) : Gives h k fun h f => Heap.limit h limit f :=
  limitWithin limit limit

/-- **The failures of twin errors are twins.** -/
theorem ofError (ht : Twin h k h' k') {e e' : ErrorValue} (he : TwinErrors h k e e') :
    (k'.ofError e').1 = twinOf h k (h'.ofError e).1 ∧
      Twin h k (h'.ofError e).2 (k'.ofError e').2 := by
  cases he with
  | failure f => exact ⟨rfl, ht⟩
  | same he =>
    unfold Heap.ofError
    cases hf : e.failure? with
    | some f => exact ⟨(twinOf_of_lt k (he.failure? hf)).symm, ht⟩
    | none =>
      have hdisplay : e.display k' = e.display h' := display_congr <| he.mono fun g hg => by
        have hmessage := ht.message_eq g
        rwa [twinOf_of_lt k hg] at hmessage
      show (k'.wrap e).1 = _ ∧ _
      unfold wrap
      rw [hdisplay]
      exact ht.alloc (x := { message := e.display h', origin := .wrapped e }) he

/-! ### What is shown of twins -/

section

variable (ht : Twin h k h' k') (hh : h.Sound) (hh' : h'.Sound) (hk' : k'.Sound)
include ht hh hh' hk'

theorem causes_eq (f : FailureId) : k'.causes (twinOf h k f) = h'.causes f := by
  have hold : ∀ g, g < h.size →
      k'.message g = h'.message g ∧ k'.causes g = h'.causes g := fun g hg => by
    have hext := ht.later.trans ht.second
    rw [hext.message_eq hg, ht.first.message_eq hg, hext.causes_eq hh hg, ht.first.causes_eq hh hg]
    exact ⟨rfl, rfl⟩
  rw [Heap.causes_eq hk', Heap.causes_eq hh', ht.origin_eq]
  exact causesWith_congr ((ht.origin_lt f).mono hold)

theorem reportWithin_eq : ∀ (levels : Nat) (f : FailureId),
    k'.reportWithin levels (twinOf h k f) = h'.reportWithin levels f
  | 0, f => by
    simp only [reportWithin, ht.kind_eq, ht.message_eq, ht.causes_eq hh hh' hk', ht.suppressed_eq,
      List.isEmpty_map]
  | levels + 1, f => by
    have hsuppressed : (k'.suppressed (twinOf h k f)).map (k'.reportWithin levels) =
        (h'.suppressed f).map (h'.reportWithin levels) := by
      rw [ht.suppressed_eq, List.map_map]
      exact List.map_congr_left fun g _ => reportWithin_eq levels g
    simp only [reportWithin, ht.kind_eq, ht.message_eq, ht.causes_eq hh hh' hk', hsuppressed]

/-- **Twins have the same report.** -/
theorem report_eq (f : FailureId) : k'.report (twinOf h k f) = h'.report f :=
  ht.reportWithin_eq hh hh' hk' depthLimit f

end

end Twin
end Heap
end Teardown
