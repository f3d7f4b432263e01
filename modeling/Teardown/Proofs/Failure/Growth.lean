/-
# How the heap grows

Failures are made and attached to each other, and nothing else happens to them.
A failure that is made refers only to failures that exist: in its origin, and in
what it suppresses at first. `Heap.Grows` says that one heap comes of another in
this way, and what every heap that grew has follows by its cases: origins refer
to older failures only (`Heap.Grows.sound`), and what a failure was made with
stays as it is, but for what is attached to it (`Heap.Grows.kept`).

Key definitions: `ErrorOf.All`, `Heap.Sound`, `Heap.Grows`, `Heap.Yields`.
Key theorems: `Heap.Grows.sound`, `Heap.Grows.kept`, `Heap.yields_limit`.
-/
import Teardown.Act

namespace Teardown

/-! ### What refers to failures -/

section

variable {φ ψ ε : Type} {P Q : φ → Prop}

/-- `P` holds of the failure that an I/O error stands for, if it does for one. -/
def IoDetail.All (P : φ → Prop) : IoDetail φ → Prop
  | .failure f => P f
  | _ => True

namespace ErrorOf

/-- `P` holds of every failure that an error refers to. -/
def All (P : φ → Prop) : ErrorOf φ → Prop
  | .message _ => True
  | .io e => e.detail.All P
  | .login _ => True
  | .failure f => P f
  | .context _ below => below.All P
  | .contextFailure f below => P f ∧ below.All P

theorem All.mono (hPQ : ∀ f, P f → Q f) : ∀ {e : ErrorOf φ}, e.All P → e.All Q
  | .message _, _ => trivial
  | .io ⟨_, .standard⟩, _ => trivial
  | .io ⟨_, .text _⟩, _ => trivial
  | .io ⟨_, .failure f⟩, h => hPQ f h
  | .login _, _ => trivial
  | .failure f, h => hPQ f h
  | .context _ below, h => All.mono (e := below) hPQ h
  | .contextFailure f below, h => ⟨hPQ f h.1, All.mono (e := below) hPQ h.2⟩

theorem all_of_forall (hP : ∀ f, P f) : ∀ {e : ErrorOf φ}, e.All P
  | .message _ => trivial
  | .io ⟨_, .standard⟩ => trivial
  | .io ⟨_, .text _⟩ => trivial
  | .io ⟨_, .failure f⟩ => hP f
  | .login _ => trivial
  | .failure f => hP f
  | .context _ below => all_of_forall (e := below) hP
  | .contextFailure f below => ⟨hP f, all_of_forall (e := below) hP⟩

/-- What can be found in an error is referred to by it. -/
theorem All.failure? {f : φ} : ∀ {e : ErrorOf φ}, e.All P → e.failure? = some f → P f
  | .message _, _, hf => by simp [ErrorOf.failure?, find?, Found.failure?] at hf
  | .io _, _, hf => by simp [ErrorOf.failure?, find?, Found.failure?] at hf
  | .login _, _, hf => by simp [ErrorOf.failure?, find?, Found.failure?] at hf
  | .failure _, h, hf => by
    cases hf
    exact h
  | .context _ below, h, hf =>
    All.failure? (e := below) h (by simpa [ErrorOf.failure?, find?, Found.failure?] using hf)
  | .contextFailure _ _, h, hf => by
    cases hf
    exact h.1

end ErrorOf

/-- What goes on after a value that can fail gives something only if both do. -/
theorem ok_of_bind {α β : Type} {x : Except ε α} {k : α → Except ε β} {b : β}
    (h : x >>= k = .ok b) : ∃ a, x = .ok a ∧ k a = .ok b := by
  cases x with
  | error e => cases h
  | ok a => exact ⟨a, rfl, h⟩

/-- What the references are replaced by is what the error then refers to. -/
theorem ErrorOf.all_of_traverse {g : ψ → Except ε φ} (hg : ∀ a b, g a = .ok b → P b) :
    ∀ {e : ErrorOf ψ} {e' : ErrorOf φ}, e.traverse g = .ok e' → e'.All P
  | .message _, _, h => by
    cases h
    trivial
  | .io ⟨_, .standard⟩, _, h => by
    cases h
    trivial
  | .io ⟨_, .text _⟩, _, h => by
    cases h
    trivial
  | .io ⟨_, .failure f⟩, _, h => by
    obtain ⟨f', hf, hf'⟩ := ok_of_bind h
    cases hf'
    exact hg f f' hf
  | .login _, _, h => by
    cases h
    trivial
  | .failure f, _, h => by
    obtain ⟨f', hf, hf'⟩ := ok_of_bind h
    cases hf'
    exact hg f f' hf
  | .context _ below, _, h => by
    obtain ⟨below', hb, hb'⟩ := ok_of_bind h
    cases hb'
    show below'.All P
    exact all_of_traverse hg hb
  | .contextFailure f below, _, h => by
    obtain ⟨below', hb, h⟩ := ok_of_bind h
    obtain ⟨f', hf, hf'⟩ := ok_of_bind h
    cases hf'
    exact ⟨hg f f' hf, all_of_traverse hg hb⟩

/-- `P` holds of the failure that a panic carries, if it carries one. -/
def PayloadOf.All (P : φ → Prop) : PayloadOf φ → Prop
  | .failure f => P f
  | _ => True

theorem PayloadOf.All.mono (hPQ : ∀ f, P f → Q f) : ∀ {p : PayloadOf φ}, p.All P → p.All Q
  | .text _, _ => trivial
  | .failure f, h => hPQ f h
  | .other, _ => trivial

theorem PayloadOf.all_of_traverse {g : ψ → Except ε φ} (hg : ∀ a b, g a = .ok b → P b) :
    ∀ {p : PayloadOf ψ} {p' : PayloadOf φ}, p.traverse g = .ok p' → p'.All P
  | .text _, _, h => by
    cases h
    trivial
  | .failure f, _, h => by
    obtain ⟨f', hf, hf'⟩ := ok_of_bind h
    cases hf'
    exact hg f f' hf
  | .other, _, h => by
    cases h
    trivial

end

/-- `P` holds of every failure that an origin refers to. -/
def Origin.All (P : FailureId → Prop) : Origin → Prop
  | .none => True
  | .wrapped e => e.All P
  | .cause e => e.All P

theorem Origin.All.mono {P Q : FailureId → Prop} (hPQ : ∀ f, P f → Q f) :
    ∀ {o : Origin}, o.All P → o.All Q
  | .none, _ => trivial
  | .wrapped _, h => ErrorOf.All.mono hPQ h
  | .cause _, h => ErrorOf.All.mono hPQ h

namespace Heap

/-! ### Growth -/

/-- Origins refer to older failures, and what is suppressed exists. -/
def Sound (h : Heap) : Prop :=
  ∀ f x, h.get? f = some x → x.origin.All (· < f) ∧ ∀ g ∈ x.suppressed, g < h.size

/-- `h'` comes of `h` by making failures and attaching failures to others. -/
inductive Grows (h : Heap) : Heap → Prop where
  | refl : Grows h h
  /-- A failure is made that refers to failures which exist. -/
  | alloc {k : Heap} (hk : Grows h k) {x : Failure} (ho : x.origin.All (· < k.size))
      (hs : ∀ g ∈ x.suppressed, g < k.size) : Grows h (k.alloc x).2
  /-- A failure that exists is attached to another. -/
  | attach {k : Heap} (hk : Grows h k) (parent : FailureId) {child : FailureId}
      (hc : child < k.size) : Grows h (k.attach parent child)

theorem sound_empty : Sound {} := fun f x hx => by simp [get?] at hx

theorem Sound.origin {h : Heap} (hh : h.Sound) (f : FailureId) : (h.origin f).All (· < f) := by
  cases hf : h.get? f with
  | none =>
    rw [Heap.origin, hf]
    trivial
  | some x =>
    rw [Heap.origin, hf]
    exact (hh f x hf).1

theorem Sound.suppressed {h : Heap} (hh : h.Sound) {f g : FailureId}
    (hg : g ∈ h.suppressed f) : g < h.size := by
  cases hf : h.get? f with
  | none => simp [Heap.suppressed, hf] at hg
  | some x =>
    rw [suppressed_of_get? hf] at hg
    exact (hh f x hf).2 g hg

/-- A failure that exists has an origin that refers to failures which exist. -/
theorem Sound.origin_lt_size {h : Heap} (hh : h.Sound) (f : FailureId) :
    (h.origin f).All (· < h.size) := by
  cases hf : h.get? f with
  | none =>
    rw [Heap.origin, hf]
    trivial
  | some x =>
    exact (hh.origin f).mono fun g hg => Nat.lt_trans hg (lt_size_of_get? hf)

/-- A failure that is found in the error which a failure comes from exists. -/
theorem Sound.lt_of_find? {h : Heap} (hh : h.Sound) {f g : FailureId}
    (hg : h.find? Found.failure? f = some g) : g < h.size := by
  have ho := hh.origin_lt_size f
  unfold Heap.find? at hg
  cases horigin : h.origin f with
  | none =>
    rw [horigin] at hg
    cases hg
  | wrapped e =>
    rw [horigin] at hg ho
    have he : e.All (· < h.size) := ho
    exact he.failure? hg
  | cause e =>
    rw [horigin] at hg ho
    have he : e.All (· < h.size) := ho
    exact he.failure? hg

namespace Grows

variable {h h₁ h₂ : Heap}

theorem trans (h₁₂ : h.Grows h₁) (h₂₃ : h₁.Grows h₂) : h.Grows h₂ := by
  induction h₂₃ with
  | refl => exact h₁₂
  | alloc _ ho hs ih => exact ih.alloc ho hs
  | attach _ parent hc ih => exact ih.attach parent hc

theorem size_le (hg : h.Grows h₁) : h.size ≤ h₁.size := by
  induction hg with
  | refl => exact Nat.le_refl _
  | alloc _ _ _ ih =>
    rw [size_alloc]
    exact Nat.le_succ_of_le ih
  | attach _ _ _ ih =>
    rw [size_attach]
    exact ih

/-- **Origins refer to older failures, whatever is done.** -/
theorem sound (hg : h.Grows h₁) (hh : h.Sound) : h₁.Sound := by
  induction hg with
  | refl => exact hh
  | @alloc k _ x ho hs ih =>
    intro f y hy
    rw [get?_alloc] at hy
    rw [size_alloc]
    split at hy
    · -- the failure that is made
      rename_i hf
      cases hy
      exact ⟨hf ▸ ho, fun g hg => Nat.lt_succ_of_lt (hs g hg)⟩
    · exact ⟨(ih f y hy).1, fun g hg => Nat.lt_succ_of_lt ((ih f y hy).2 g hg)⟩
  | @attach k _ parent child hc ih =>
    intro f y hy
    rw [get?_attach, Option.map_eq_some_iff] at hy
    obtain ⟨x, hx, rfl⟩ := hy
    rw [size_attach]
    obtain ⟨ho, hs⟩ := ih f x hx
    split
    · refine ⟨ho, fun g hg => ?_⟩
      rcases List.mem_append.mp hg with hg | hg
      · exact hs g hg
      · exact List.mem_singleton.mp hg ▸ hc
    · exact ⟨ho, hs⟩

/-- **A failure stays as it was made, but for what is attached to it.** -/
theorem kept (hg : h.Grows h₁) {f : FailureId} {x : Failure} (hx : h.get? f = some x) :
    ∃ more, h₁.get? f = some { x with suppressed := x.suppressed ++ more } := by
  induction hg with
  | refl => exact ⟨[], by simp [hx]⟩
  | @alloc k hk y _ _ ih =>
    obtain ⟨more, hmore⟩ := ih
    refine ⟨more, ?_⟩
    rw [get?_alloc, if_neg (Nat.ne_of_lt (lt_size_of_get? hmore)), hmore]
  | @attach k hk parent child _ ih =>
    obtain ⟨more, hmore⟩ := ih
    rw [get?_attach, hmore]
    by_cases hp : f = parent ∧ parent ≠ child
    · exact ⟨more ++ [child], by simp [hp]⟩
    · exact ⟨more, by simp only [Option.map_some, if_neg hp]⟩

theorem origin_eq (hg : h.Grows h₁) {f : FailureId} (hf : f < h.size) :
    h₁.origin f = h.origin f := by
  obtain ⟨x, hx⟩ := exists_get? hf
  obtain ⟨more, hmore⟩ := hg.kept hx
  simp [Heap.origin, hx, hmore]

theorem message_eq (hg : h.Grows h₁) {f : FailureId} (hf : f < h.size) :
    h₁.message f = h.message f := by
  obtain ⟨x, hx⟩ := exists_get? hf
  obtain ⟨more, hmore⟩ := hg.kept hx
  simp [Heap.message, hx, hmore]

end Grows

/-! ### What makes a failure -/

/-- Something gives a failure that exists in the heap it leaves, which has only
grown. -/
def Yields (h : Heap) (r : FailureId × Heap) : Prop := h.Grows r.2 ∧ r.1 < r.2.size

variable {h : Heap}

theorem yields_self {f : FailureId} (hf : f < h.size) : h.Yields (f, h) := ⟨.refl, hf⟩

theorem yields_alloc {x : Failure} (ho : x.origin.All (· < h.size))
    (hs : ∀ g ∈ x.suppressed, g < h.size) : h.Yields (h.alloc x) := by
  refine ⟨Grows.refl.alloc ho hs, ?_⟩
  rw [size_alloc]
  exact Nat.lt_succ_self _

/-- A failure without an origin that suppresses nothing can always be made. -/
theorem yields_new (kind : FailureKind) (message : String) :
    h.Yields (h.alloc { kind, message }) :=
  yields_alloc trivial (by simp)

theorem Yields.trans {h₁ : Heap} {r : FailureId × Heap} (hg : h.Grows h₁) (hr : h₁.Yields r) :
    h.Yields r :=
  ⟨hg.trans hr.1, hr.2⟩

theorem yields_wrap {e : ErrorValue} (he : e.All (· < h.size)) : h.Yields (h.wrap e) :=
  yields_alloc he (by simp)

theorem yields_causedBy (message : String) {e : ErrorValue} (he : e.All (· < h.size)) :
    h.Yields (h.causedBy message e) :=
  yields_alloc he (by simp)

theorem yields_ofError {e : ErrorValue} (he : e.All (· < h.size)) : h.Yields (h.ofError e) := by
  unfold ofError
  split
  · rename_i f hf
    exact yields_self (he.failure? hf)
  · exact yields_wrap he

theorem yields_ofPanic {p : Payload} (hp : p.All (· < h.size)) : h.Yields (h.ofPanic p) := by
  cases p with
  | text s => exact yields_new .panic s
  | failure f => exact yields_self hp
  | other => exact yields_new .panic otherPayloadMessage

/-! ### Limiting -/

theorem yields_limitEach {step : Heap → FailureId → FailureId × Heap}
    (hstep : ∀ (k : Heap) (f : FailureId), k.Sound → f < k.size → k.Yields (step k f)) :
    ∀ (fs : List FailureId) (k : Heap), k.Sound → (∀ f ∈ fs, f < k.size) →
      k.Grows (limitEach step k fs).2 ∧
        ∀ g ∈ (limitEach step k fs).1, g < (limitEach step k fs).2.size
  | [], k, _, _ => ⟨.refl, by simp [limitEach]⟩
  | f :: fs, k, hk, hfs => by
    obtain ⟨hfirst, hlt⟩ := hstep k f hk (hfs f (List.mem_cons_self ..))
    obtain ⟨hrest, hall⟩ := yields_limitEach hstep fs (step k f).2 (hfirst.sound hk)
      fun g hg => Nat.lt_of_lt_of_le (hfs g (List.mem_cons_of_mem _ hg)) hfirst.size_le
    refine ⟨hfirst.trans hrest, fun g hg => ?_⟩
    rcases List.mem_cons.mp hg with rfl | hg
    · exact Nat.lt_of_lt_of_le hlt hrest.size_le
    · exact hall g hg

theorem yields_limitWithin (limit : Nat) : ∀ (levels : Nat) (k : Heap) (f : FailureId),
    k.Sound → f < k.size → k.Yields (limitWithin limit levels k f) := by
  intro levels
  induction levels with
  | zero =>
    intro k f hk hf
    unfold limitWithin
    split
    · exact yields_self hf
    · exact yields_alloc (hk.origin_lt_size f) (by simp [truncatedCopy])
  | succ levels ih =>
    intro k f hk hf
    unfold limitWithin
    split
    · exact yields_self hf
    · obtain ⟨hgrown, hkept⟩ := yields_limitEach ih ((k.suppressed f).take limit) k hk
        fun g hg => hk.suppressed (List.mem_of_mem_take hg)
      refine Yields.trans hgrown (yields_alloc ?_ hkept)
      exact (hk.origin_lt_size f).mono fun g hg => Nat.lt_of_lt_of_le hg hgrown.size_le

/-- **Limiting only makes failures.** -/
theorem yields_limit (hh : h.Sound) (limit : Nat) {f : FailureId} (hf : f < h.size) :
    h.Yields (h.limit limit f) :=
  yields_limitWithin limit limit h f hh hf

end Heap
end Teardown
