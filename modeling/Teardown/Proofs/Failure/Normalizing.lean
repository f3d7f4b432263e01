/-
# What an error becomes

An error is searched along its spine, outermost value first. The failure of an
error is the first one on the spine, the same object again, however many contexts
lie over it. If there is none, a failure is made that stands in for the error: it
shows what the error shows, in one line and along its sources, and what is found in
it is what is found on the error's spine (`failure_of_error`). The spine decides on
what is found, and not the sources: an I/O error that stands for a failure goes on
with that failure's sources, but the failure cannot be found in it.

Key theorems: `ErrorOf.find?_eq_findSome?`, `Heap.find?_wrap`, `Heap.walk_wrap`,
`failure_of_error`.
-/
import Teardown.Proofs.Failure.Causes

namespace Teardown

/-- What is found in an error is the first value on its spine that is accepted. -/
theorem ErrorOf.find?_eq_findSome? {φ α : Type} (pick : Found φ → Option α) (e : ErrorOf φ) :
    e.find? pick = e.spine.findSome? pick := by
  induction e with
  | message s => simp [find?, spine]
  | io e => simp [find?, spine]
  | login e => simp [find?, spine]
  | failure f => simp [find?, spine]
  | context s below ih =>
    rw [find?, spine, List.findSome?_cons, ih]
    cases pick (.text s) <;> rfl
  | contextFailure f below ih =>
    rw [find?, spine, List.findSome?_cons, ih]
    cases pick (.failure f) <;> rfl

namespace Heap

variable {h : Heap} {e : ErrorValue}

/-- The first failure on the spine is given again. -/
theorem ofError_of_findSome? {f : FailureId} (hf : e.spine.findSome? Found.failure? = some f) :
    h.ofError e = (f, h) := by
  rw [← ErrorOf.find?_eq_findSome?] at hf
  rw [ofError, ErrorOf.failure?, hf]

/-- An error without a failure on its spine gets one that stands in for it. -/
theorem ofError_of_forall (hnone : ∀ v ∈ e.spine, v.failure? = none) :
    h.ofError e = h.wrap e := by
  have hfind : e.find? Found.failure? = none := by
    rw [ErrorOf.find?_eq_findSome?]
    exact List.findSome?_eq_none_iff.mpr hnone
  rw [ofError, ErrorOf.failure?, hfind]

theorem get?_wrap (h : Heap) (e : ErrorValue) :
    (h.wrap e).2.get? (h.wrap e).1 = some { message := e.display h, origin := .wrapped e } := by
  rw [wrap, get?_alloc]
  exact if_pos rfl

/-- What stands in for an error has the same values in it. -/
theorem find?_wrap {α : Type} (h : Heap) (e : ErrorValue) (pick : Found FailureId → Option α) :
    (h.wrap e).2.find? pick (h.wrap e).1 = e.spine.findSome? pick := by
  have horigin : (h.wrap e).2.origin (h.wrap e).1 = .wrapped e := by
    rw [Heap.origin, get?_wrap]
    rfl
  rw [find?, horigin, ← ErrorOf.find?_eq_findSome?]
  rfl

/-- What stands in for an error shows the error's own line, and the walk along its
sources is the error's. -/
theorem walk_wrap (hh : h.Sound) (he : e.All (· < h.size)) :
    ∃ lines, (h.wrap e).2.Walk (.ofFailure (h.wrap e).1) lines ∧
      h.Walk (.reached e) ((h.wrap e).2.message (h.wrap e).1 :: lines) := by
  have hmessage : (h.wrap e).2.message (h.wrap e).1 = e.display h := by
    rw [message, get?_wrap]
    rfl
  refine ⟨(h.wrap e).2.causes (h.wrap e).1, walk_causes ((yields_wrap he).1.sound hh) _, ?_⟩
  rw [hmessage, causes_wrap hh he]
  exact walk_chain hh e

end Heap

/-- **What an error becomes.** If there is a failure on the spine of an error, the
first one is the error's failure, and nothing is made. Otherwise one failure is made,
and nothing else changes: an error failure that suppresses nothing, whose message,
followed by what the walk along its sources shows, is what the error shows, followed
by what the walk along the error's own sources shows. Whatever is looked for in it,
what is found is the first such value on the error's spine. -/
theorem failure_of_error (h : Heap) (hh : h.Sound) (e : ErrorValue) (he : e.All (· < h.size)) :
    let f := (h.ofError e).1
    let k := (h.ofError e).2
    (∀ g, e.spine.findSome? Found.failure? = some g → f = g ∧ k = h) ∧
    ((∀ v ∈ e.spine, v.failure? = none) →
      f = h.size ∧ k.size = h.size + 1 ∧ h.Extends k ∧
      k.kind f = .error ∧ k.suppressed f = [] ∧
      (∃ lines, k.Walk (.ofFailure f) lines ∧ h.Walk (.reached e) (k.message f :: lines)) ∧
      ∀ (α : Type) (pick : Found FailureId → Option α),
        k.find? pick f = e.spine.findSome? pick) := by
  intro f k
  refine ⟨fun g hg => ?_, fun hnone => ?_⟩
  · have hgiven : h.ofError e = (g, h) := Heap.ofError_of_findSome? hg
    exact ⟨congrArg Prod.fst hgiven, congrArg Prod.snd hgiven⟩
  · have hmade : h.ofError e = h.wrap e := Heap.ofError_of_forall hnone
    have hf : f = (h.wrap e).1 := congrArg Prod.fst hmade
    have hk : k = (h.wrap e).2 := congrArg Prod.snd hmade
    rw [hf, hk]
    refine ⟨rfl, h.size_alloc _, h.extends_alloc _, ?_, ?_, Heap.walk_wrap hh he,
      fun _ pick => h.find?_wrap e pick⟩
    · rw [Heap.kind, h.get?_wrap]
      rfl
    · rw [Heap.suppressed_of_get? (h.get?_wrap e)]

/-- A failure, and one that it has caused. -/
def caused : Heap := ⟨#[{ message := "a" }, { message := "b", origin := .cause (.failure 0) }]⟩

theorem sound_caused : caused.Sound := by
  intro f x hx
  match f with
  | 0 =>
    cases hx
    exact ⟨trivial, by decide⟩
  | 1 =>
    cases hx
    exact ⟨Nat.zero_lt_one, by decide⟩
  | f + 2 => simp [Heap.get?, caused] at hx

/-- Of two failures on the spine the outer one is taken. An I/O error that stands for
a failure hides it: what is made has its sources, and no failure can be found in it. -/
theorem failure_of_error_hidden :
    let shown : ErrorValue := .context "c" (.contextFailure 1 (.failure 0))
    let hidden : ErrorValue := .context "c" (.io ⟨.timedOut, .failure 1⟩)
    let k := (caused.ofError hidden).2
    caused.Sound ∧ shown.All (· < caused.size) ∧ hidden.All (· < caused.size) ∧
      caused.ofError shown = (1, caused) ∧ (caused.ofError hidden).1 = 2 ∧
      k.message 2 = "c" ∧ k.Walk (.ofFailure 2) ["b", "a"] ∧
      k.find? Found.failure? 2 = none ∧ k.find? Found.text? 2 = some "c" ∧
      k.find? Found.io? 2 = some ⟨.timedOut, .failure 1⟩ := by
  intro shown hidden k
  have hshown : shown.All (· < caused.size) := ⟨Nat.one_lt_two, Nat.zero_lt_two⟩
  have hhidden : hidden.All (· < caused.size) := Nat.one_lt_two
  obtain ⟨hgiven, -⟩ := failure_of_error caused sound_caused shown hshown
  obtain ⟨hf, hk⟩ := hgiven 1 (by decide)
  obtain ⟨-, hmade⟩ := failure_of_error caused sound_caused hidden hhidden
  obtain ⟨hnew, -, -, -, -, ⟨lines, hwalk, herror⟩, hfound⟩ := hmade (by decide)
  have hchain := (Heap.walk_iff_chain sound_caused).mp herror
  obtain ⟨hmessage, hlines⟩ := List.cons.inj (hchain.trans
    (show hidden.chain caused = ["c", "b", "a"] by decide +kernel))
  rw [hnew] at hmessage hwalk hfound
  exact ⟨sound_caused, hshown, hhidden, Prod.ext hf hk, hnew, hmessage, hlines ▸ hwalk,
    hfound _ _, hfound _ _, hfound _ _⟩

end Teardown
