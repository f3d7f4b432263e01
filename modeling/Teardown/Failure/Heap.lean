/-
# Failures and the heap that holds them

A failure has a kind, a message and an origin, all fixed when it is made, and
a list of suppressed failures that grows. Failures are shared: what is handed
around is an identity, and the heap says what stands behind it. Identities are
given out in order and never again, so the failures an origin refers to are
always older than the failure itself; the suppressed lists may form any graph.

Key definitions: `Failure`, `Heap`, `Heap.alloc`, `Heap.attach`.
-/
import Teardown.Failure.Error
import Teardown.Failure.Kind

namespace Teardown

/-- The identity of a failure: its place in the heap. -/
abbrev FailureId := Nat

/-- An error value of a running program. -/
abbrev ErrorValue := ErrorOf FailureId

/-- An I/O error of a running program. -/
abbrev IoError := IoErrorOf FailureId

/-- Where a failure comes from. -/
inductive Origin where
  | none
  /-- The failure stands in for the error: same message, and its source is
  the error's source. -/
  | wrapped (error : ErrorValue)
  /-- The error is the failure's source. -/
  | cause (error : ErrorValue)
  deriving DecidableEq, Repr

/-- The error an origin holds. -/
def Origin.error? : Origin → Option ErrorValue
  | .none => Option.none
  | .wrapped e => some e
  | .cause e => some e

/-- A failure as it stands in the heap. -/
structure Failure where
  kind : FailureKind := .error
  message : String
  origin : Origin := .none
  suppressed : List FailureId := []
  deriving DecidableEq, Repr

/-- All failures made so far, oldest first. -/
structure Heap where
  failures : Array Failure := #[]
  deriving DecidableEq, Repr

namespace Heap

def size (h : Heap) : Nat := h.failures.size

/-- The failure behind an identity. -/
def get? (h : Heap) (f : FailureId) : Option Failure := h.failures[f]?

/-! ### What can be asked of a failure

An identity that was never given out has the answers of an empty failure. -/

def kind (h : Heap) (f : FailureId) : FailureKind :=
  ((h.get? f).map (·.kind)).getD .error

def message (h : Heap) (f : FailureId) : String :=
  ((h.get? f).map (·.message)).getD ""

def origin (h : Heap) (f : FailureId) : Origin :=
  ((h.get? f).map (·.origin)).getD .none

/-- The failures suppressed by `f`, in the order they were attached. -/
def suppressed (h : Heap) (f : FailureId) : List FailureId :=
  ((h.get? f).map (·.suppressed)).getD []

/-! ### What can be done to the heap -/

/-- Makes a failure with an identity of its own. -/
def alloc (h : Heap) (failure : Failure) : FailureId × Heap :=
  (h.size, ⟨h.failures.push failure⟩)

/-- Attaches `child` to `parent` as its last suppressed failure. Attaching a
failure to itself is ignored. -/
def attach (h : Heap) (parent child : FailureId) : Heap :=
  if parent = child then h
  else ⟨h.failures.modify parent fun f => { f with suppressed := f.suppressed ++ [child] }⟩

/-! ### What an operation leaves in place -/

theorem get?_alloc (h : Heap) (failure : Failure) (f : FailureId) :
    (h.alloc failure).2.get? f = if f = h.size then some failure else h.get? f := by
  simp only [alloc, get?, size, Array.getElem?_push]
  rfl

theorem suppressed_alloc (h : Heap) (failure : Failure) (f : FailureId) :
    (h.alloc failure).2.suppressed f = if f = h.size then failure.suppressed else h.suppressed f := by
  simp only [suppressed, get?_alloc]
  split <;> rfl

theorem size_alloc (h : Heap) (failure : Failure) : (h.alloc failure).2.size = h.size + 1 := by
  simp [alloc, size]

theorem size_attach (h : Heap) (parent child : FailureId) :
    (h.attach parent child).size = h.size := by
  unfold attach
  split <;> simp [size]

theorem get?_attach (h : Heap) (parent child f : FailureId) :
    (h.attach parent child).get? f = (h.get? f).map fun x =>
      if f = parent ∧ parent ≠ child then { x with suppressed := x.suppressed ++ [child] } else x := by
  unfold attach
  by_cases hpc : parent = child
  · simp [hpc]
  · simp only [if_neg hpc, get?, Array.getElem?_modify]
    by_cases hf : f = parent
    · simp [hf, hpc]
    · simp [hf, Ne.symm hf]

/-- A failure is never attached to itself. -/
theorem attach_self (h : Heap) (f : FailureId) : h.attach f f = h := by
  simp [attach]

/-- Attaching changes one suppressed list, at its end. -/
theorem suppressed_attach {h : Heap} {parent child : FailureId} (hp : parent < h.size)
    (hne : parent ≠ child) (f : FailureId) :
    (h.attach parent child).suppressed f =
      if f = parent then h.suppressed f ++ [child] else h.suppressed f := by
  simp only [suppressed, get?_attach]
  by_cases hf : f = parent
  · subst hf
    have : ∃ x, h.get? f = some x := by
      simp only [get?]
      exact ⟨_, Array.getElem?_eq_getElem hp⟩
    obtain ⟨x, hx⟩ := this
    simp [hx, hne]
  · cases h.get? f <;> simp [hf]

theorem get?_attach_of_ne (h : Heap) {parent f : FailureId} (child : FailureId)
    (hf : f ≠ parent) : (h.attach parent child).get? f = h.get? f := by
  rw [get?_attach]
  cases h.get? f <;> simp [hf]

theorem lt_size_of_get? {h : Heap} {f : FailureId} {x : Failure} (hx : h.get? f = some x) :
    f < h.size := by
  obtain ⟨hf, -⟩ := Array.getElem?_eq_some_iff.mp hx
  exact hf

theorem exists_get? {h : Heap} {f : FailureId} (hf : f < h.size) : ∃ x, h.get? f = some x :=
  ⟨h.failures[f], Array.getElem?_eq_getElem hf⟩

theorem suppressed_of_get? {h : Heap} {f : FailureId} {x : Failure} (hx : h.get? f = some x) :
    h.suppressed f = x.suppressed := by
  simp [suppressed, hx]

/-! ### Growth -/

/-- `h'` holds what `h` holds, unchanged, and maybe more. -/
def Extends (h h' : Heap) : Prop := ∀ f x, h.get? f = some x → h'.get? f = some x

theorem Extends.refl (h : Heap) : h.Extends h := fun _ _ hx => hx

theorem Extends.trans {h₁ h₂ h₃ : Heap} (h₁₂ : h₁.Extends h₂) (h₂₃ : h₂.Extends h₃) :
    h₁.Extends h₃ :=
  fun f x hx => h₂₃ f x (h₁₂ f x hx)

theorem Extends.size_le {h h' : Heap} (he : h.Extends h') : h.size ≤ h'.size := by
  refine Nat.le_of_not_lt fun hlt => ?_
  obtain ⟨x, hx⟩ := exists_get? hlt
  exact Nat.lt_irrefl _ (lt_size_of_get? (he _ _ hx))

theorem Extends.get?_eq {h h' : Heap} (he : h.Extends h') {f : FailureId} (hf : f < h.size) :
    h'.get? f = h.get? f := by
  obtain ⟨x, hx⟩ := exists_get? hf
  rw [hx, he f x hx]

theorem Extends.suppressed_eq {h h' : Heap} (he : h.Extends h') {f : FailureId}
    (hf : f < h.size) : h'.suppressed f = h.suppressed f := by
  simp [suppressed, he.get?_eq hf]

theorem extends_alloc (h : Heap) (failure : Failure) : h.Extends (h.alloc failure).2 := by
  intro f x hx
  rw [get?_alloc, if_neg (Nat.ne_of_lt (lt_size_of_get? hx)), hx]

end Heap
end Teardown
