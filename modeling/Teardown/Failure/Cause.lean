/-
# Causes

Every error is shown in one line and may go on with a source. The causes of a
failure are the lines of the errors along its sources. A failure's origin
refers only to older failures, so the walk ends: `Heap.causesBelow n` follows
failures older than `n` only, and what it needs of a failure it asks of the
walk one step further down.

Key definitions: `ErrorOf.display`, `ErrorOf.sources`, `ErrorOf.chain`,
`Heap.causes`, `Heap.wrap`, `Heap.causedBy`, `Heap.ofError`.
-/
import Teardown.Failure.Heap

namespace Teardown

/-- An I/O error in one line. -/
def IoErrorOf.display (h : Heap) (e : IoError) : String :=
  match e.detail with
  | .standard => e.kind.standardText
  | .text s => s
  | .failure f => h.message f

/-- An error in one line: of a context, the context alone. -/
def ErrorOf.display (h : Heap) : ErrorValue → String
  | .message s => s
  | .io e => e.display h
  | .login e => e.display
  | .failure f => h.message f
  | .context s _ => s
  | .contextFailure f _ => h.message f

/-- The lines of the errors along an error's sources, where `under` gives
those along a failure's. -/
def ErrorOf.sourcesWith (h : Heap) (under : FailureId → List String) : ErrorValue → List String
  | .message _ => []
  | .io e =>
      match e.detail with
      | .failure f => under f
      | _ => []
  | .login _ => []
  | .failure f => under f
  | .context _ below => below.display h :: below.sourcesWith h under
  | .contextFailure _ below => below.display h :: below.sourcesWith h under

/-- The lines along a failure's sources, by its origin. -/
def Origin.causesWith (h : Heap) (under : FailureId → List String) : Origin → List String
  | .none => []
  | .wrapped e => e.sourcesWith h under
  | .cause e => e.display h :: e.sourcesWith h under

namespace Heap

/-- The lines along the sources of `f`, following only failures that are older
than the `n`th. -/
def causesBelow (h : Heap) : Nat → FailureId → List String
  | 0, _ => []
  | n + 1, f =>
      if f = n then (h.origin f).causesWith h (h.causesBelow n) else h.causesBelow n f

/-- The lines along the sources of a failure. -/
def causes (h : Heap) (f : FailureId) : List String := h.causesBelow (f + 1) f

end Heap

/-- The lines along an error's sources. -/
def ErrorOf.sources (h : Heap) (e : ErrorValue) : List String := e.sourcesWith h h.causes

/-- An error's own line and those along its sources. -/
def ErrorOf.chain (h : Heap) (e : ErrorValue) : List String := e.display h :: e.sources h

namespace Heap

/-! ### Failures from errors -/

/-- A failure that stands in for an error. -/
def wrap (h : Heap) (e : ErrorValue) : FailureId × Heap :=
  h.alloc { message := e.display h, origin := .wrapped e }

/-- A failure with a message of its own and an error as its source. -/
def causedBy (h : Heap) (message : String) (e : ErrorValue) : FailureId × Heap :=
  h.alloc { message, origin := .cause e }

/-- The failure of an error: the outermost failure that travels in it, the
same object again, or else a failure that stands in for the error. -/
def ofError (h : Heap) (e : ErrorValue) : FailureId × Heap :=
  match e.failure? with
  | some f => (f, h)
  | none => h.wrap e

/-- Turning an error into a failure changes no failure. -/
theorem extends_ofError (h : Heap) (e : ErrorValue) : h.Extends (h.ofError e).2 := by
  unfold ofError
  split
  · exact .refl h
  · exact h.extends_alloc _

/-- The outermost value that `pick` accepts in the error a failure comes from. -/
def find? {α : Type} (h : Heap) (pick : Found FailureId → Option α) (f : FailureId) : Option α :=
  (h.origin f).error?.bind fun e => e.find? pick

/-- A failure's parts, for programmers. -/
def describe (h : Heap) (f : FailureId) : Described :=
  .record "Failure" [
    ("kind", .atom (h.kind f).describe),
    ("message", .text (h.message f)),
    ("source", .optional ((h.causes f).head?.map .text)),
    ("suppressed", .number (h.suppressed f).length)]

end Heap
end Teardown
