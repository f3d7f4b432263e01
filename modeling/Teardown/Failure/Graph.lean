/-
# The suppressed graph

All failures that can be reached from one through suppressed lists, in the
order a depth-first walk meets them, each once.

Key definitions: `Heap.reachable`.
-/
import Teardown.Failure.Heap

namespace Teardown
namespace Heap

/-- Walks on from the failures still `pending`, of which those in `seen`
(last first) were met before. Each round of the walk takes one pending
failure, so `fuel` rounds suffice if no more were ever pending. -/
def walk (h : Heap) : (fuel : Nat) → (seen pending : List FailureId) → List FailureId
  | 0, seen, _ => seen.reverse
  | _ + 1, seen, [] => seen.reverse
  | fuel + 1, seen, f :: pending =>
      if seen.contains f then h.walk fuel seen pending
      else h.walk fuel (f :: seen) (h.suppressed f ++ pending)

/-- The number of suppressed entries in the whole heap. -/
def edges (h : Heap) : Nat := h.failures.toList.foldr (fun f n => f.suppressed.length + n) 0

/-- The failures reachable from `f`, `f` first. -/
def reachable (h : Heap) (f : FailureId) : List FailureId :=
  h.walk (h.edges + 2) [] [f]

end Heap
end Teardown
