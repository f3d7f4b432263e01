/-
# Reports

A report is a snapshot of a failure: its kind, message and causes, and the
reports of its suppressed failures. Suppressed graphs may be deep or cyclic,
so a report goes `depthLimit` levels down; where it stops short of suppressed
failures it is marked elided.

Key definitions: `Report`, `Heap.report`.
-/
import Teardown.Failure.Cause

namespace Teardown

/-- A snapshot of a failure. -/
structure Report where
  kind : FailureKind
  message : String
  /-- The lines along the failure's sources. -/
  causes : List String := []
  suppressed : List Report := []
  /-- Whether suppressed failures were left out at the depth limit. -/
  elided : Bool := false
  deriving Repr

/-- Levels of suppressed failures that are shown below a failure. -/
def depthLimit : Nat := 8

namespace Heap

/-- The report of `f` with `levels` levels below it. -/
def reportWithin (h : Heap) : Nat → FailureId → Report
  | 0, f =>
      { kind := h.kind f, message := h.message f, causes := h.causes f
        elided := !(h.suppressed f).isEmpty }
  | levels + 1, f =>
      { kind := h.kind f, message := h.message f, causes := h.causes f
        suppressed := (h.suppressed f).map (h.reportWithin levels) }

/-- The report of a failure. -/
def report (h : Heap) (f : FailureId) : Report := h.reportWithin depthLimit f

end Heap

namespace Report

mutual

/-- A report's parts, for programmers. -/
def describe : Report → Described
  | { kind, message, causes, suppressed, elided } =>
      .record "FailureReport" [
        ("kind", .atom kind.describe),
        ("message", .text message),
        ("causes", .list (causes.map .text)),
        ("suppressed", .list (describeAll suppressed)),
        ("elided", .flag elided)]

/-- The parts of each report. -/
def describeAll : List Report → List Described
  | [] => []
  | r :: rest => r.describe :: describeAll rest

end

end Report
end Teardown
