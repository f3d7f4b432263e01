/-
# Rendering

A failure rendered in full: its message, and below it one line for each
suppressed failure, nested by indentation. A stack holds the failures that are
still to be written, the next one on top; when a failure has been written, what
it suppresses is put on top of the others. `depthLimit` levels down, a line that
counts stands for the suppressed failures that are not shown. So there is an end
to it on every graph: each round writes one of the failures that are shown from
the stack, and `Heap.shownFrom` counts those.

Key definitions: `Heap.render`, `Heap.renderStack`, `Heap.shownFrom`.
-/
import Teardown.Failure.Report

namespace Teardown

/-- A new line, indented by two spaces for each level. -/
def lineAt (depth : Nat) (text : String) : String :=
  "\n" ++ "".pushn ' ' (2 * depth) ++ text

/-- The line of a suppressed failure. -/
def suppressedLine (depth : Nat) (message : String) : String :=
  lineAt depth ("Suppressed: " ++ message)

/-- The line that stands for `hidden` failures which are not shown. -/
def elidedLine (depth hidden : Nat) : String :=
  lineAt depth ("... " ++ toString hidden ++ " more suppressed")

/-- Failures that are to be written, each with the depth of its line. -/
abbrev RenderStack := List (FailureId × Nat)

namespace Heap

/-- How many failures are shown from `f` on, `levels` levels down. One that is met
on several ways is shown as often. -/
def shownWithin (h : Heap) : (levels : Nat) → FailureId → Nat
  | 0, _ => 1
  | levels + 1, f => 1 + (h.suppressed f).foldr (fun g n => h.shownWithin levels g + n) 0

/-- How many failures are shown from those on a stack. -/
def shownFrom (h : Heap) (stack : RenderStack) : Nat :=
  stack.foldr (fun top n => h.shownWithin (depthLimit - top.2) top.1 + n) 0

theorem shownWithin_pos (h : Heap) (levels : Nat) (f : FailureId) : 0 < h.shownWithin levels f := by
  cases levels with
  | zero => exact Nat.one_pos
  | succ levels =>
    rw [shownWithin]
    exact Nat.lt_add_right _ Nat.one_pos

theorem shownFrom_append (h : Heap) (above below : RenderStack) :
    h.shownFrom (above ++ below) = h.shownFrom above + h.shownFrom below := by
  induction above with
  | nil => exact (Nat.zero_add _).symm
  | cons top above ih =>
    rw [List.cons_append, shownFrom, List.foldr_cons, ← shownFrom, ih, ← Nat.add_assoc]
    rfl

/-- Fewer are shown when the top is taken off. -/
theorem shownFrom_lt_cons (h : Heap) (top : FailureId × Nat) (below : RenderStack) :
    h.shownFrom below < h.shownFrom (top :: below) :=
  Nat.lt_add_of_pos_left (h.shownWithin_pos _ _)

/-- Fewer are shown when what the top suppresses takes its place. -/
theorem shownFrom_descend (h : Heap) {f : FailureId} {depth : Nat} (hd : depth < depthLimit)
    (below : RenderStack) :
    h.shownFrom ((h.suppressed f).map (·, depth + 1) ++ below) <
      h.shownFrom ((f, depth) :: below) := by
  have hlevels : depthLimit - depth = depthLimit - (depth + 1) + 1 := by omega
  have htop : h.shownWithin (depthLimit - depth) f =
      1 + h.shownFrom ((h.suppressed f).map (·, depth + 1)) := by
    rw [hlevels, shownWithin, shownFrom, List.foldr_map]
  have hcons : h.shownFrom ((f, depth) :: below) =
      h.shownWithin (depthLimit - depth) f + h.shownFrom below := rfl
  rw [shownFrom_append, hcons, htop]
  omega

/-- Writes what is on the stack after `text`. -/
def renderStack (h : Heap) (text : String) : RenderStack → String
  | [] => text
  | (f, depth) :: below =>
      let text := text ++ suppressedLine depth (h.message f)
      let children := h.suppressed f
      if children.isEmpty then h.renderStack text below
      else if depthLimit ≤ depth then
        h.renderStack (text ++ elidedLine (depth + 1) children.length) below
      else h.renderStack text (children.map (·, depth + 1) ++ below)
termination_by stack => h.shownFrom stack
decreasing_by
  · exact h.shownFrom_lt_cons (f, depth) below
  · exact h.shownFrom_lt_cons (f, depth) below
  · exact h.shownFrom_descend (Nat.lt_of_not_le ‹_›) below

/-- A failure in full. -/
def render (h : Heap) (f : FailureId) : String :=
  h.renderStack (h.message f) ((h.suppressed f).map (·, 1))

end Heap
end Teardown
