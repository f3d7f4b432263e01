/-
# The text of a failure is a walk of its report

A report is a tree, and the place of a node in it is told by a path: the indices
that lead to it from the root. The same path leads through suppressed lists to
the failure that the node stands for. The text of a failure has a line for each
node of its report but the root, in preorder, indented by the length of the path
(`render_eq_walk`).

The text is written off a stack and the report is made by recursion. In between
stands `Heap.linesOf`, the lines from one failure on: what is written off a stack
is the lines from the failures on it, the top first (`Heap.renderStack_eq`).

Key definitions: `Report.walk`, `Heap.follow?`, `Heap.nodeLines`, `Heap.linesOf`.
Key theorems: `Heap.renderStack_eq`, `Heap.join_walkFrom`, `render_eq_walk`.
-/
import Teardown.Failure.Render

namespace Teardown

/-! ### Paths -/

namespace Heap

/-- The failure that a path leads to from `f` through suppressed lists. -/
def follow? (h : Heap) : FailureId → List Nat → Option FailureId
  | f, [] => some f
  | f, i :: path => (h.suppressed f)[i]?.bind fun g => h.follow? g path

theorem follow?_append (h : Heap) (f : FailureId) (p q : List Nat) :
    h.follow? f (p ++ q) = (h.follow? f p).bind fun g => h.follow? g q := by
  induction p generalizing f with
  | nil => rfl
  | cons i p ih =>
    simp only [List.cons_append, follow?, ih]
    cases (h.suppressed f)[i]? <;> rfl

end Heap

namespace Report

mutual

/-- The nodes of a report in preorder, each with the path to it, where `path` leads
to the first one. -/
def walkFrom (path : List Nat) : Report → List (List Nat × Report)
  | ⟨kind, message, causes, suppressed, elided⟩ =>
      (path, ⟨kind, message, causes, suppressed, elided⟩) :: walkEach path 0 suppressed

/-- The nodes of reports in preorder, of which the first is the `index`th below the
node that `path` leads to. -/
def walkEach (path : List Nat) (index : Nat) : List Report → List (List Nat × Report)
  | [] => []
  | r :: rest => r.walkFrom (path ++ [index]) ++ walkEach path (index + 1) rest

end

theorem walkFrom_eq (path : List Nat) (r : Report) :
    r.walkFrom path = (path, r) :: walkEach path 0 r.suppressed := by
  cases r
  rw [walkFrom]

theorem mem_walkEach {path : List Nat} {node : List Nat × Report} :
    ∀ {rs : List Report} {index : Nat}, node ∈ walkEach path index rs →
      ∃ (i : Nat) (r : Report), rs[i]? = some r ∧ node ∈ r.walkFrom (path ++ [index + i])
  | [], _, hnode => by simp [walkEach] at hnode
  | r :: rs, index, hnode => by
    rcases List.mem_append.mp hnode with hnode | hnode
    · exact ⟨0, r, rfl, hnode⟩
    · obtain ⟨i, r', hr', hnode⟩ := mem_walkEach hnode
      exact ⟨i + 1, r', hr', by rwa [Nat.add_right_comm, Nat.add_assoc] at hnode⟩

/-- The nodes of a report in preorder, each with the path to it from the root. -/
def walk (r : Report) : List (List Nat × Report) := r.walkFrom []

end Report

namespace Heap

/-- The lines of a node below the root of the report of `f`. -/
def nodeLines (h : Heap) (f : FailureId) (node : List Nat × Report) : String :=
  let (path, r) := node
  let hidden := ((h.follow? f path).map fun g => (h.suppressed g).length).getD 0
  suppressedLine path.length r.message ++
    if r.elided then elidedLine (path.length + 1) hidden else ""

/-! ### The lines from one failure on -/

/-- The line of `f` at `depth` and the lines below it, `levels` levels down. -/
def linesOf (h : Heap) : (levels depth : Nat) → FailureId → String
  | 0, depth, f =>
      suppressedLine depth (h.message f) ++
        if (h.suppressed f).isEmpty then "" else elidedLine (depth + 1) (h.suppressed f).length
  | levels + 1, depth, f =>
      suppressedLine depth (h.message f) ++
        String.join ((h.suppressed f).map (h.linesOf levels (depth + 1)))

theorem linesOf_of_isEmpty {h : Heap} {f : FailureId} (hf : (h.suppressed f).isEmpty)
    (levels depth : Nat) : h.linesOf levels depth f = suppressedLine depth (h.message f) := by
  cases levels with
  | zero => rw [linesOf, if_pos hf, String.append_empty]
  | succ levels =>
    rw [linesOf, List.isEmpty_iff.mp hf]
    exact String.append_empty

/-- The lines from what stands on a stack, the top first. -/
def stackLines (h : Heap) (stack : RenderStack) : String :=
  String.join (stack.map fun top => h.linesOf (depthLimit - top.2) top.2 top.1)

theorem stackLines_cons (h : Heap) (f : FailureId) (depth : Nat) (below : RenderStack) :
    h.stackLines ((f, depth) :: below) =
      h.linesOf (depthLimit - depth) depth f ++ h.stackLines below :=
  String.join_cons

/-- **What is written off a stack** is the lines from the failures on it. -/
theorem renderStack_eq (h : Heap) (text : String) (stack : RenderStack) :
    h.renderStack text stack = text ++ h.stackLines stack := by
  fun_induction renderStack h text stack with
  | case1 text => exact String.append_empty.symm
  | case2 text f depth below text' children hempty ih =>
    rw [ih, stackLines_cons, linesOf_of_isEmpty hempty, ← String.append_assoc]
  | case3 text f depth below text' children hempty hd ih =>
    -- at the depth limit a line that counts stands for the children
    have hlevels : depthLimit - depth = 0 := Nat.sub_eq_zero_of_le hd
    rw [ih, stackLines_cons, hlevels, linesOf, if_neg hempty]
    simp only [text', children, String.append_assoc]
  | case4 text f depth below text' children hempty hd ih =>
    -- above it the children take the place of the top
    have hlevels : depthLimit - depth = depthLimit - (depth + 1) + 1 := by omega
    rw [ih, stackLines_cons, hlevels, linesOf]
    simp only [stackLines, text', children, List.map_append, List.map_map, String.join_append,
      String.append_assoc]
    rfl

/-! ### The lines of a report's nodes -/

/-- The nodes below the one that `path` leads to, from the `index`th on. -/
theorem join_walkEach {h : Heap} {f g : FailureId} {levels : Nat} {path : List Nat}
    (hg : h.follow? f path = some g)
    (hnode : ∀ {q : List Nat} {x : FailureId}, h.follow? f q = some x →
      String.join (((h.reportWithin levels x).walkFrom q).map (h.nodeLines f)) =
        h.linesOf levels q.length x) :
    ∀ (gs : List FailureId) (index : Nat), (h.suppressed g).drop index = gs →
      String.join ((Report.walkEach path index (gs.map (h.reportWithin levels))).map
        (h.nodeLines f)) = String.join (gs.map (h.linesOf levels (path.length + 1)))
  | [], _, _ => rfl
  | x :: gs, index, hdrop => by
    have hx : h.follow? f (path ++ [index]) = some x := by
      rw [follow?_append, hg]
      simp only [Option.bind_some, follow?]
      rw [← List.head?_drop, hdrop]
      rfl
    have hgs : (h.suppressed g).drop (index + 1) = gs := by
      rw [← List.tail_drop, hdrop]
      rfl
    rw [List.map_cons, Report.walkEach, List.map_append, String.join_append, hnode hx,
      join_walkEach hg hnode gs (index + 1) hgs, List.length_append, List.map_cons,
      String.join_cons]
    rfl

/-- The lines of a report's nodes are the lines from its failure on. -/
theorem join_walkFrom {h : Heap} {f : FailureId} : ∀ (levels : Nat) {path : List Nat}
    {g : FailureId}, h.follow? f path = some g →
    String.join (((h.reportWithin levels g).walkFrom path).map (h.nodeLines f)) =
      h.linesOf levels path.length g := by
  intro levels
  induction levels with
  | zero =>
    intro path g hg
    rw [Report.walkFrom_eq, reportWithin, Report.walkEach]
    simp only [List.map_cons, List.map_nil, String.join_cons, nodeLines, hg, linesOf]
    cases (h.suppressed g).isEmpty <;> simp
  | succ levels ih =>
    intro path g hg
    rw [Report.walkFrom_eq, reportWithin, List.map_cons, String.join_cons,
      join_walkEach hg ih (h.suppressed g) 0 rfl]
    simp [nodeLines, linesOf]

/-- A node of a report is the report, as far down as levels are left, of the
failure that its path leads to. -/
theorem stands_of_mem_walkFrom {h : Heap} {f : FailureId} {node : List Nat × Report} :
    ∀ (levels : Nat) {path : List Nat} {g : FailureId}, h.follow? f path = some g →
      node ∈ (h.reportWithin levels g).walkFrom path →
      ∃ x, h.follow? f node.1 = some x ∧
        node.2 = h.reportWithin (path.length + levels - node.1.length) x := by
  intro levels
  induction levels with
  | zero =>
    intro path g hg hnode
    rw [Report.walkFrom_eq, reportWithin, Report.walkEach, List.mem_singleton] at hnode
    subst hnode
    exact ⟨g, hg, by simp [reportWithin]⟩
  | succ levels ih =>
    intro path g hg hnode
    rw [Report.walkFrom_eq, List.mem_cons] at hnode
    rcases hnode with rfl | hnode
    · exact ⟨g, hg, by rw [Nat.add_sub_cancel_left]⟩
    · obtain ⟨i, r, hr, hnode⟩ := Report.mem_walkEach hnode
      rw [reportWithin, List.getElem?_map, Option.map_eq_some_iff] at hr
      obtain ⟨x, hx, rfl⟩ := hr
      have hfollow : h.follow? f (path ++ [0 + i]) = some x := by
        rw [follow?_append, hg, Nat.zero_add]
        simp [follow?, hx]
      obtain ⟨y, hy, hstands⟩ := ih hfollow hnode
      refine ⟨y, hy, hstands.trans ?_⟩
      rw [List.length_append, List.length_singleton, Nat.add_assoc, Nat.add_comm 1 levels]

end Heap

/-- **The text of a failure is a walk of its report.** It is the message of the
root and then, for each further node in preorder, a line indented by its depth
and, exactly where the node is marked elided, one that counts what the failure
it stands for suppresses. The path to a node leads to that failure, of which the
node is the report as far as the depth limit. -/
theorem render_eq_walk (h : Heap) (f : FailureId) :
    h.render f = (h.report f).message ++
        String.join ((h.report f).walk.tail.map (h.nodeLines f)) ∧
      ∀ node ∈ (h.report f).walk, ∃ g, h.follow? f node.1 = some g ∧
        node.2 = h.reportWithin (depthLimit - node.1.length) g := by
  have hwalk : (h.report f).walk.tail =
      Report.walkEach [] 0 ((h.suppressed f).map (h.reportWithin (depthLimit - 1))) := rfl
  have hroot : h.follow? f [] = some f := rfl
  have hlines :=
    Heap.join_walkEach hroot (Heap.join_walkFrom (depthLimit - 1)) (h.suppressed f) 0 rfl
  refine ⟨?_, fun node hnode => ?_⟩
  · rw [Heap.render, Heap.renderStack_eq, hwalk, hlines, Heap.stackLines, List.map_map]
    rfl
  · obtain ⟨g, hg, hstands⟩ := Heap.stands_of_mem_walkFrom depthLimit hroot hnode
    exact ⟨g, hg, by simpa using hstands⟩

/-- Two failures that suppress each other. -/
def circular : Heap :=
  ⟨#[{ message := "a", suppressed := [1] }, { message := "b", suppressed := [0] }]⟩

/-- The lines go on in turn down to the depth limit, where one counts what follows. -/
theorem render_eq_walk_circular :
    let last : List Nat × Report := (List.replicate 8 0, circular.reportWithin 0 0)
    circular.render 0 = String.join [
        "a", "\n  Suppressed: b", "\n    Suppressed: a", "\n      Suppressed: b",
        "\n        Suppressed: a", "\n          Suppressed: b", "\n            Suppressed: a",
        "\n              Suppressed: b", "\n                Suppressed: a",
        "\n                  ... 1 more suppressed"] ∧
      last ∈ (circular.report 0).walk ∧ ∃ g, circular.follow? 0 last.1 = some g ∧
        last.2 = circular.reportWithin (depthLimit - last.1.length) g := by
  intro last
  obtain ⟨htext, hnodes⟩ := render_eq_walk circular 0
  have hlast : last ∈ (circular.report 0).walk :=
    List.mem_of_getElem? (show (circular.report 0).walk[8]? = some last from rfl)
  exact ⟨htext.trans (by decide +kernel), hlast, hnodes last hlast⟩

end Teardown
