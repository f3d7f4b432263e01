/-
# What a report shows of the suppressed graph

A path leads down a report from node to node as it leads through suppressed
lists from failure to failure. The report of `f` has a node for every way of at
most `depthLimit` steps on which suppressed failures can be followed from `f`,
on a cyclic graph as well as on a tree, and for no others: a failure that is met
on several ways has a node for each. What a node shows is settled by the failure
its path leads to and by the length of the path (`Heap.at?_reportWithin`,
`Heap.shows_reportWithin`). So the report lacks nothing exactly when no way
through suppressed lists is longer than the depth limit (`report_exact`).

Key definitions: `Report.at?`, `Heap.Shows`.
Key theorems: `Heap.at?_reportWithin`, `Heap.shows_reportWithin`,
`Heap.none_elided_iff`, `report_exact`.
-/
import Teardown.Proofs.Failure.Causes
import Teardown.Proofs.Failure.Rendering

namespace Teardown

/-- The node of a report that a path leads to from the root. -/
def Report.at? : Report → List Nat → Option Report
  | r, [] => some r
  | r, i :: path => r.suppressed[i]?.bind fun s => s.at? path

namespace Heap

/-- What a report shows of the failure `g` in a node `depth` levels down. -/
structure Shows (h : Heap) (depth : Nat) (g : FailureId) (r : Report) : Prop where
  kind : r.kind = h.kind g
  message : r.message = h.message g
  /-- The walk along the failure's sources ends, and the causes are all of its lines. -/
  causes (lines : List String) : h.Walk (.ofFailure g) lines ↔ lines = r.causes
  elided : r.elided = true ↔ depth = depthLimit ∧ h.suppressed g ≠ []
  children : r.elided = false → r.suppressed.length = (h.suppressed g).length

/-- **The nodes of a report** that goes `levels` levels down are the reports, as
far down as levels are left, of the failures that their paths lead to. -/
theorem at?_reportWithin (h : Heap) (path : List Nat) : ∀ (levels : Nat) (f : FailureId),
    (h.reportWithin levels f).at? path =
      if path.length ≤ levels then
        (h.follow? f path).map (h.reportWithin (levels - path.length))
      else none := by
  induction path with
  | nil =>
    intro levels f
    simp [Report.at?, follow?]
  | cons i path ih =>
    intro levels f
    cases levels with
    | zero => simp [Report.at?, reportWithin]
    | succ levels =>
      rw [Report.at?, reportWithin, List.getElem?_map, follow?, List.length_cons,
        Nat.add_sub_add_right]
      cases (h.suppressed f)[i]? with
      | none => simp
      | some g => simp [ih]

/-- **What a node shows.** -/
theorem shows_reportWithin {h : Heap} (hh : h.Sound) {depth : Nat} (hd : depth ≤ depthLimit)
    (g : FailureId) : h.Shows depth g (h.reportWithin (depthLimit - depth) g) := by
  cases hlevels : depthLimit - depth with
  | zero =>
    have hdepth : depth = depthLimit := by omega
    refine ⟨rfl, rfl, fun _ => walk_iff_causes hh, ?_, fun he => ?_⟩
    · simp [reportWithin, hdepth]
    · -- nothing is left out only if there is nothing
      have hnone : h.suppressed g = [] := by simpa [reportWithin] using he
      rw [hnone]
      rfl
  | succ levels =>
    have hdepth : depth ≠ depthLimit := by omega
    refine ⟨rfl, rfl, fun _ => walk_iff_causes hh, ?_, fun _ => ?_⟩
    · simp [reportWithin, hdepth]
    · exact List.length_map _

/-- A way that can be followed can be followed in part. -/
theorem follow?_take {h : Heap} {f : FailureId} {path : List Nat}
    (hp : (h.follow? f path).isSome) {n : Nat} (hn : n < path.length) :
    ∃ g, h.follow? f (path.take n) = some g ∧ h.suppressed g ≠ [] := by
  rw [← List.take_append_drop n path, List.drop_eq_getElem_cons hn, follow?_append] at hp
  cases hg : h.follow? f (path.take n) with
  | none => simp [hg] at hp
  | some g =>
    refine ⟨g, rfl, fun hnone => ?_⟩
    simp [hg, follow?, hnone] at hp

/-- A way goes on from a failure that suppresses others. -/
theorem follow?_concat_zero {h : Heap} {f g : FailureId} {path : List Nat}
    (hg : h.follow? f path = some g) (hs : h.suppressed g ≠ []) :
    (h.follow? f (path ++ [0])).isSome := by
  obtain ⟨x, xs, hx⟩ := List.exists_cons_of_ne_nil hs
  rw [follow?_append, hg]
  simp [follow?, hx]

/-- **Where a report has nodes.** -/
theorem isSome_at?_report (h : Heap) (f : FailureId) (path : List Nat) :
    ((h.report f).at? path).isSome ↔ path.length ≤ depthLimit ∧ (h.follow? f path).isSome := by
  rw [report, at?_reportWithin]
  split <;> simp [*]

/-- Each node shows the failure that its path leads to. -/
theorem shows_at?_report {h : Heap} (hh : h.Sound) {f : FailureId} {path : List Nat} {r : Report}
    (hr : (h.report f).at? path = some r) :
    ∃ g, h.follow? f path = some g ∧ h.Shows path.length g r := by
  have hle := ((h.isSome_at?_report f path).mp (Option.isSome_of_eq_some hr)).1
  rw [report, at?_reportWithin, if_pos hle, Option.map_eq_some_iff] at hr
  obtain ⟨g, hg, rfl⟩ := hr
  exact ⟨g, hg, shows_reportWithin hh hle g⟩

/-- A way that is too long is cut off at its node on the depth limit, which is
elided, and from an elided node there goes such a way. -/
theorem none_elided_iff {h : Heap} (hh : h.Sound) (f : FailureId) :
    (∀ path r, (h.report f).at? path = some r → r.elided = false) ↔
      ∀ path, (h.follow? f path).isSome → path.length ≤ depthLimit := by
  refine ⟨fun hwhole path hpath => Nat.le_of_not_lt fun hlong => ?_, fun hshort path r hr => ?_⟩
  · have hlen : (path.take depthLimit).length = depthLimit := List.length_take_of_le (by omega)
    obtain ⟨g, hg, hne⟩ := follow?_take hpath hlong
    obtain ⟨r, hr⟩ := Option.isSome_iff_exists.mp
      ((h.isSome_at?_report f _).mpr ⟨Nat.le_of_eq hlen, Option.isSome_of_eq_some hg⟩)
    obtain ⟨g', hg', hshow⟩ := shows_at?_report hh hr
    obtain rfl : g = g' := Option.some.inj (hg.symm.trans hg')
    have helided : r.elided = true := hshow.elided.mpr ⟨hlen, hne⟩
    rw [hwhole _ r hr] at helided
    cases helided
  · obtain ⟨g, hg, hshow⟩ := shows_at?_report hh hr
    cases he : r.elided with
    | false => rfl
    | true =>
      obtain ⟨hlen, hne⟩ := hshow.elided.mp he
      have hlong := hshort _ (follow?_concat_zero hg hne)
      rw [List.length_append, List.length_singleton] at hlong
      omega

end Heap

/-- **A report is exact down to the depth limit.** It has a node at each path of at
most `depthLimit` steps that can be followed from `f` through suppressed lists,
and nowhere else. The node shows the failure at the end of the path: its kind, its
message, the lines of the whole walk along its sources, and its suppressed
failures, unless it is elided, as it is exactly when the path has `depthLimit`
steps and the failure suppresses others. No node is elided if and only if no way
from `f` is longer than that, and then the report has a node for every way. -/
theorem report_exact (h : Heap) (hh : h.Sound) (f : FailureId) :
    (∀ path, ((h.report f).at? path).isSome ↔
      path.length ≤ depthLimit ∧ (h.follow? f path).isSome) ∧
    (∀ path r, (h.report f).at? path = some r →
      ∃ g, h.follow? f path = some g ∧ h.Shows path.length g r) ∧
    ((∀ path r, (h.report f).at? path = some r → r.elided = false) ↔
      ∀ path, (h.follow? f path).isSome → path.length ≤ depthLimit) ∧
    ((∀ path r, (h.report f).at? path = some r → r.elided = false) →
      ∀ path, ((h.report f).at? path).isSome ↔ (h.follow? f path).isSome) := by
  have hwhole := Heap.none_elided_iff hh f
  refine ⟨h.isSome_at?_report f, fun path r => Heap.shows_at?_report hh, hwhole, ?_⟩
  intro hnone path
  rw [h.isSome_at?_report]
  exact and_iff_right_of_imp (hwhole.mp hnone path)

theorem sound_circular : circular.Sound := by
  intro f x hx
  match f with
  | 0 =>
    cases hx
    exact ⟨trivial, by decide⟩
  | 1 =>
    cases hx
    exact ⟨trivial, by decide⟩
  | f + 2 => simp [Heap.get?, circular] at hx

/-- Around a circle there is a node at eight steps, which is elided, and none at
nine. -/
theorem report_exact_circular :
    circular.Sound ∧
      (∃ r, (circular.report 0).at? (List.replicate 8 0) = some r ∧
        r.message = "a" ∧ r.elided = true) ∧
      ¬ ((circular.report 0).at? (List.replicate 9 0)).isSome := by
  obtain ⟨hnodes, hshows, -, -⟩ := report_exact circular sound_circular 0
  obtain ⟨r, hr⟩ := Option.isSome_iff_exists.mp
    ((hnodes (List.replicate 8 0)).mpr ⟨by decide, by decide⟩)
  obtain ⟨g, hg, hshow⟩ := hshows _ r hr
  have hzero : (0 : FailureId) = g :=
    Option.some.inj ((by decide : some 0 = circular.follow? 0 (List.replicate 8 0)).trans hg)
  subst hzero
  refine ⟨sound_circular, ⟨r, hr, hshow.message.trans (by decide), ?_⟩, fun hnine => ?_⟩
  · exact hshow.elided.mpr ⟨by decide, by decide⟩
  · exact absurd ((hnodes (List.replicate 9 0)).mp hnine).1 (by decide)

end Teardown
