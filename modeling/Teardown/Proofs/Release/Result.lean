/-
# What the release of a group gives

A release is polled until it finishes. It goes from poll to poll as its tree
says, so it finishes when its tree says, and what it gives is told by the tree
alone (`release_group`): nothing when no leaf fails, and else a new failure that
names the group and suppresses the first failing members, as many as the group
keeps, in the order in which they finish.

Key theorems: `Task.finish_spec`, `release_group`.
-/
import Teardown.Proofs.Release.Poll

namespace Teardown

open ResourceOf

namespace Task

mutual

/-- There is more work than polls that a release takes. -/
theorem finishedAt_lt_work : ∀ (index : Nat) (r : Resource),
    r.finishedAt < (Task.ofResource index r).work
  | _, .leaf _ pending _ => Nat.lt_succ_self pending
  | _, .group _ _ members => Nat.lt_succ_of_le (lastFinishedAt_le_work 0 members)

theorem lastFinishedAt_le_work : ∀ (index : Nat) (ms : List Resource),
    lastFinishedAt ms ≤ workAll (Task.ofMembers index ms)
  | _, [] => Nat.le_refl 0
  | index, m :: ms => by
    have hm := finishedAt_lt_work index m
    have hms := lastFinishedAt_le_work (index + 1) ms
    rw [lastFinishedAt, Task.ofMembers, workAll]
    omega

end

mutual

/-- Before its first poll a release owns no failure. -/
theorem roots_ofResource : ∀ (index : Nat) (r : Resource), (Task.ofResource index r).roots = []
  | _, .leaf _ _ _ => rfl
  | _, .group _ _ members => by
    rw [Task.ofResource, roots, rootsOf_ofMembers 0 members]
    rfl

theorem rootsOf_ofMembers : ∀ (index : Nat) (ms : List Resource),
    rootsOf (Task.ofMembers index ms) = []
  | _, [] => rfl
  | index, m :: ms => by
    rw [Task.ofMembers, rootsOf, roots_ofResource index m, rootsOf_ofMembers (index + 1) ms]
    rfl

end

mutual

/-- A release is under way from the start. -/
theorem underway_ofResource {h : Heap} : ∀ (index : Nat) (r : Resource), r.PanicFree →
    r.CarriesFrom h → Underway h h.get? h 0 r (Task.ofResource index r)
  | index, .leaf name pending ending, hpanic, hcarries =>
    .leaf index (Nat.zero_le pending) (hpanic ⟨name, pending, ending⟩ (by simp [leaves]))
      fun e he f hf =>
        Heap.exists_get? (hcarries ⟨name, pending, ending⟩ (by simp [leaves]) e he f hf)
  | index, .group name limit members, hpanic, hcarries =>
    .group index false (Nat.zero_le _) (.initial h h.get? h name members.length limit)
      (allUnderway_ofMembers 0 members
        (fun m hm leaf hl => hpanic leaf (mem_leaves_group.mpr ⟨m, hm, hl⟩))
        fun m hm leaf hl => hcarries leaf (mem_leaves_group.mpr ⟨m, hm, hl⟩))

theorem allUnderway_ofMembers {h : Heap} : ∀ (index : Nat) (ms : List Resource),
    (∀ m ∈ ms, m.PanicFree) → (∀ m ∈ ms, m.CarriesFrom h) →
    AllUnderway h h.get? h 0 ms (Task.ofMembers index ms)
  | _, [], _, _ => .nil
  | index, m :: ms, hpanic, hcarries =>
    .cons (underway_ofResource index m (hpanic m (by simp)) (hcarries m (by simp)))
      (allUnderway_ofMembers (index + 1) ms (fun m' hm' => hpanic m' (by simp [hm']))
        fun m' hm' => hcarries m' (by simp [hm']))

end

/-- How the release of a resource has ended. -/
inductive Ended (h : Heap) (v : View) (r : Resource) : Except ErrorValue Unit → Prop where
  | succeeded (hr : r.fails = false) : Ended h v r (.ok ())
  | failed {e : ErrorValue} (hr : r.fails = true) (he : FailsWith h v r e) :
      Ended h v r (.error e)

/-- **A release that is under way finishes**, and ends as its tree says. -/
theorem finish_spec {h : Heap} {r : Resource} (depth : Nat) : ∀ (fuel : Nat) {n : Nat} {v : View}
    {t : Task} {s : Scene Finished}, r.finishedAt < n + fuel → Settled h v s.heap →
    Underway h v s.heap n r t → t.roots.Nodup →
    ∃ result u v', (t.finish narrow depth fuel).run s = .ok result u ∧ Settled h v' u.heap ∧
      Ended h v' r result := by
  intro fuel
  induction fuel with
  | zero =>
    intro n v t s hfuel hs hu _
    have hle := hu.le_finishedAt
    omega
  | succ fuel ih =>
    intro n v t s hfuel hs hu hnodup
    have hpoll : ∃ polled u v', (t.poll narrow depth).run s = .ok polled u ∧
        Advance h t.roots v s.heap v' u.heap (rootsLeft polled) ∧
        Finding h v' u.heap n r polled := by
      cases depth with
      | zero => exact poll_spec _ r hs hu hnodup
      | succ depth => exact poll_spec _ r hs hu hnodup
    obtain ⟨polled, u, v₁, hrun, hadvance, hfinding⟩ := hpoll
    rw [finish, EStateM.run_bind, hrun]
    cases hfinding with
    | pending hu₁ => exact ih (by omega) hadvance.settled hu₁ hadvance.nodup
    | succeeded _ hr => exact ⟨.ok (), u, v₁, rfl, hadvance.settled, .succeeded hr⟩
    | failed _ hr he => exact ⟨.error _, u, v₁, rfl, hadvance.settled, .failed hr he⟩

end Task

/-- Releasing a resource gives the failure of the error that its release ends with. -/
theorem run_releaseBy (wide : Width) (r : Resource) (s : Scene Finished) :
    (r.releaseBy wide).run s =
      let task := Task.ofResource 0 r
      match (task.finish wide task.work task.work).run s with
      | .ok (.ok ()) t => .ok (.ok ()) t
      | .ok (.error e) t =>
          .ok (.error (t.heap.ofError e).1) { t with heap := (t.heap.ofError e).2 }
      | .error payload t => .error payload t := by
  simp only [ResourceOf.releaseBy, EStateM.run_bind]
  generalize ((Task.ofResource 0 r).finish wide _ _).run s = ended
  cases ended with
  | ok result t => cases result <;> rfl
  | error payload t => rfl

/-- **What the release of a tree of groups gives.** Let no leaf panic, and let
the failures that errors carry and failures suppress exist. The release gives no
failure exactly when no leaf fails. Else it gives a new failure that names the
group and suppresses the first failing members in the order in which they
finish, as many as the group keeps, each by what stands for its error under the
group's limit. -/
theorem release_group (name : String) (limit : Nat) (members : List Resource)
    (s : Scene Finished) (hwhole : s.heap.Whole)
    (hpanic : (ResourceOf.group name limit members).PanicFree)
    (hcarries : (ResourceOf.group name limit members).CarriesFrom s.heap) :
    ∃ result t, ((ResourceOf.group name limit members).releaseBy narrow).run s = .ok result t ∧
      (result = .ok () ↔
        ∀ leaf ∈ (ResourceOf.group name limit members).leaves, leaf.ending.isError = false) ∧
      ∀ f, result = .error f → s.heap.size ≤ f ∧ ∃ kept,
        t.heap.get? f = some {
          kind := .error, message := groupMessage name members.length, suppressed := kept } ∧
        KeptAs s.heap t.heap.get? (max limit 1) ((failing members).take (max limit 1)) kept := by
  have hfuel : (ResourceOf.group name limit members).finishedAt <
      0 + (Task.ofResource 0 (.group name limit members)).work := by
    rw [Nat.zero_add]
    exact Task.finishedAt_lt_work 0 _
  have hroots : (Task.ofResource 0 (.group name limit members)).roots.Nodup := by
    rw [Task.roots_ofResource]
    exact .nil
  obtain ⟨result, t, v, hrun, hs, hended⟩ :=
    Task.finish_spec (Task.ofResource 0 (.group name limit members)).work _ hfuel
      (.initial hwhole) (Task.underway_ofResource 0 _ hpanic hcarries) hroots
  have hrelease := run_releaseBy narrow (.group name limit members) s
  simp only [hrun] at hrelease
  cases hended with
  | succeeded hr =>
    refine ⟨.ok (), t, hrelease, ?_, by simp⟩
    simpa [fails] using hr
  | failed hr he =>
    cases he with
    | @group _ _ _ f kept hnew hf hkept =>
      refine ⟨.error f, t, hrelease, ?_, ?_⟩
      · simpa [fails] using hr
      · rintro g hg
        obtain rfl : f = g := Except.error.inj hg
        exact ⟨hnew, kept, hs.stands f _ hf, hkept.mono hs.stands⟩

/-- A group that keeps up to three failures. -/
def inner : Resource :=
  .group "inner" 3
    [.leaf "b" 0 (.fails (.message "b failed")), .leaf "c" 1 (.fails (.message "c failed"))]

/-- The members of a group around it. The group finishes before the leaf. -/
def outer : List Resource := [.leaf "a" 2 (.fails (.message "a failed")), inner]

theorem release_group_outer :
    ∃ f t kept, ((ResourceOf.group "outer" 1 outer).releaseBy narrow).run { focus := #[] } =
        .ok (.error f) t ∧
      t.heap.get? f = some { message := groupMessage "outer" 2, suppressed := kept } ∧
      KeptAs {} t.heap.get? 1 [inner] kept := by
  have hwhole : ({} : Heap).Whole := by
    intro f x hx
    simp [Heap.get?] at hx
  have hpanic : (ResourceOf.group "outer" 1 outer).PanicFree := by
    simp [PanicFree, outer, inner, leaves, leavesOf]
  have hcarries : (ResourceOf.group "outer" 1 outer).CarriesFrom {} := by
    simp [CarriesFrom, outer, inner, leaves, leavesOf, ErrorOf.failure?, ErrorOf.find?,
      Found.failure?]
  have hfailing : (failing outer).take 1 = [inner] := by
    rw [failing_eq_byRound (n := 3) (by decide)]
    rfl
  obtain ⟨result, t, hrun, hok, herror⟩ :=
    release_group "outer" 1 outer { focus := #[] } hwhole hpanic hcarries
  cases result with
  | ok u =>
    have hnone := hok.mp rfl
    simp [outer, leaves, leavesOf, EndingOf.isError] at hnone
  | error f =>
    obtain ⟨-, kept, hf, hkept⟩ := herror f rfl
    exact ⟨f, t, kept, hrun, hf, hfailing ▸ hkept⟩

end Teardown
