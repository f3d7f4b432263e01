/-
# What a panic leaves unfinished

When a leaf panics, the poll that it is polled in ends there. The members of a group
before the one that the panic comes from have been polled in it and the ones after have
not. So the tree says, for each group, whether it is unfinished then and which failing
members it has recorded (`ResourceOf.unwound`). The groups are listed in the order in
which they are dropped: what is left of the member that the panic comes from, then its
siblings in order, then the group around them.

What the log is told when they are dropped is one event for each group that has recorded
something, with the report of its root (`Told`).

Key definitions: `Unfinished`, `ResourceOf.unfinished`, `ResourceOf.unwound`, `unraisedIn`,
`Told`.
-/
import Teardown.Proofs.Release.Order

namespace Teardown

open ResourceOf

/-! ### Groups that are unfinished -/

/-- A group that is unfinished, with the failing members that it has recorded. -/
structure Unfinished where
  name : String
  /-- The number of its members. -/
  size : Nat
  limit : Nat
  recorded : List Resource

namespace ResourceOf

/-- Whether a leaf of a resource panics in a poll. -/
def panicsAt (p : Nat) (r : Resource) : Bool :=
  r.leaves.any fun l => l.pending = p && l.ending.panic?.isSome

mutual

/-- The groups of a resource that are unfinished after `n` polls, the inner ones before
the groups around them. -/
def unfinished (n : Nat) : Resource → List Unfinished
  | .leaf _ _ _ => []
  | .group name limit members =>
      if lastFinishedAt members < n then []
      else unfinishedIn n members ++
        [⟨name, members.length, limit, byRound finishedAt n (members.filter fails)⟩]

/-- The unfinished groups of several resources. -/
def unfinishedIn (n : Nat) : List Resource → List Unfinished
  | [] => []
  | m :: rest => m.unfinished n ++ unfinishedIn n rest

end

/-- The members that are polled in a poll before one panics. -/
def polledIn (p : Nat) (members : List Resource) : List Resource :=
  members.takeWhile fun m => !m.panicsAt p

/-- The members that are not polled any more in a poll in which one panics. -/
def unpolledIn (p : Nat) (members : List Resource) : List Resource :=
  (members.dropWhile fun m => !m.panicsAt p).tail

mutual

/-- The groups of a resource that are unfinished when a leaf panics in the poll after `p`
others, in the order in which they are dropped. -/
def unwound (p : Nat) : Resource → List Unfinished
  | .leaf _ _ _ => []
  | .group name limit members =>
      unwoundIn p members ++ unfinishedIn (p + 1) (polledIn p members) ++
        unfinishedIn p (unpolledIn p members) ++
        [⟨name, members.length, limit,
          byRound finishedAt p (members.filter fails) ++ Task.failingAt p (polledIn p members)⟩]

/-- The unfinished groups of the member that a panic comes from. -/
def unwoundIn (p : Nat) : List Resource → List Unfinished
  | [] => []
  | m :: rest => if m.panicsAt p then m.unwound p else unwoundIn p rest

end

/-! ### Where a poll stops -/

section

variable {p : Nat} {m : Resource} {ms ls : List Resource}

theorem panicsAt_group {name : String} {limit : Nat} :
    (ResourceOf.group name limit ms).panicsAt p = ms.any (panicsAt p) := by
  simp only [panicsAt, leaves, leavesOf_eq_flatMap, List.any_flatMap]
  rfl

/-- No leaf is polled after the resource has finished. -/
theorem pending_le_finishedAt : ∀ {r : Resource}, ∀ l ∈ r.leaves, l.pending ≤ r.finishedAt
  | .leaf name pending ending, l, hl => by
    obtain rfl : l = ⟨name, pending, ending⟩ := by simpa [leaves] using hl
    exact Nat.le_refl _
  | .group _ _ members, l, hl => pending_le_lastFinishedAt l hl
where
  pending_le_lastFinishedAt : ∀ {ms : List Resource}, ∀ l ∈ leavesOf ms,
      l.pending ≤ lastFinishedAt ms
  | [], l, hl => by simp [leavesOf] at hl
  | m :: ms, l, hl => by
    rcases List.mem_append.mp hl with hl | hl
    · exact Nat.le_trans (pending_le_finishedAt l hl) (Nat.le_max_left _ _)
    · exact Nat.le_trans (pending_le_lastFinishedAt l hl) (Nat.le_max_right _ _)

/-- What has finished does not panic any more. -/
theorem panicsAt_of_lt (hm : m.finishedAt < p) : m.panicsAt p = false := by
  simp only [panicsAt, List.any_eq_false, Bool.and_eq_true, decide_eq_true_eq, not_and]
  intro l hl heq
  have := pending_le_finishedAt l hl
  omega

theorem unfinished_of_lt (hm : m.finishedAt < p) : m.unfinished p = [] := by
  cases m with
  | leaf => rfl
  | group name limit members => exact if_pos hm

/-- A poll stops at the first member that panics. -/
theorem split_polled (rs : List Resource) (hls : ∀ l ∈ ls, l.panicsAt p = false)
    (hm : m.panicsAt p = true) :
    polledIn p (ls ++ m :: rs) = ls ∧ unpolledIn p (ls ++ m :: rs) = rs ∧
      unwoundIn p (ls ++ m :: rs) = m.unwound p := by
  induction ls with
  | nil => simp [polledIn, unpolledIn, unwoundIn, hm]
  | cons l ls ih =>
    have hl : l.panicsAt p = false := hls l (by simp)
    obtain ⟨hpolled, hunpolled, hunwound⟩ := ih fun l' hl' => hls l' (by simp [hl'])
    simp only [polledIn, unpolledIn] at hpolled hunpolled
    simp [polledIn, unpolledIn, unwoundIn, hl, hpolled, hunpolled, hunwound]

end

end ResourceOf

/-! ### What the log is told -/

/-- The report of a failure that was dropped without being raised. -/
def Event.unraised? : Event → Option Report
  | .droppedUnraised report => some report
  | _ => none

/-- What a log tells of failures that were dropped without being raised. -/
def unraisedIn (log : Array Event) : List Report := log.toList.filterMap Event.unraised?

theorem unraisedIn_push (log : Array Event) (event : Event) :
    unraisedIn (log.push event) = unraisedIn log ++ event.unraised?.toList := by
  rw [unraisedIn, Array.toList_push, List.filterMap_append, unraisedIn]
  cases h : event.unraised? <;> simp [h]

/-- They are among the warnings. -/
theorem unraisedIn_of_warnings {log log' : Array Event}
    (h : Collector.warnings log' = Collector.warnings log) : unraisedIn log' = unraisedIn log := by
  have hwarnings : ∀ log, unraisedIn log = (Collector.warnings log).filterMap Event.unraised? := by
    intro log
    rw [unraisedIn, Collector.warnings, List.filterMap_filter]
    congr 1
    funext event
    cases event <;> rfl
  rw [hwarnings, hwarnings, h]

/-- What the log is told when unfinished groups are dropped in the heap `k`, in a release
that began in the heap `h`: for each group that has recorded something, the report of a
new failure that names the group and suppresses what the group keeps of it. -/
inductive Told (h k : Heap) : List Unfinished → List Report → Prop where
  | nil : Told h k [] []
  | silent {g : Unfinished} {gs : List Unfinished} {reports : List Report}
      (hg : g.recorded = []) (rest : Told h k gs reports) : Told h k (g :: gs) reports
  | tells {g : Unfinished} {gs : List Unfinished} {f : FailureId} {kept : List FailureId}
      {reports : List Report} (hg : g.recorded ≠ []) (hnew : h.size ≤ f)
      (hf : k.get? f = some { message := groupMessage g.name g.size, suppressed := kept })
      (hkept : KeptAs h k.get? (max g.limit 1) (g.recorded.take (max g.limit 1)) kept)
      (rest : Told h k gs reports) : Told h k (g :: gs) (k.report f :: reports)

theorem Told.append {h k : Heap} : ∀ {gs gs' : List Unfinished} {reports reports' : List Report},
    Told h k gs reports → Told h k gs' reports' → Told h k (gs ++ gs') (reports ++ reports')
  | _, _, _, _, .nil, hrest => hrest
  | _, _, _, _, .silent hg rest, hrest => .silent hg (rest.append hrest)
  | _, _, _, _, .tells hg hnew hf hkept rest, hrest => .tells hg hnew hf hkept (rest.append hrest)

/-- Each report names its group, and nothing is said of groups that have recorded nothing. -/
theorem Told.messages {h k : Heap} {gs : List Unfinished} {reports : List Report}
    (htold : Told h k gs reports) : reports.map (·.message) =
      (gs.filter fun g => !g.recorded.isEmpty).map fun g => groupMessage g.name g.size := by
  induction htold with
  | nil => rfl
  | silent hg _ ih => simp [hg, ih]
  | @tells g gs f _ reports hg _ hf _ _ ih =>
    have hmessage : (k.report f).message = groupMessage g.name g.size := by
      rw [Collector.message_report, Heap.message, hf]
      rfl
    simp [hg, hmessage, ih]

end Teardown
