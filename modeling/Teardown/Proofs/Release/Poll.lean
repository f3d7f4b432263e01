/-
# One poll of a tree

A release that no leaf makes panic is told by its tree and by the number of its
polls so far: the members that finish later are under way, in their order, and
the group's collector has recorded the failing ones that finished before, poll
by poll. A poll takes this from one number to the next, or the release finishes
in it and ends as the tree says.

A group under way owns the roots that it and the groups in it have made. A poll
changes no failure but those and new ones, so that what one member does leaves
its siblings as they were.

Key definitions: `Task.roots`, `Task.Underway`, `Task.Advance`, `Task.Finding`.
Key theorems: `Task.poll_spec`, `Task.pollMembers_spec`.
-/
import Teardown.Proofs.Release.Recording

namespace Teardown

open ResourceOf

/-- No group is wide. -/
def narrow : Width := fun _ => false

namespace Task

mutual

/-- The failures that a release under way still attaches to. -/
def roots : Task → List FailureId
  | .leaf _ _ _ _ => []
  | .group _ _ _ _ c members => rootsOf members ++ c.primary.toList

/-- The failures that several releases still attach to. -/
def rootsOf : List Task → List FailureId
  | [] => []
  | t :: rest => t.roots ++ rootsOf rest

end

/-! ### Releases under way -/

mutual

/-- After `n` polls the release of a resource is under way. -/
inductive Underway (h : Heap) (v : View) (k : Heap) (n : Nat) : Resource → Task → Prop where
  | leaf {name : String} {pending : Nat} {ending : Ending} (index : Nat) (hn : n ≤ pending)
      (hpanic : ∀ message, ending ≠ .panics message)
      (hcarries : ∀ e, ending = .fails e → ∀ f, e.failure? = some f → v.Knows f) :
      Underway h v k n (.leaf name pending ending) (.leaf index name (pending - n) ending)
  | group {name : String} {limit : Nat} {members : List Resource} {c : Collector}
      {ts : List Task} (index : Nat) (started : Bool) (hn : n ≤ lastFinishedAt members)
      (hc : Recording h v k (groupMessage name members.length) limit
        (byRound finishedAt n (members.filter fails)) c)
      (hms : AllUnderway h v k n members ts) :
      Underway h v k n (.group name limit members)
        (.group index name members.length started c ts)

/-- After `n` polls the releases of several resources are under way, but for
those that have finished. -/
inductive AllUnderway (h : Heap) (v : View) (k : Heap) (n : Nat) :
    List Resource → List Task → Prop where
  | nil : AllUnderway h v k n [] []
  | cons {m : Resource} {ms : List Resource} {t : Task} {ts : List Task}
      (hm : Underway h v k n m t) (hms : AllUnderway h v k n ms ts) :
      AllUnderway h v k n (m :: ms) (t :: ts)
  | done {m : Resource} {ms : List Resource} {ts : List Task} (hm : m.finishedAt < n)
      (hms : AllUnderway h v k n ms ts) : AllUnderway h v k n (m :: ms) ts

end

variable {h k k' : Heap} {v v' : View} {n : Nat}

theorem Underway.le_finishedAt {r : Resource} {t : Task} (hu : Underway h v k n r t) :
    n ≤ r.finishedAt := by
  cases hu with
  | leaf _ hn => exact hn
  | group _ _ hn => exact hn

/-- When none is under way any more all have finished. -/
theorem AllUnderway.finished : ∀ {ms : List Resource}, AllUnderway h v k n ms [] →
    ∀ m ∈ ms, m.finishedAt < n
  | _, .nil, _, hm => by simp at hm
  | _, .done hdone hms, m, hm => by
    rcases List.mem_cons.mp hm with rfl | hm
    · exact hdone
    · exact hms.finished m hm

/-- The last one finishes later when one is under way. -/
theorem AllUnderway.le_lastFinishedAt : ∀ {ms : List Resource} {t : Task} {ts : List Task},
    AllUnderway h v k n ms (t :: ts) → n ≤ lastFinishedAt ms
  | _, _, _, .cons hm _ => Nat.le_trans hm.le_finishedAt (Nat.le_max_left _ _)
  | _, _, _, .done _ hms => Nat.le_trans hms.le_lastFinishedAt (Nat.le_max_right _ _)

mutual

/-- What others do leaves a release as it is. -/
theorem Underway.moved {own : List FailureId} (hm : Moved own v k v' k') :
    ∀ {r : Resource} {t : Task}, Underway h v k n r t → (∀ f ∈ t.roots, f ∉ own) →
      Underway h v' k' n r t
  | _, _, .leaf index hn hpanic hcarries, _ =>
    .leaf index hn hpanic fun e he f hf => (hcarries e he f hf).mono hm.le
  | _, _, .group index started hn hc hms, hown =>
    .group index started hn (hc.moved hm fun f hf => hown f (by simp [roots, hf]))
      (AllUnderway.moved hm hms fun f hf => hown f (by simp [roots, hf]))

theorem AllUnderway.moved {own : List FailureId} (hm : Moved own v k v' k') :
    ∀ {ms : List Resource} {ts : List Task}, AllUnderway h v k n ms ts →
      (∀ f ∈ rootsOf ts, f ∉ own) → AllUnderway h v' k' n ms ts
  | _, _, .nil, _ => .nil
  | _, _, .cons hu hms, hown =>
    .cons (Underway.moved hm hu fun f hf => hown f (by simp [rootsOf, hf]))
      (AllUnderway.moved hm hms fun f hf => hown f (by simp [rootsOf, hf]))
  | _, _, .done hdone hms, hown => .done hdone (AllUnderway.moved hm hms hown)

end

mutual

/-- The roots of a release under way exist. -/
theorem Underway.root_lt_size : ∀ {r : Resource} {t : Task}, Underway h v k n r t →
    ∀ f ∈ t.roots, f < k.size
  | _, _, .leaf _ _ _ _, f, hf => by simp [roots] at hf
  | _, _, .group _ _ _ hc hms, f, hf => by
    rcases List.mem_append.mp hf with hf | hf
    · exact AllUnderway.root_lt_size hms f hf
    · exact hc.root_lt_size hf

theorem AllUnderway.root_lt_size : ∀ {ms : List Resource} {ts : List Task},
    AllUnderway h v k n ms ts → ∀ f ∈ rootsOf ts, f < k.size
  | _, _, .nil, f, hf => by simp [rootsOf] at hf
  | _, _, .cons hm hms, f, hf => by
    rcases List.mem_append.mp hf with hf | hf
    · exact Underway.root_lt_size hm f hf
    · exact AllUnderway.root_lt_size hms f hf
  | _, _, .done _ hms, f, hf => AllUnderway.root_lt_size hms f hf

end

/-! ### What a step does to what it owns -/

/-- A step of releases that own the roots in `own` and then those in `own'`: only
their roots and new failures are changed, and the roots stay distinct. -/
structure Advance (h : Heap) (own : List FailureId) (v : View) (k : Heap) (v' : View) (k' : Heap)
    (own' : List FailureId) : Prop where
  settled : Settled h v' k'
  moved : Moved own v k v' k'
  nodup : own'.Nodup
  renewed : ∀ f ∈ own', f ∈ own ∨ k.size ≤ f
  lt_size : ∀ f ∈ own', f < k'.size

namespace Advance

variable {a a' b b' : List FailureId} {v₁ v₂ : View} {k₁ k₂ : Heap}

theorem refl (hs : Settled h v k) (ha : a.Nodup) (hlt : ∀ f ∈ a, f < k.size) :
    Advance h a v k v k a :=
  ⟨hs, .refl a v k, ha, fun _ hf => .inl hf, hlt⟩

theorem trans (h₁ : Advance h a v k v₁ k₁ a') (h₂ : Advance h a' v₁ k₁ v₂ k₂ b) :
    Advance h a v k v₂ k₂ b where
  settled := h₂.settled
  moved := h₁.moved.trans h₂.moved (fun _ hf => hf) h₁.renewed
  nodup := h₂.nodup
  renewed f hf := by
    rcases h₂.renewed f hf with hf | hle
    · exact h₁.renewed f hf
    · exact .inr (Nat.le_trans h₁.moved.size_le hle)
  lt_size := h₂.lt_size

/-- After a step, what it owns is still apart from what others own. -/
theorem apart (h₁ : Advance h a v k v₁ k₁ a') (hab : (a ++ b).Nodup)
    (hb : ∀ f ∈ b, f < k.size) : ∀ f ∈ a', f ∉ b := by
  intro f hf hfb
  rcases h₁.renewed f hf with hfa | hle
  · exact (List.nodup_append.mp hab).2.2 f hfa f hfb rfl
  · exact Nat.lt_irrefl _ (Nat.lt_of_lt_of_le (hb f hfb) hle)

/-- A step of one part and then a step of the other. -/
theorem append (h₁ : Advance h a v k v₁ k₁ a') (h₂ : Advance h b v₁ k₁ v₂ k₂ b')
    (hab : (a ++ b).Nodup) (hb : ∀ f ∈ b, f < k.size) :
    Advance h (a ++ b) v k v₂ k₂ (a' ++ b') where
  settled := h₂.settled
  moved := h₁.moved.trans h₂.moved (fun _ hf => List.mem_append_left b hf)
    fun _ hf => .inl (List.mem_append_right a hf)
  nodup := by
    refine List.nodup_append.mpr ⟨h₁.nodup, h₂.nodup, ?_⟩
    rintro f hfa _ hfb rfl
    rcases h₂.renewed f hfb with hfb | hle
    · exact h₁.apart hab hb f hfa hfb
    · exact Nat.lt_irrefl _ (Nat.lt_of_lt_of_le (h₁.lt_size f hfa) hle)
  renewed f hf := by
    rcases List.mem_append.mp hf with hf | hf
    · exact (h₁.renewed f hf).imp_left (List.mem_append_left b)
    · exact (h₂.renewed f hf).imp (List.mem_append_right a) (Nat.le_trans h₁.moved.size_le)
  lt_size f hf := by
    rcases List.mem_append.mp hf with hf | hf
    · exact Nat.lt_of_lt_of_le (h₁.lt_size f hf) h₂.moved.size_le
    · exact h₂.lt_size f hf

end Advance

/-! ### One poll -/

/-- How the release of a resource stands once it has been polled one more time
than `n`. -/
inductive Finding (h : Heap) (v : View) (k : Heap) (n : Nat) (r : Resource) : Polled → Prop where
  | pending {t : Task} (hu : Underway h v k (n + 1) r t) : Finding h v k n r (.pending t)
  | succeeded (hn : r.finishedAt = n) (hr : r.fails = false) :
      Finding h v k n r (.finished (.ok ()))
  | failed {e : ErrorValue} (hn : r.finishedAt = n) (hr : r.fails = true)
      (he : FailsWith h v r e) (hcarries : ∀ f, e.failure? = some f → v.Knows f) :
      Finding h v k n r (.finished (.error e))

/-- The roots of what a poll leaves. -/
def rootsLeft : Polled → List FailureId
  | .pending t => t.roots
  | .finished _ => []

/-- The failing ones among several resources that finish in a poll. -/
def failingAt (n : Nat) (ms : List Resource) : List Resource :=
  (ms.filter fails).filter (·.finishedAt = n)

theorem failingAt_cons_of_ne {m : Resource} (hm : m.finishedAt ≠ n) (ms : List Resource) :
    failingAt n (m :: ms) = failingAt n ms := by
  cases hf : m.fails <;> simp [failingAt, hf, hm]

theorem failingAt_cons_of_eq {m : Resource} (hm : m.finishedAt = n) (ms : List Resource) :
    failingAt n (m :: ms) = [m].filter fails ++ failingAt n ms := by
  cases hf : m.fails <;> simp [failingAt, hf, hm]

/-- The failing members that have finished, poll by poll. -/
theorem byRound_succ_fails (n : Nat) (ms : List Resource) :
    byRound finishedAt (n + 1) (ms.filter fails) =
      byRound finishedAt n (ms.filter fails) ++ failingAt n ms :=
  byRound_succ n _

section

variable {c : Collector} {ms : List Resource} {ts : List Task} {message : String} {bound : Nat}
  {recorded : List Resource} {s : Scene Finished}

/-- A group takes note of a finished member. -/
theorem settle_spec {j : Nat} {m : Resource} {result : Except ErrorValue Unit} (name : String)
    (member : Task) (hs : Settled h v s.heap)
    (hc : Recording h v s.heap message bound recorded c) (hms : AllUnderway h v s.heap j ms ts)
    (hnodup : (rootsOf ts ++ c.primary.toList).Nodup)
    (hm : Finding h v s.heap n m (.finished result)) :
    ∃ c' u v', (settle name c member result).run s = .ok c' u ∧
      Advance h (rootsOf ts ++ c.primary.toList) v s.heap v' u.heap
        (rootsOf ts ++ c'.primary.toList) ∧
      Recording h v' u.heap message bound (recorded ++ [m].filter fails) c' ∧
      AllUnderway h v' u.heap j ms ts := by
  obtain ⟨hts, hroot, hapart⟩ := List.nodup_append.mp hnodup
  have hstill : Advance h (rootsOf ts) v s.heap v s.heap (rootsOf ts) :=
    .refl hs hts hms.root_lt_size
  cases hm with
  | succeeded _ hr =>
    refine ⟨c, _, v, run_settle_ok s name c member,
      hstill.append (.refl hs hroot fun _ => hc.root_lt_size) hnodup fun _ => hc.root_lt_size,
      ?_, hms⟩
    simpa [hr] using hc
  | @failed e _ hr he hcarries =>
    let event : Event := .memberFailed name member.index member.name (e.display s.heap)
    obtain ⟨t, v', hrun, hs', hmoved, hc', hnew⟩ :=
      Recording.addError (s := ⟨s.heap, s.log.push event, c⟩) hs hc he hcarries
    have hrun' : (settle name c member (.error e)).run s =
        .ok t.focus { s with heap := t.heap, log := t.log } := by
      rw [run_settle_error]
      simp only [event] at hrun
      simp only [hrun]
    have hadvance : Advance h c.primary.toList v s.heap v' t.heap t.focus.primary.toList :=
      ⟨hs', hmoved, by cases t.focus.primary <;> simp, hnew, fun _ => hc'.root_lt_size⟩
    refine ⟨t.focus, _, v', hrun', hstill.append hadvance hnodup fun _ => hc.root_lt_size, ?_, ?_⟩
    · simpa [hr] using hc'
    · exact hms.moved hmoved fun f hf hfc => hapart f hf f hfc rfl

/-- A group all of whose members are finished finishes too. -/
theorem conclude_spec {name : String} {limit : Nat} {members : List Resource}
    (hs : Settled h v s.heap) (hn : n ≤ lastFinishedAt members)
    (hc : Recording h v s.heap (groupMessage name members.length) limit
      (byRound finishedAt (n + 1) (members.filter fails)) c)
    (hall : ∀ m ∈ members, m.finishedAt < n + 1) :
    ∃ result u v', (conclude name c).run s = .ok result u ∧
      Advance h c.primary.toList v s.heap v' u.heap [] ∧
      Finding h v' u.heap n (.group name limit members) (.finished result) := by
  have hlast : lastFinishedAt members = n :=
    Nat.le_antisymm (lastFinishedAt_le fun m hm => Nat.le_of_lt_succ (hall m hm)) hn
  rw [← failing_eq_byRound hall] at hc
  have hrun := run_conclude s name hc.isOpen
  cases hp : c.primary with
  | none =>
    rw [hp] at hrun
    refine ⟨_, _, v, hrun, ⟨hs, .refl _ v _, .nil, by simp, by simp⟩, .succeeded hlast ?_⟩
    exact failing_eq_nil_iff.mp (hc.nothing hp)
  | some f =>
    rw [hp] at hrun
    obtain ⟨hnew, hv, hfailing, kept, hk, hkept⟩ := hc.root f hp
    -- the root is not attached to any more: it settles
    obtain ⟨v', hle, hf, hothers, hs'⟩ := hs.settle hv hk hkept.knows
    refine ⟨_, _, v', hrun, ⟨hs', ⟨Nat.le_refl _, hle, fun g x hx hg hne => ⟨hx, ?_⟩⟩, .nil,
      by simp, by simp⟩, .failed hlast ?_ ?_ ?_⟩
    · rw [hothers g (by simpa using hne), hg]
    · cases hfails : (ResourceOf.group name limit members).fails with
      | true => rfl
      | false => exact absurd (failing_eq_nil_iff.mpr hfails) hfailing
    · exact .group hnew hf (hkept.mono hle)
    · intro g hg
      obtain rfl : f = g := Option.some.inj hg
      exact ⟨_, hf⟩

/-- Once its members have been polled a group finishes, or goes on. -/
theorem remain_spec {name : String} {limit : Nat} {members : List Resource} (index : Nat)
    (hs : Settled h v s.heap) (hn : n ≤ lastFinishedAt members)
    (hc : Recording h v s.heap (groupMessage name members.length) limit
      (byRound finishedAt (n + 1) (members.filter fails)) c)
    (hms : AllUnderway h v s.heap (n + 1) members ts)
    (hnodup : (rootsOf ts ++ c.primary.toList).Nodup) :
    ∃ polled u v', (remain index name members.length c ts).run s = .ok polled u ∧
      Advance h (rootsOf ts ++ c.primary.toList) v s.heap v' u.heap (rootsLeft polled) ∧
      Finding h v' u.heap n (.group name limit members) polled := by
  cases ts with
  | nil =>
    obtain ⟨result, u, v', hrun, hadvance, hfinding⟩ := conclude_spec hs hn hc hms.finished
    refine ⟨.finished result, u, v', ?_, hadvance, hfinding⟩
    rw [run_remain_nil, hrun]
  | cons t ts =>
    refine ⟨_, s, v, run_remain_cons s index name members.length c t ts, ?_, .pending ?_⟩
    · refine .refl hs hnodup fun f hf => ?_
      rcases List.mem_append.mp hf with hf | hf
      · exact hms.root_lt_size f hf
      · exact hc.root_lt_size hf
    · exact .group index true hms.le_lastFinishedAt hc hms

end

section

variable (deeper : Task → Act Finished Polled)

mutual

/-- **What a poll does to a release that is under way.** -/
theorem poll_spec : ∀ (r : Resource) {n : Nat} {v : View} {t : Task} {s : Scene Finished},
    Settled h v s.heap → Underway h v s.heap n r t → t.roots.Nodup →
    ∃ polled u v', (t.pollWith narrow deeper).run s = .ok polled u ∧
      Advance h t.roots v s.heap v' u.heap (rootsLeft polled) ∧
      Finding h v' u.heap n r polled
  | .leaf name pending ending, n, v, _, s, hs, .leaf index hn hpanic hcarries, _ => by
    have hstill : Advance h [] v s.heap v s.heap [] := .refl hs .nil (by simp)
    cases hleft : pending - n with
    | succ left =>
      refine ⟨_, s, v, run_poll_pending s narrow deeper index name left ending, hstill,
        .pending ?_⟩
      obtain rfl : left = pending - (n + 1) := by omega
      exact .leaf index (by omega) hpanic hcarries
    | zero =>
      have hfinished : finishedAt (.leaf name pending ending) = n := by
        rw [finishedAt]
        omega
      have hrun := run_poll_finished s narrow deeper index name ending
      cases ending with
      | succeeds =>
        exact ⟨_, _, v, hrun, hstill, .succeeded hfinished rfl⟩
      | fails e =>
        exact ⟨_, _, v, hrun, hstill,
          .failed hfinished rfl (.leaf name pending e) (hcarries e rfl)⟩
      | panics message => exact absurd rfl (hpanic message)
  | .group name limit members, n, v, .group _ _ _ _ c ts, s, hs,
      .group index started hn hc hms, hnodup => by
    let u : Scene Finished :=
      if started then s else { s with log := s.log.push (.groupStarted name members.length) }
    have hheap : u.heap = s.heap := by cases started <;> rfl
    have hrun := run_poll_group s narrow deeper index name members.length rfl started c ts
    rw [← hheap] at hs hc hms
    obtain ⟨c', ts', w, v', hpoll, hadvance, hc', hms'⟩ :=
      pollMembers_spec members name [] hs hc hms hnodup
    rw [List.reverse_nil, List.nil_append] at hpoll
    rw [hpoll] at hrun
    rw [← byRound_succ_fails] at hc'
    obtain ⟨polled, x, v'', hremain, hlast, hfinding⟩ :=
      remain_spec index hadvance.settled hn hc' hms' hadvance.nodup
    simp only [hremain] at hrun
    rw [← hheap]
    exact ⟨polled, x, v'', hrun, hadvance.trans hlast, hfinding⟩

/-- What polling the members of a group does to them and to its collector. -/
theorem pollMembers_spec : ∀ (ms : List Resource) {n : Nat} {v : View} {c : Collector}
    {ts : List Task} {message : String} {bound : Nat} {recorded : List Resource}
    {s : Scene Finished} (name : String) (before : List Task),
    Settled h v s.heap → Recording h v s.heap message bound recorded c →
    AllUnderway h v s.heap n ms ts → (rootsOf ts ++ c.primary.toList).Nodup →
    ∃ c' ts' u v', (pollMembers narrow deeper name c before ts).run s =
        .ok (c', before.reverse ++ ts') u ∧
      Advance h (rootsOf ts ++ c.primary.toList) v s.heap v' u.heap
        (rootsOf ts' ++ c'.primary.toList) ∧
      Recording h v' u.heap message bound (recorded ++ failingAt n ms) c' ∧
      AllUnderway h v' u.heap (n + 1) ms ts'
  | [], n, v, c, _, message, bound, recorded, s, name, before, hs, hc, .nil, hnodup => by
    refine ⟨c, [], s, v, ?_, .refl hs hnodup fun f hf => hc.root_lt_size hf, ?_, .nil⟩
    · rw [run_pollMembers_nil, List.append_nil]
    · rw [failingAt, List.filter_nil, List.filter_nil, List.append_nil]
      exact hc
  | m :: ms, n, v, c, ts, message, bound, recorded, s, name, before, hs, hc, .done hdone hms,
      hnodup => by
    -- the member finished in an earlier poll
    obtain ⟨c', ts', u, v', hrun, hadvance, hc', hms'⟩ :=
      pollMembers_spec ms name before hs hc hms hnodup
    refine ⟨c', ts', u, v', hrun, hadvance, ?_, .done (Nat.lt_succ_of_lt hdone) hms'⟩
    rw [failingAt_cons_of_ne (Nat.ne_of_lt hdone)]
    exact hc'
  | m :: ms, n, v, c, t :: ts, message, bound, recorded, s, name, before, hs, hc,
      .cons hm hms, hnodup => by
    -- the member is polled: its siblings and the collector stay as they were
    rw [rootsOf, List.append_assoc] at hnodup
    obtain ⟨hts, hrest, hapart⟩ := List.nodup_append.mp hnodup
    obtain ⟨polled, u, v₁, hpoll, hadvance₁, hfinding⟩ := poll_spec m hs hm hts
    have hlt : ∀ f ∈ rootsOf ts ++ c.primary.toList, f < s.heap.size := by
      intro f hf
      rcases List.mem_append.mp hf with hf | hf
      · exact hms.root_lt_size f hf
      · exact hc.root_lt_size hf
    have hc₁ := hc.moved hadvance₁.moved fun f hf hft =>
      hapart f hft f (List.mem_append_right _ hf) rfl
    have hms₁ := hms.moved hadvance₁.moved fun f hf hft =>
      hapart f hft f (List.mem_append_left _ hf) rfl
    have hrun := run_pollMembers_cons s narrow deeper name c before ts t
    rw [hpoll] at hrun
    rw [rootsOf, List.append_assoc]
    cases polled with
    | pending t' =>
      obtain ⟨c', ts', w, v₂, hrest', hadvance₂, hc₂, hms₂⟩ :=
        pollMembers_spec ms name (t' :: before) hadvance₁.settled hc₁ hms₁ hrest
      cases hfinding with
      | pending hu =>
        have hu' := hu.moved hadvance₂.moved (hadvance₁.apart hnodup hlt)
        have hne : m.finishedAt ≠ n := fun he => by
          have hle := hu.le_finishedAt
          omega
        refine ⟨c', t' :: ts', w, v₂, ?_, ?_, ?_, .cons hu' hms₂⟩
        · rw [hrun]
          simpa using hrest'
        · rw [rootsOf, List.append_assoc]
          exact hadvance₁.append hadvance₂ hnodup hlt
        · rw [failingAt_cons_of_ne hne]
          exact hc₂
    | finished result =>
      have hfinished : m.finishedAt = n := by
        cases hfinding with
        | succeeded hn => exact hn
        | failed hn => exact hn
      obtain ⟨c₁, w, v₂, hsettle, hadvance₂, hc₂, hms₂⟩ :=
        settle_spec name t hadvance₁.settled hc₁ hms₁ hrest hfinding
      obtain ⟨c', ts', x, v₃, hrest', hadvance₃, hc₃, hms₃⟩ :=
        pollMembers_spec ms name before hadvance₂.settled hc₂ hms₂ hadvance₂.nodup
      refine ⟨c', ts', x, v₃, ?_, hadvance₁.append (hadvance₂.trans hadvance₃) hnodup hlt, ?_,
        .done (by omega) hms₃⟩
      · rw [hrun]
        simp only [hsettle]
        exact hrest'
      · rw [failingAt_cons_of_eq hfinished, ← List.append_assoc]
        exact hc₃

end

end

end Task
end Teardown
