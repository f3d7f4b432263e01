/-
# What a panic unwinds

Up to the poll in which a leaf panics, a release goes on as any other: the members of its
groups finish when the tree says, and each group has recorded the failing ones that have
finished so far (`Task.Running`). The poll with the panic ends at the first leaf in it
that panics. What is then dropped are the groups that are unfinished, and since dropping
changes no failure, each of them that has recorded something tells the log what it keeps
of that (`Task.tells_drop`). So no failure that was recorded is lost without a word
(`panic_unwinds`).

Key definitions: `Task.Running`, `Task.Tells`, `Task.Stepped`, `Task.MembersStepped`.
Key theorems: `Task.tells_drop`, `Task.tells_dropSiblings`, `Task.stepped_poll`,
`Task.finish_unwinds`, `panic_unwinds`.
-/
import Teardown.Proofs.Release.Unfinished

namespace Teardown

open ResourceOf

namespace Task

/-! ### Releases that may panic yet -/

mutual

/-- After `n` polls, none of which has panicked, the release of a resource is under way. -/
inductive Running (h : Heap) (v : View) (k : Heap) (n : Nat) : Resource → Task → Prop where
  | leaf {name : String} {pending : Nat} {ending : Ending} (index : Nat) (hn : n ≤ pending)
      (hcarries : ∀ e, ending = .fails e → ∀ f, e.failure? = some f → v.Knows f) :
      Running h v k n (.leaf name pending ending) (.leaf index name (pending - n) ending)
  | group {name : String} {limit : Nat} {members : List Resource} {c : Collector}
      {ts : List Task} (index : Nat) (started : Bool) (hn : n ≤ lastFinishedAt members)
      (hc : Recording h v k (groupMessage name members.length) limit
        (byRound finishedAt n (members.filter fails)) c)
      (hwarns : c.warnsOnDrop = true) (hms : AllRunning h v k n members ts) :
      Running h v k n (.group name limit members)
        (.group index name members.length started c ts)

/-- After `n` polls the releases of several resources are under way, but for those that
have finished. -/
inductive AllRunning (h : Heap) (v : View) (k : Heap) (n : Nat) :
    List Resource → List Task → Prop where
  | nil : AllRunning h v k n [] []
  | cons {m : Resource} {ms : List Resource} {t : Task} {ts : List Task}
      (hm : Running h v k n m t) (hms : AllRunning h v k n ms ts) :
      AllRunning h v k n (m :: ms) (t :: ts)
  | done {m : Resource} {ms : List Resource} {ts : List Task} (hm : m.finishedAt < n)
      (hms : AllRunning h v k n ms ts) : AllRunning h v k n (m :: ms) ts

end

variable {h k k' : Heap} {v v' : View} {n : Nat}

theorem Running.le_finishedAt {r : Resource} {t : Task} (hr : Running h v k n r t) :
    n ≤ r.finishedAt := by
  cases hr with
  | leaf _ hn => exact hn
  | group _ _ hn => exact hn

theorem AllRunning.finished : ∀ {ms : List Resource}, AllRunning h v k n ms [] →
    ∀ m ∈ ms, m.finishedAt < n
  | _, .nil, _, hm => by simp at hm
  | _, .done hdone hms, m, hm => by
    rcases List.mem_cons.mp hm with rfl | hm
    · exact hdone
    · exact hms.finished m hm

theorem AllRunning.le_lastFinishedAt : ∀ {ms : List Resource} {t : Task} {ts : List Task},
    AllRunning h v k n ms (t :: ts) → n ≤ lastFinishedAt ms
  | _, _, _, .cons hm _ => Nat.le_trans hm.le_finishedAt (Nat.le_max_left _ _)
  | _, _, _, .done _ hms => Nat.le_trans hms.le_lastFinishedAt (Nat.le_max_right _ _)

mutual

/-- What others do leaves a release as it is. -/
theorem Running.moved {own : List FailureId} (hm : Moved own v k v' k') :
    ∀ {r : Resource} {t : Task}, Running h v k n r t → (∀ f ∈ t.roots, f ∉ own) →
      Running h v' k' n r t
  | _, _, .leaf index hn hcarries, _ =>
    .leaf index hn fun e he f hf => (hcarries e he f hf).mono hm.le
  | _, _, .group index started hn hc hwarns hms, hown =>
    .group index started hn (hc.moved hm fun f hf => hown f (by simp [roots, hf])) hwarns
      (AllRunning.moved hm hms fun f hf => hown f (by simp [roots, hf]))

theorem AllRunning.moved {own : List FailureId} (hm : Moved own v k v' k') :
    ∀ {ms : List Resource} {ts : List Task}, AllRunning h v k n ms ts →
      (∀ f ∈ rootsOf ts, f ∉ own) → AllRunning h v' k' n ms ts
  | _, _, .nil, _ => .nil
  | _, _, .cons hr hms, hown =>
    .cons (Running.moved hm hr fun f hf => hown f (by simp [rootsOf, hf]))
      (AllRunning.moved hm hms fun f hf => hown f (by simp [rootsOf, hf]))
  | _, _, .done hdone hms, hown => .done hdone (AllRunning.moved hm hms hown)

end

mutual

theorem Running.root_lt_size : ∀ {r : Resource} {t : Task}, Running h v k n r t →
    ∀ f ∈ t.roots, f < k.size
  | _, _, .leaf _ _ _, f, hf => by simp [roots] at hf
  | _, _, .group _ _ _ hc _ hms, f, hf => by
    rcases List.mem_append.mp hf with hf | hf
    · exact AllRunning.root_lt_size hms f hf
    · exact hc.root_lt_size hf

theorem AllRunning.root_lt_size : ∀ {ms : List Resource} {ts : List Task},
    AllRunning h v k n ms ts → ∀ f ∈ rootsOf ts, f < k.size
  | _, _, .nil, f, hf => by simp [rootsOf] at hf
  | _, _, .cons hm hms, f, hf => by
    rcases List.mem_append.mp hf with hf | hf
    · exact Running.root_lt_size hm f hf
    · exact AllRunning.root_lt_size hms f hf
  | _, _, .done _ hms, f, hf => AllRunning.root_lt_size hms f hf

end

/-! ### Dropping what is left -/

/-- An act that changes no failure and tells the log these reports of failures that are
not raised. -/
def Tells (h : Heap) (gs : List Unfinished) (s : Scene Finished) (act : Act Finished Unit) : Prop :=
  ∃ u told, act.run s = .ok () u ∧ u.heap = s.heap ∧
    unraisedIn u.log = unraisedIn s.log ++ told ∧ Told h s.heap gs told

theorem tells_pure (s : Scene Finished) : Tells h [] s (pure ()) :=
  ⟨s, [], rfl, rfl, by simp, .nil⟩

/-- One act and then another. -/
theorem Tells.bind {gs gs' : List Unfinished} {s : Scene Finished} {act act' : Act Finished Unit}
    (ha : Tells h gs s act)
    (ha' : ∀ u : Scene Finished, u.heap = s.heap → Tells h gs' u act') :
    Tells h (gs ++ gs') s (do act; act') := by
  obtain ⟨u, told, hu, hheap, hlog, htold⟩ := ha
  obtain ⟨w, told', hw, hheap', hlog', htold'⟩ := ha' u hheap
  refine ⟨w, told ++ told', ?_, hheap'.trans hheap, ?_, htold.append (hheap ▸ htold')⟩
  · rw [EStateM.run_bind, hu]
    exact hw
  · rw [hlog', hlog, List.append_assoc]

/-- The collector of an unfinished group tells of what it keeps. -/
theorem tells_dropCollector {c : Collector} {s : Scene Finished} (g : Unfinished)
    (hs : Settled h v s.heap)
    (hc : Recording h v s.heap (groupMessage g.name g.size) g.limit g.recorded c)
    (hwarns : c.warnsOnDrop = true) :
    Tells h [g] s (do let _ ← withCollector c Collector.drop) := by
  have hrun : (do let _ ← withCollector c Collector.drop : Act Finished Unit).run s =
      match (withCollector c Collector.drop).run s with
      | .ok _ u => .ok () u
      | .error payload u => .error payload u := by
    rw [EStateM.run_bind]
    cases (withCollector c Collector.drop).run s <;> rfl
  rw [run_withCollector, Collector.run_drop] at hrun
  cases hp : c.primary with
  | none =>
    simp only [hp] at hrun
    exact ⟨s, [], hrun, rfl, by simp, .silent (hc.nothing hp) .nil⟩
  | some f =>
    simp only [hp, hwarns, hc.isOpen, Bool.not_false, Bool.and_self, if_true] at hrun
    obtain ⟨hnew, -, hfailed, kept, hk, hkept⟩ := hc.root f hp
    exact ⟨_, _, hrun, rfl, unraisedIn_push _ _,
      .tells hfailed hnew hk (hkept.mono hs.stands) .nil⟩

mutual

/-- **Dropping a release that is under way** tells of its unfinished groups. -/
theorem tells_drop : ∀ {r : Resource} {t : Task} {s : Scene Finished}, Settled h v s.heap →
    Running h v s.heap n r t → Tells h (r.unfinished n) s (t.drop narrow)
  | _, _, s, _, .leaf _ _ _ => tells_pure s
  | .group name limit members, _, s, hs, .group index _ hn hc hwarns hms => by
    have hgroups : (ResourceOf.group name limit members).unfinished n =
        unfinishedIn n members ++
          [⟨name, members.length, limit, byRound finishedAt n (members.filter fails)⟩] :=
      if_neg (Nat.not_lt_of_le hn)
    rw [hgroups, drop]
    refine Tells.bind (tells_dropInOrder hs hms) fun u hu => ?_
    exact tells_dropCollector ⟨name, members.length, limit, _⟩ (hu ▸ hs) (hu ▸ hc) hwarns

theorem tells_dropInOrder : ∀ {ms : List Resource} {ts : List Task} {s : Scene Finished},
    Settled h v s.heap → AllRunning h v s.heap n ms ts →
    Tells h (unfinishedIn n ms) s (dropInOrder narrow ts)
  | _, _, s, _, .nil => tells_pure s
  | _, _, s, hs, .cons hm hms => by
    rw [dropInOrder]
    exact Tells.bind (tells_drop hs hm) fun u hu => tells_dropInOrder (hu ▸ hs) (hu ▸ hms)
  | _, _, s, hs, .done hdone hms => by
    rw [unfinishedIn, unfinished_of_lt hdone, List.nil_append]
    exact tells_dropInOrder hs hms

end

theorem dropInOrder_append (wide : Width) (ts ts' : List Task) :
    dropInOrder wide (ts ++ ts') = (do dropInOrder wide ts; dropInOrder wide ts') := by
  induction ts with
  | nil => simp [dropInOrder]
  | cons t ts ih => simp [dropInOrder, ih]

/-- When a member of a group has panicked, its siblings are dropped, those that were polled
in this poll and those that were not, and then the collector of the group. -/
theorem tells_dropSiblings {ls rs : List Resource} {tl tr : List Task} {c : Collector}
    {s : Scene Finished} (g : Unfinished) (hs : Settled h v s.heap)
    (htl : AllRunning h v s.heap (n + 1) ls tl) (htr : AllRunning h v s.heap n rs tr)
    (hc : Recording h v s.heap (groupMessage g.name g.size) g.limit g.recorded c)
    (hwarns : c.warnsOnDrop = true) :
    Tells h (unfinishedIn (n + 1) ls ++ unfinishedIn n rs ++ [g]) s
      (do dropInOrder narrow (tl ++ tr); let _ ← withCollector c Collector.drop) := by
  rw [dropInOrder_append]
  refine Tells.bind (Tells.bind (tells_dropInOrder hs htl) fun u hu => ?_) fun u hu => ?_
  · exact tells_dropInOrder (hu ▸ hs) (hu ▸ htr)
  · exact tells_dropCollector g (hu ▸ hs) (hu ▸ hc) hwarns

/-! ### One poll -/

/-- What a poll that is not the last one leaves, or how the release ended in it. -/
inductive Found (h : Heap) (v : View) (k : Heap) (n : Nat) (r : Resource) : Polled → Prop where
  | pending {t : Task} (hr : Running h v k (n + 1) r t) : Found h v k n r (.pending t)
  | finished {result : Except ErrorValue Unit} (hr : Finding h v k n r (.finished result)) :
      Found h v k n r (.finished result)

/-- How the poll of a resource that has been polled `n` times before ends, in a release
that owns the roots in `own`. If no leaf panics in it, the release goes on or finishes,
and the log is told of nothing that is dropped; else it is told of the groups that are
unfinished. -/
inductive Stepped (h : Heap) (own : List FailureId) (v : View) (s : Scene Finished) (n : Nat)
    (r : Resource) : EStateM.Result Payload (Scene Finished) Polled → Prop where
  | calm {polled : Polled} {u : Scene Finished} {v' : View} (hr : r.panicsAt n = false)
      (hlog : unraisedIn u.log = unraisedIn s.log)
      (hadvance : Advance h own v s.heap v' u.heap (rootsLeft polled))
      (hfound : Found h v' u.heap n r polled) : Stepped h own v s n r (.ok polled u)
  | panicked {payload : Payload} {u : Scene Finished} {v' : View} {told : List Report}
      (hr : r.panicsAt n = true) (hs : Settled h v' u.heap) (hmoved : Moved own v s.heap v' u.heap)
      (hlog : unraisedIn u.log = unraisedIn s.log ++ told)
      (htold : Told h u.heap (r.unwound n) told) :
      Stepped h own v s n r (.error payload u)

/-- What comes after a step in which nothing is dropped. -/
theorem Stepped.after {own own' : List FailureId} {s u : Scene Finished} {r : Resource}
    {result : EStateM.Result Payload (Scene Finished) Polled}
    (hlog : unraisedIn u.log = unraisedIn s.log)
    (hadvance : Advance h own v s.heap v' u.heap own') (hr : Stepped h own' v' u n r result) :
    Stepped h own v s n r result := by
  cases hr with
  | calm hr hlog' hadvance' hfound =>
    exact .calm hr (hlog'.trans hlog) (hadvance.trans hadvance') hfound
  | panicked hr hs hmoved hlog' htold =>
    exact .panicked hr hs (hadvance.moved.trans hmoved (fun _ hf => hf) hadvance.renewed)
      (hlog'.trans (by rw [hlog])) htold

/-- How the polls of the members of a group end, which has recorded `recorded` before and
of which the tasks in `before` have been polled already. -/
inductive MembersStepped (h : Heap) (message : String) (bound : Nat) (recorded : List Resource)
    (own : List FailureId) (v : View) (s : Scene Finished) (n : Nat) (before : List Task)
    (ms : List Resource) :
    EStateM.Result Payload (Scene Finished) (Collector × List Task) → Prop where
  | calm {c : Collector} {ts : List Task} {u : Scene Finished} {v' : View}
      (hr : ∀ m ∈ ms, m.panicsAt n = false) (hlog : unraisedIn u.log = unraisedIn s.log)
      (hadvance : Advance h own v s.heap v' u.heap (rootsOf ts ++ c.primary.toList))
      (hc : Recording h v' u.heap message bound (recorded ++ failingAt n ms) c)
      (hwarns : c.warnsOnDrop = true) (hms : AllRunning h v' u.heap (n + 1) ms ts) :
      MembersStepped h message bound recorded own v s n before ms (.ok (c, before.reverse ++ ts) u)
  /-- The member `m` panics. What is left then is dropped. -/
  | panicked {ls rs : List Resource} {m : Resource} {tl tr : List Task} {c : Collector}
      (payload : Payload) {u : Scene Finished} {v' : View} {told : List Report}
      {r : EStateM.Result Payload (Scene Finished) (Collector × List Task)}
      (hms : ms = ls ++ m :: rs) (hls : ∀ l ∈ ls, l.panicsAt n = false) (hm : m.panicsAt n = true)
      (hr : r = (giveUp c (dropInOrder narrow (before.reverse ++ (tl ++ tr))) payload).run u)
      (hs : Settled h v' u.heap) (hmoved : Moved own v s.heap v' u.heap)
      (hc : Recording h v' u.heap message bound (recorded ++ failingAt n ls) c)
      (hwarns : c.warnsOnDrop = true) (htl : AllRunning h v' u.heap (n + 1) ls tl)
      (htr : AllRunning h v' u.heap n rs tr)
      (hlog : unraisedIn u.log = unraisedIn s.log ++ told)
      (htold : Told h u.heap (m.unwound n) told) :
      MembersStepped h message bound recorded own v s n before ms r

namespace MembersStepped

variable {own a b b' : List FailureId} {v₁ v₂ : View} {message : String} {bound : Nat}
  {recorded : List Resource} {s u w : Scene Finished} {before : List Task} {m : Resource}
  {ms : List Resource} {r : EStateM.Result Payload (Scene Finished) (Collector × List Task)}

/-- A member that finished in an earlier poll is not polled. -/
theorem skips (hdone : m.finishedAt < n)
    (hrest : MembersStepped h message bound recorded own v s n before ms r) :
    MembersStepped h message bound recorded own v s n before (m :: ms) r := by
  have hm : m.panicsAt n = false := panicsAt_of_lt hdone
  cases hrest with
  | calm hr hlog hadvance hc hwarns hms =>
    refine .calm (by simpa [hm] using hr) hlog hadvance ?_ hwarns
      (.done (Nat.lt_succ_of_lt hdone) hms)
    rw [failingAt_cons_of_ne (Nat.ne_of_lt hdone)]
    exact hc
  | @panicked ls rs p tl tr c payload _ _ _ _ hms hls hp hr hs hmoved hc hwarns htl htr hlog htold =>
    have hsplit : m :: ms = (m :: ls) ++ p :: rs := by rw [hms, List.cons_append]
    refine .panicked payload hsplit (by simpa [hm] using hls) hp hr hs hmoved ?_ hwarns
      (.done (Nat.lt_succ_of_lt hdone) htl) htr hlog htold
    rw [failingAt_cons_of_ne (Nat.ne_of_lt hdone)]
    exact hc

/-- A member is polled and goes on, and then the others are polled. -/
theorem goesOn {t : Task} (hcalm : m.panicsAt n = false)
    (hlog : unraisedIn u.log = unraisedIn s.log)
    (hadvance : Advance h a v s.heap v₁ u.heap t.roots) (hm : Running h v₁ u.heap (n + 1) m t)
    (hnodup : (a ++ b).Nodup) (hlt : ∀ f ∈ b, f < s.heap.size)
    (hrest : MembersStepped h message bound recorded b v₁ u n (t :: before) ms r) :
    MembersStepped h message bound recorded (a ++ b) v s n before (m :: ms) r := by
  have hne : m.finishedAt ≠ n := Nat.ne_of_gt hm.le_finishedAt
  have hapart : ∀ f ∈ t.roots, f ∉ b := hadvance.apart hnodup hlt
  have hleft : ∀ ts, (t :: before).reverse ++ ts = before.reverse ++ t :: ts := by simp
  cases hrest with
  | calm hall hlog' hadvance' hc hwarns hms =>
    rw [hleft]
    refine .calm (by simpa [hcalm] using hall) (hlog'.trans hlog) ?_ ?_ hwarns
      (.cons (hm.moved hadvance'.moved hapart) hms)
    · rw [rootsOf, List.append_assoc]
      exact hadvance.append hadvance' hnodup hlt
    · rw [failingAt_cons_of_ne hne]
      exact hc
  | @panicked ls rs p tl tr c payload w v₂ _ _ hms hls hp hr hs hmoved hc hwarns htl htr hlog'
      htold =>
    rw [hleft] at hr
    have hsplit : m :: ms = (m :: ls) ++ p :: rs := by rw [hms, List.cons_append]
    have hrunning : AllRunning h v₂ w.heap (n + 1) (m :: ls) (t :: tl) :=
      .cons (hm.moved hmoved hapart) htl
    refine .panicked payload hsplit (by simpa [hcalm] using hls) hp ?_ hs
      (hadvance.moved.trans hmoved (fun _ hf => List.mem_append_left _ hf)
        fun _ hf => .inl (List.mem_append_right _ hf)) ?_ hwarns hrunning htr
      (hlog'.trans (by rw [hlog])) htold
    · exact hr
    · rw [failingAt_cons_of_ne hne]
      exact hc

/-- A member finishes and is taken note of, and then the others are polled. -/
theorem finishes (hcalm : m.panicsAt n = false) (hm : m.finishedAt = n)
    (hlog : unraisedIn u.log = unraisedIn s.log) (hadvance : Advance h a v s.heap v₁ u.heap [])
    (hlog' : unraisedIn w.log = unraisedIn u.log)
    (hadvance' : Advance h b v₁ u.heap v₂ w.heap b')
    (hnodup : (a ++ b).Nodup) (hlt : ∀ f ∈ b, f < s.heap.size)
    (hrest : MembersStepped h message bound (recorded ++ [m].filter fails) b' v₂ w n before ms r) :
    MembersStepped h message bound recorded (a ++ b) v s n before (m :: ms) r := by
  have hfinished : m.finishedAt < n + 1 := Nat.lt_succ_of_le (Nat.le_of_eq hm)
  cases hrest with
  | calm hall hlog'' hadvance'' hc hwarns hms =>
    refine .calm (by simpa [hcalm] using hall) (hlog''.trans (hlog'.trans hlog))
      (hadvance.append (hadvance'.trans hadvance'') hnodup hlt) ?_ hwarns (.done hfinished hms)
    rw [failingAt_cons_of_eq hm, ← List.append_assoc]
    exact hc
  | @panicked ls rs p tl tr c payload _ _ _ _ hms hls hp hr hs hmoved hc hwarns htl htr hlog''
      htold =>
    have hsplit : m :: ms = (m :: ls) ++ p :: rs := by rw [hms, List.cons_append]
    have hmoved := hadvance'.moved.trans hmoved (fun _ hf => hf) hadvance'.renewed
    refine .panicked payload hsplit (by simpa [hcalm] using hls) hp hr hs
      (hadvance.moved.trans hmoved (fun _ hf => List.mem_append_left _ hf)
        fun _ hf => .inl (List.mem_append_right _ hf)) ?_ hwarns (.done hfinished htl) htr
      (hlog''.trans (by rw [hlog', hlog])) htold
    rw [failingAt_cons_of_eq hm, ← List.append_assoc]
    exact hc

end MembersStepped

section

variable {c : Collector} {ms : List Resource} {ts : List Task} {message : String} {bound : Nat}
  {recorded : List Resource} {s : Scene Finished}

/-- Taking note of a member drops nothing. -/
theorem settle_quiet {name : String} {member : Task} {result : Except ErrorValue Unit}
    {c' : Collector} {u : Scene Finished} (hrun : (settle name c member result).run s = .ok c' u) :
    unraisedIn u.log = unraisedIn s.log ∧ c'.warnsOnDrop = c.warnsOnDrop := by
  cases result with
  | ok =>
    rw [run_settle_ok] at hrun
    cases hrun
    exact ⟨by simp [unraisedIn_push, Event.unraised?], rfl⟩
  | error e =>
    let noted : Scene Collector :=
      ⟨s.heap, s.log.push (.memberFailed name member.index member.name (e.display s.heap)), c⟩
    have hsettle := run_settle_error s name c member e
    have hwarnings := Collector.Moment.warnings_after ⟨.add (·.ofError e), noted⟩
    have hwarns := Collector.Moment.warnsOnDrop_after ⟨.add (·.ofError e), noted⟩
    have hafter : (⟨.add (·.ofError e), noted⟩ : Collector.Moment).after =
        (Collector.addError e).after noted := (Collector.after_addError e noted).symm
    rw [hafter] at hwarnings hwarns
    simp only at hsettle
    cases hadd : (Collector.addError e).run noted with
    | error payload t =>
      simp only [noted] at hadd
      rw [hadd, hrun] at hsettle
      cases hsettle
    | ok a t =>
      rw [Act.after_of_ok hadd] at hwarnings hwarns
      simp only [noted] at hadd
      rw [hadd, hrun] at hsettle
      cases hsettle
      refine ⟨(unraisedIn_of_warnings hwarnings).trans ?_, hwarns⟩
      simp [noted, unraisedIn_push, Event.unraised?]

/-- A group takes note of a finished member. -/
theorem settle_running {j : Nat} {m : Resource} {result : Except ErrorValue Unit} (name : String)
    (member : Task) (hs : Settled h v s.heap)
    (hc : Recording h v s.heap message bound recorded c) (hwarns : c.warnsOnDrop = true)
    (hms : AllRunning h v s.heap j ms ts) (hnodup : (rootsOf ts ++ c.primary.toList).Nodup)
    (hm : Finding h v s.heap n m (.finished result)) :
    ∃ c' u v', (settle name c member result).run s = .ok c' u ∧
      unraisedIn u.log = unraisedIn s.log ∧
      Advance h (rootsOf ts ++ c.primary.toList) v s.heap v' u.heap
        (rootsOf ts ++ c'.primary.toList) ∧
      Recording h v' u.heap message bound (recorded ++ [m].filter fails) c' ∧
      c'.warnsOnDrop = true ∧ AllRunning h v' u.heap j ms ts := by
  obtain ⟨hts, hroot, hapart⟩ := List.nodup_append.mp hnodup
  have hnone : AllUnderway h v s.heap j [] [] := .nil
  obtain ⟨c', u, v', hrun, hadvance, hc', -⟩ :=
    settle_spec name member hs hc hnone hroot hm
  have hadvance : Advance h c.primary.toList v s.heap v' u.heap c'.primary.toList := hadvance
  have hstill : Advance h (rootsOf ts) v s.heap v s.heap (rootsOf ts) :=
    .refl hs hts hms.root_lt_size
  obtain ⟨hlog, hwarns'⟩ := settle_quiet hrun
  exact ⟨c', u, v', hrun, hlog, hstill.append hadvance hnodup fun _ => hc.root_lt_size, hc',
    hwarns'.trans hwarns, hms.moved hadvance.moved fun f hf hfc => hapart f hf f hfc rfl⟩

/-- Ending the release of a group drops nothing. -/
theorem conclude_quiet {name : String} {result : Except ErrorValue Unit} {u : Scene Finished}
    (hc : c.closed = false) (hrun : (conclude name c).run s = .ok result u) :
    unraisedIn u.log = unraisedIn s.log := by
  rw [run_conclude s name hc] at hrun
  cases hp : c.primary with
  | none =>
    rw [hp] at hrun
    cases hrun
    simp [unraisedIn_push, Event.unraised?]
  | some f =>
    rw [hp] at hrun
    cases hrun
    simp [unraisedIn_push, Event.unraised?]

/-- Once its members have been polled without a panic a group finishes, or goes on. -/
theorem stepped_remain {name : String} {limit : Nat} {members : List Resource} (index : Nat)
    (hr : ∀ m ∈ members, m.panicsAt n = false)
    (hs : Settled h v s.heap) (hn : n ≤ lastFinishedAt members)
    (hc : Recording h v s.heap (groupMessage name members.length) limit
      (byRound finishedAt (n + 1) (members.filter fails)) c) (hwarns : c.warnsOnDrop = true)
    (hms : AllRunning h v s.heap (n + 1) members ts)
    (hnodup : (rootsOf ts ++ c.primary.toList).Nodup) :
    Stepped h (rootsOf ts ++ c.primary.toList) v s n (.group name limit members)
      ((remain index name members.length c ts).run s) := by
  have hcalm : (ResourceOf.group name limit members).panicsAt n = false := by
    rw [panicsAt_group]
    simpa using hr
  cases ts with
  | nil =>
    obtain ⟨result, u, v', hrun, hadvance, hfinding⟩ := conclude_spec hs hn hc hms.finished
    have hquiet := conclude_quiet hc.isOpen hrun
    rw [run_remain_nil, hrun]
    exact .calm hcalm hquiet hadvance (.finished hfinding)
  | cons t ts =>
    rw [run_remain_cons]
    refine .calm hcalm rfl (.refl hs hnodup fun f hf => ?_)
      (.pending (.group index true hms.le_lastFinishedAt hc hwarns hms))
    rcases List.mem_append.mp hf with hf | hf
    · exact hms.root_lt_size f hf
    · exact hc.root_lt_size hf

end

/-- A panic goes on when what is left has been dropped. -/
theorem run_giveUp_of_tells {gs : List Unfinished} {α : Type} {c : Collector}
    {before : Act Finished Unit} (payload : Payload) {s : Scene Finished}
    (hdrop : Tells h gs s (do before; let _ ← withCollector c Collector.drop)) :
    ∃ u told, (giveUp c before payload : Act Finished α).run s = .error payload u ∧
      u.heap = s.heap ∧ unraisedIn u.log = unraisedIn s.log ++ told ∧ Told h s.heap gs told := by
  obtain ⟨u, told, hrun, hrest⟩ := hdrop
  have hgive : (giveUp c before payload : Act Finished α) =
      (do (do before; let _ ← withCollector c Collector.drop); throw payload) := by
    simp [giveUp]
  refine ⟨u, told, ?_, hrest⟩
  rw [hgive, EStateM.run_bind, hrun]
  rfl

/-- Whether a leaf panics in a poll. -/
theorem panicsAt_leaf (name : String) (pending : Nat) (ending : Ending) :
    (ResourceOf.leaf name pending ending).panicsAt n = (pending = n && ending.panic?.isSome) := by
  simp [panicsAt, leaves]

section

variable (deeper : Task → Act Finished Polled)

mutual

/-- **What a poll does to a release in which leaves may panic.** -/
theorem stepped_poll : ∀ (r : Resource) {n : Nat} {v : View} {t : Task} {s : Scene Finished},
    Settled h v s.heap → Running h v s.heap n r t → t.roots.Nodup →
    Stepped h t.roots v s n r ((t.pollWith narrow deeper).run s)
  | .leaf name pending ending, n, v, _, s, hs, .leaf index hn hcarries, _ => by
    have hstill : Advance h [] v s.heap v s.heap [] := .refl hs .nil (by simp)
    have hpanics := panicsAt_leaf (n := n) name pending ending
    cases hleft : pending - n with
    | succ left =>
      have hne : pending ≠ n := by omega
      rw [run_poll_pending]
      refine .calm (by simpa [hne] using hpanics) rfl hstill (.pending ?_)
      obtain rfl : left = pending - (n + 1) := by omega
      exact .leaf index (by omega) hcarries
    | zero =>
      have hfinished : finishedAt (.leaf name pending ending) = n := by
        rw [finishedAt]
        omega
      rw [run_poll_finished]
      cases ending with
      | succeeds =>
        exact .calm (by simpa [EndingOf.panic?] using hpanics) rfl hstill
          (.finished (.succeeded hfinished rfl))
      | fails e =>
        exact .calm (by simpa [EndingOf.panic?] using hpanics) rfl hstill
          (.finished (.failed hfinished rfl (.leaf name pending e) (hcarries e rfl)))
      | panics message =>
        have hdue : pending = n := hfinished
        have hquiet : unraisedIn s.log = unraisedIn s.log ++ [] := by simp
        exact .panicked (by simpa [EndingOf.panic?, hdue] using hpanics) hs (.refl [] v _) hquiet
          .nil
  | .group name limit members, n, v, .group _ _ _ _ c ts, s, hs,
      .group index started hn hc hwarns hms, hnodup => by
    let u : Scene Finished :=
      if started then s else { s with log := s.log.push (.groupStarted name members.length) }
    have hheap : u.heap = s.heap := by cases started <;> rfl
    have hlog : unraisedIn u.log = unraisedIn s.log := by
      cases started <;> simp [u, unraisedIn_push, Event.unraised?]
    rw [run_poll_group s narrow deeper index name members.length rfl started c ts]
    rw [← hheap] at hs hc hms
    have hpoll := stepped_members members name [] hs hc hwarns hms hnodup
    show Stepped h _ v s n _ (match (pollMembers narrow deeper name c [] ts).run u with
      | .ok left t => (remain index name members.length left.1 left.2).run t
      | .error payload t => .error payload t)
    generalize (pollMembers narrow deeper name c [] ts).run u = r at hpoll ⊢
    cases hpoll with
    | @calm c' ts' w v' hr hlog' hadvance hc' hwarns' hms' =>
      rw [← byRound_succ_fails] at hc'
      exact .after (hlog'.trans hlog) (hheap ▸ hadvance)
        (stepped_remain index hr hadvance.settled hn hc' hwarns' hms' hadvance.nodup)
    | @panicked ls rs m tl tr c' payload w v' told _ hmembers hls hm hr hs' hmoved hc' hwarns' htl
        htr hlog' htold =>
      obtain ⟨hpolled, hunpolled, hunwound⟩ := split_polled rs hls hm
      rw [← hmembers] at hpolled hunpolled hunwound
      have hpanics : (ResourceOf.group name limit members).panicsAt n = true := by
        rw [panicsAt_group, hmembers]
        simp [hm]
      have hdrop := tells_dropSiblings ⟨name, members.length, limit, _⟩ hs' htl htr hc' hwarns'
      obtain ⟨x, told', hgive, hheap', hlog'', htold'⟩ := run_giveUp_of_tells payload hdrop
      rw [hr, List.reverse_nil, List.nil_append, hgive]
      have hlogs : unraisedIn x.log = unraisedIn s.log ++ (told ++ told') := by
        rw [hlog'', hlog', hlog, List.append_assoc]
      refine .panicked hpanics (hheap' ▸ hs') ?_ hlogs ?_
      · rw [hheap', ← hheap]
        exact hmoved
      · rw [hheap', unwound, hunwound, hpolled, hunpolled]
        simpa only [List.append_assoc] using htold.append htold'

/-- What polling the members of a group does to them and to its collector. -/
theorem stepped_members : ∀ (ms : List Resource) {n : Nat} {v : View} {c : Collector}
    {ts : List Task} {message : String} {bound : Nat} {recorded : List Resource}
    {s : Scene Finished} (name : String) (before : List Task),
    Settled h v s.heap → Recording h v s.heap message bound recorded c →
    c.warnsOnDrop = true → AllRunning h v s.heap n ms ts →
    (rootsOf ts ++ c.primary.toList).Nodup →
    MembersStepped h message bound recorded (rootsOf ts ++ c.primary.toList) v s n before ms
      ((pollMembers narrow deeper name c before ts).run s)
  | [], n, v, c, _, message, bound, recorded, s, name, before, hs, hc, hwarns, .nil, hnodup => by
    rw [run_pollMembers_nil, ← List.append_nil before.reverse]
    refine .calm (by simp) rfl (.refl hs hnodup fun f hf => hc.root_lt_size hf) ?_ hwarns .nil
    rw [failingAt, List.filter_nil, List.filter_nil, List.append_nil]
    exact hc
  | m :: ms, n, v, c, ts, message, bound, recorded, s, name, before, hs, hc, hwarns,
      .done hdone hms, hnodup =>
    .skips hdone (stepped_members ms name before hs hc hwarns hms hnodup)
  | m :: ms, n, v, c, t :: ts, message, bound, recorded, s, name, before, hs, hc, hwarns,
      .cons hm hms, hnodup => by
    -- the member is polled: its siblings and the collector stay as they were
    rw [rootsOf, List.append_assoc] at hnodup
    obtain ⟨hts, hrest, hapart⟩ := List.nodup_append.mp hnodup
    have hlt : ∀ f ∈ rootsOf ts ++ c.primary.toList, f < s.heap.size := by
      intro f hf
      rcases List.mem_append.mp hf with hf | hf
      · exact hms.root_lt_size f hf
      · exact hc.root_lt_size hf
    have hpoll := stepped_poll m hs hm hts
    rw [run_pollMembers_cons, rootsOf, List.append_assoc]
    generalize (t.pollWith narrow deeper).run s = r at hpoll ⊢
    cases hpoll with
    | @panicked payload u v₁ told hp hs₁ hmoved hlog htold =>
      -- the panic is this member's
      have hc₁ := hc.moved hmoved fun f hf hft => hapart f hft f (List.mem_append_right _ hf) rfl
      have hms₁ := hms.moved hmoved fun f hf hft => hapart f hft f (List.mem_append_left _ hf) rfl
      have hnone : AllRunning h v₁ u.heap (n + 1) [] [] := .nil
      refine .panicked payload (List.nil_append _).symm (by simp) hp ?_ hs₁
        (hmoved.trans (.refl [] _ _) (fun _ hf => List.mem_append_left _ hf) (by simp)) ?_ hwarns
        hnone hms₁ hlog htold
      · rfl
      · simpa [failingAt] using hc₁
    | @calm polled u v₁ hcalm hlog hadvance₁ hfound =>
      have hc₁ := hc.moved hadvance₁.moved fun f hf hft =>
        hapart f hft f (List.mem_append_right _ hf) rfl
      have hms₁ := hms.moved hadvance₁.moved fun f hf hft =>
        hapart f hft f (List.mem_append_left _ hf) rfl
      cases hfound with
      | @pending t' hr =>
        exact .goesOn hcalm hlog hadvance₁ hr hnodup hlt
          (stepped_members ms name (t' :: before) hadvance₁.settled hc₁ hwarns hms₁ hrest)
      | @finished result hfinding =>
        have hfinished : m.finishedAt = n := by
          cases hfinding with
          | succeeded hn => exact hn
          | failed hn => exact hn
        obtain ⟨c₁, w, v₂, hsettle, hlog₂, hadvance₂, hc₂, hwarns₂, hms₂⟩ :=
          settle_running name t hadvance₁.settled hc₁ hwarns hms₁ hrest hfinding
        simp only [hsettle]
        exact .finishes hcalm hfinished hlog hadvance₁ hlog₂ hadvance₂ hnodup hlt
          (stepped_members ms name before hadvance₂.settled hc₂ hwarns₂ hms₂ hadvance₂.nodup)

end

end

/-! ### Poll after poll -/

mutual

/-- A release is under way from the start. -/
theorem running_ofResource {h : Heap} : ∀ (index : Nat) (r : Resource), r.CarriesFrom h →
    Running h h.get? h 0 r (Task.ofResource index r)
  | index, .leaf name pending ending, hcarries =>
    .leaf index (Nat.zero_le pending) fun e he f hf =>
      Heap.exists_get? (hcarries ⟨name, pending, ending⟩ (by simp [leaves]) e he f hf)
  | index, .group name limit members, hcarries =>
    .group index false (Nat.zero_le _) (.initial h h.get? h name members.length limit) rfl
      (allRunning_ofMembers 0 members fun m hm leaf hl =>
        hcarries leaf (mem_leaves_group.mpr ⟨m, hm, hl⟩))

theorem allRunning_ofMembers {h : Heap} : ∀ (index : Nat) (ms : List Resource),
    (∀ m ∈ ms, m.CarriesFrom h) → AllRunning h h.get? h 0 ms (Task.ofMembers index ms)
  | _, [], _ => .nil
  | index, m :: ms, hcarries =>
    .cons (running_ofResource index m (hcarries m (by simp)))
      (allRunning_ofMembers (index + 1) ms fun m' hm' => hcarries m' (by simp [hm']))

end

/-- **A release goes on until a leaf panics**, and then tells of what it leaves
unfinished. -/
theorem finish_unwinds {h : Heap} {r : Resource} {p : Nat} (depth : Nat)
    (hbefore : ∀ q < p, r.panicsAt q = false) (hp : r.panicsAt p = true) :
    ∀ (fuel : Nat) {n : Nat} {v : View} {t : Task} {s : Scene Finished}, n ≤ p → p < n + fuel →
    Settled h v s.heap → Running h v s.heap n r t → t.roots.Nodup →
    ∃ payload u told, (t.finish narrow depth fuel).run s = .error payload u ∧
      unraisedIn u.log = unraisedIn s.log ++ told ∧ Told h u.heap (r.unwound p) told := by
  intro fuel
  induction fuel with
  | zero => intros; omega
  | succ fuel ih =>
    intro n v t s hn hfuel hs hr hnodup
    have hpoll : Stepped h t.roots v s n r ((t.poll narrow depth).run s) := by
      cases depth with
      | zero => exact stepped_poll _ r hs hr hnodup
      | succ depth => exact stepped_poll _ r hs hr hnodup
    rw [finish, EStateM.run_bind]
    generalize (t.poll narrow depth).run s = result at hpoll
    cases hpoll with
    | @panicked payload u _ told hpanics _ _ hlog htold =>
      have heq : n = p := by
        rcases Nat.lt_or_eq_of_le hn with hlt | heq
        · rw [hbefore n hlt] at hpanics
          cases hpanics
        · exact heq
      exact ⟨payload, u, told, rfl, hlog, heq ▸ htold⟩
    | @calm polled u v' hcalm hlog hadvance hfound =>
      have hlt : n < p := by
        refine Nat.lt_of_le_of_ne hn fun heq => ?_
        rw [heq, hp] at hcalm
        cases hcalm
      cases hfound with
      | pending hr' =>
        obtain ⟨payload, w, told, hrun, hlog', htold⟩ :=
          ih (by omega) (by omega) hadvance.settled hr' hadvance.nodup
        exact ⟨payload, w, told, hrun, by rw [hlog', hlog], htold⟩
      | finished hfinding =>
        -- the leaf that panics would have been left behind
        have hfinished : r.finishedAt = n := by
          cases hfinding with
          | succeeded hn => exact hn
          | failed hn => exact hn
        rw [panicsAt_of_lt (hfinished ▸ hlt)] at hp
        cases hp

end Task

/-- In the order of their polls, the leaves before the first one that panics are all that
are polled in earlier polls. -/
theorem panicsAt_eq_false_of_split {r : Resource} {before rest : List Leaf} {l : Leaf}
    (horder : r.leaves.mergeSort (keyLe LeafOf.pending) = before ++ l :: rest)
    (hbefore : ∀ x ∈ before, x.ending.panic? = none) {q : Nat} (hq : q < l.pending) :
    r.panicsAt q = false := by
  have hsorted := pairwise_mergeSort LeafOf.pending r.leaves
  rw [horder] at hsorted
  simp only [panicsAt, List.any_eq_false, Bool.and_eq_true, decide_eq_true_eq, not_and]
  intro x hx hxq
  have hmem : x ∈ before ++ l :: rest := horder ▸ List.mem_mergeSort.mpr hx
  rcases List.mem_append.mp hmem with hx | hx
  · simp [hbefore x hx]
  · have hle : l.pending ≤ x.pending := by
      rcases List.mem_cons.mp hx with rfl | hx
      · exact Nat.le_refl _
      · exact (List.pairwise_cons.mp (List.pairwise_append.mp hsorted).2.1).1 x hx
    omega

/-- **A panic hides no failure that was recorded.** Let a leaf of a tree panic, and let the
failures that errors carry and failures suppress exist. The release ends with the panic of
the first such leaf, in the order of their pending polls, those of one poll from left to
right. Then exactly the groups that are unfinished and have recorded something are told of,
the member that the panic comes from before its siblings, these in order and before the
group around them. What is told of a group is the report of its root, which names it and
suppresses what it keeps of the failing members that it has recorded. -/
theorem panic_unwinds (r : Resource) (s : Scene Finished) (hwhole : s.heap.Whole)
    (hcarries : r.CarriesFrom s.heap) (hpanics : ¬ r.PanicFree) :
    ∃ before l rest message t told,
      r.leaves.mergeSort (keyLe LeafOf.pending) = before ++ l :: rest ∧
      (∀ x ∈ before, ∀ message, x.ending ≠ .panics message) ∧ l.ending = .panics message ∧
      (r.releaseBy narrow).run s = .error (.text message) t ∧
      unraisedIn t.log = unraisedIn s.log ++ told ∧
      Told s.heap t.heap (r.unwound l.pending) told := by
  have hfinishes := release_finishes r s
  generalize hended : (r.releaseBy narrow).run s = ended at hfinishes
  cases hfinishes with
  | all hnone =>
    refine absurd (fun leaf hleaf => ?_) hpanics
    exact panic?_eq_none_iff.mp (hnone leaf (List.mem_mergeSort.mpr hleaf))
  | @upTo t before l rest message horder hbefore hl =>
    have hmem : l ∈ r.leaves := by
      have hsorted : l ∈ r.leaves.mergeSort (keyLe LeafOf.pending) := by
        rw [horder]
        simp
      exact List.mem_mergeSort.mp hsorted
    have hp : r.panicsAt l.pending = true := by
      simp only [panicsAt, List.any_eq_true]
      exact ⟨l, hmem, by simp [hl]⟩
    have hroots : (Task.ofResource 0 r).roots.Nodup := by
      rw [Task.roots_ofResource]
      exact .nil
    obtain ⟨payload, u, told, hrun, hlog, htold⟩ := Task.finish_unwinds (Task.ofResource 0 r).work
      (fun q hq => panicsAt_eq_false_of_split horder hbefore hq) hp (Task.ofResource 0 r).work
      (Nat.zero_le _) (by simpa using pending_lt_work 0 r l hmem) (.initial hwhole)
      (Task.running_ofResource 0 r hcarries) hroots
    have hrelease := run_releaseBy narrow r s
    simp only [hrun] at hrelease
    obtain ⟨-, rfl⟩ : payload = .text message ∧ u = t := by
      have hsame := hrelease.symm.trans hended
      injection hsame with hpayload hscene
      exact ⟨hpayload, hscene⟩
    exact ⟨before, l, rest, message, u, told, horder,
      fun x hx => panic?_eq_none_iff.mp (hbefore x hx), panic?_eq_some_iff.mp hl, rfl, hlog, htold⟩

/-- A tree in which a leaf panics after failures were recorded in three groups. -/
def collapsing : Resource :=
  .group "outer" 1
    [.leaf "a" 0 (.fails (.message "a failed")),
      .group "done" 2 [.leaf "b" 1 (.fails (.message "b failed"))],
      .group "first" 2
        [.leaf "c" 0 (.fails (.message "c failed")), .leaf "d" 1 (.panics "d panics")],
      .group "quiet" 2 [.leaf "e" 2 .succeeds],
      .group "second" 2 [.leaf "f" 0 (.fails (.message "f failed")), .leaf "g" 2 .succeeds]]

/-- Of the groups that go on, the one that the panic comes from is told of first, and
nothing is told of the one that has recorded nothing. -/
theorem panic_unwinds_collapsing :
    ∃ t, (collapsing.releaseBy narrow).run { focus := #[] } = .error (.text "d panics") t ∧
      (unraisedIn t.log).map (·.message) =
        [groupMessage "first" 2, groupMessage "second" 2, groupMessage "outer" 5] := by
  have hwhole : ({} : Heap).Whole := by
    intro f x hx
    simp [Heap.get?] at hx
  have hcarries : collapsing.CarriesFrom {} := by
    simp [CarriesFrom, collapsing, leaves, leavesOf, ErrorOf.failure?, ErrorOf.find?,
      Found.failure?]
  have hpanics : ¬ collapsing.PanicFree := by
    simp [PanicFree, collapsing, leaves, leavesOf]
  obtain ⟨before, l, rest, message, t, told, horder, hbefore, hl, hrun, hlog, htold⟩ :=
    panic_unwinds collapsing { focus := #[] } hwhole hcarries hpanics
  have hmem : l ∈ collapsing.leaves :=
    List.mem_mergeSort.mp (by rw [horder]; simp : l ∈ collapsing.leaves.mergeSort _)
  obtain rfl : l = ⟨"d", 1, .panics "d panics"⟩ := by
    simp [collapsing, leaves, leavesOf] at hmem
    rcases hmem with rfl | rfl | rfl | rfl | rfl | rfl | rfl <;> simp_all
  obtain rfl : "d panics" = message := by simpa using hl
  refine ⟨t, hrun, ?_⟩
  rw [hlog]
  exact htold.messages

end Teardown
