/-
# The order in which leaves finish

Nested groups go on in step: a poll of a tree polls each leaf that is left
once, from left to right, so that the tree is released like the flat list of its
leaves (`Task.poll_finishes`). So the leaves finish in the order of their pending
polls, those of one poll from left to right, however they are grouped; failures
change nothing in this, and a panic ends it (`leaves_finish_in_order`).

Only the leaves are followed here. Of the collectors it is enough to know that
they are open and that their suppliers do not panic, so that recording a failure
returns.

Key definitions: `Task.leavesLeft`, `Task.Sound`, `Finishes`.
Key theorems: `Finishes.bind`, `Task.poll_finishes`, `leaves_finish_in_order`.
-/
import Teardown.Proofs.Collector.Delivery
import Teardown.Proofs.Release.Result

namespace Teardown

open ResourceOf

/-- The message of a panic that ends a leaf's release. -/
def EndingOf.panic? {φ : Type} : EndingOf φ → Option String
  | .panics message => some message
  | _ => none

/-- A leaf of a tree of resources of a running program. -/
abbrev Leaf := LeafOf FailureId

/-! ### Acts in which leaves finish -/

/-- Of an act in which the leaves `ls` are to finish, one after the other: if none
of them panics they all finish, and the act gives what satisfies `P`; else those
up to the first one that panics finish, and the act ends with its panic. -/
inductive Finishes {α : Type} (s : Scene Finished) (P : α → Prop) (ls : List Leaf) :
    EStateM.Result Payload (Scene Finished) α → Prop where
  | all {a : α} {t : Scene Finished} (hls : ∀ l ∈ ls, l.ending.panic? = none)
      (ht : t.focus.toList = s.focus.toList ++ ls.map (·.name)) (ha : P a) :
      Finishes s P ls (.ok a t)
  | upTo {t : Scene Finished} (before : List Leaf) {l : Leaf} {rest : List Leaf}
      {message : String} (hls : ls = before ++ l :: rest)
      (hbefore : ∀ l ∈ before, l.ending.panic? = none)
      (hl : l.ending.panic? = some message)
      (ht : t.focus.toList = s.focus.toList ++ (before ++ [l]).map (·.name)) :
      Finishes s P ls (.error (.text message) t)

namespace Finishes

variable {α β : Type} {s t : Scene Finished} {P : α → Prop} {Q : β → Prop} {ls ks : List Leaf}

/-- An act in which no leaf finishes. -/
theorem none {a : α} (ht : t.focus = s.focus) (ha : P a) : Finishes s P [] (.ok a t) :=
  .all (by simp) (by simp [ht]) ha

/-- What comes after leaves that have finished. -/
theorem after {r : EStateM.Result Payload (Scene Finished) α}
    (hls : ∀ l ∈ ls, l.ending.panic? = Option.none)
    (ht : t.focus.toList = s.focus.toList ++ ls.map (·.name)) (h : Finishes t P ks r) :
    Finishes s P (ls ++ ks) r := by
  cases h with
  | all hks hu ha =>
    refine .all (fun l hl => ?_) (by simp [hu, ht]) ha
    rcases List.mem_append.mp hl with hl | hl
    · exact hls l hl
    · exact hks l hl
  | upTo before hks hbefore hl hu =>
    refine .upTo (ls ++ before) (by rw [hks, List.append_assoc]) (fun l hl => ?_) hl
      (by simp [hu, ht])
    rcases List.mem_append.mp hl with hl | hl
    · exact hls l hl
    · exact hbefore l hl

/-- What was at hand before matters by the leaves that had finished. -/
theorem of_focus_eq {r : EStateM.Result Payload (Scene Finished) α} (ht : t.focus = s.focus)
    (h : Finishes t P ks r) : Finishes s P ks r :=
  List.nil_append ks ▸ h.after (by simp) (by simp [ht])

/-- After a panic nothing finishes. -/
theorem panicked {payload : Payload} (h : Finishes s P ls (.error payload t))
    {u : Scene Finished} (hu : u.focus = t.focus) : Finishes s Q (ls ++ ks) (.error payload u) := by
  cases h with
  | upTo before hls hbefore hl ht =>
    exact .upTo before (by rw [hls, List.append_assoc, List.cons_append]) hbefore hl
      (by rw [hu, ht])

/-- An act that returns has let all its leaves finish. -/
theorem of_ok {a : α} (h : Finishes s P ls (.ok a t)) :
    (∀ l ∈ ls, l.ending.panic? = Option.none) ∧
      t.focus.toList = s.focus.toList ++ ls.map (·.name) ∧ P a := by
  cases h with
  | all hls ht ha => exact ⟨hls, ht, ha⟩

/-- **One act and then another.** -/
theorem bind {act : Act Finished α} {next : α → Act Finished β}
    (hact : Finishes s P ls (act.run s)) (hnext : ∀ a t, P a → Finishes t Q ks ((next a).run t)) :
    Finishes s Q (ls ++ ks) ((act >>= next).run s) := by
  rw [EStateM.run_bind]
  generalize act.run s = r at hact
  cases r with
  | error payload u => exact hact.panicked rfl
  | ok a u =>
    obtain ⟨hls, hu, ha⟩ := hact.of_ok
    exact .after hls hu (hnext a u ha)

/-- What is known of the result may be weakened. -/
theorem imp {P' : α → Prop} {r : EStateM.Result Payload (Scene Finished) α}
    (h : Finishes s P ls r) (hP : ∀ a, P a → P' a) : Finishes s P' ls r := by
  cases h with
  | all hls ht ha => exact .all hls ht (hP _ ha)
  | upTo before hls hbefore hl ht => exact .upTo before hls hbefore hl ht

end Finishes

/-! ### Collectors that record without a panic -/

/-- An open collector whose supplier does not panic. -/
structure Collector.Sound (c : Collector) : Prop where
  isOpen : c.closed = false
  supplier : ¬ c.MayPanic

theorem sound_groupCollector (name : String) (size limit : Nat) :
    (groupCollector name size limit).Sound where
  isOpen := rfl
  supplier := by simp [Collector.MayPanic, groupCollector, Collector.withLimit,
    Collector.withSupplier]

namespace Collector.Sound

/-- Adding to such a collector returns. -/
theorem add {s : Scene Collector} (hs : s.focus.Sound) (f : FailureId) :
    ∃ t, (Collector.add f).run s = .ok () t ∧ t.focus.Sound := by
  have hadd := added f s
  generalize (Collector.add f).run s = r at hadd ⊢
  cases hadd with
  | rejected hc => simp [hs.isOpen] at hc
  | dropped | again | attached | recorded => exact ⟨_, rfl, hs.isOpen, hs.supplier⟩
  | supplied _ _ _ supplier hsupplier =>
    refine ⟨_, rfl, hs.isOpen, ?_⟩
    rw [Tallied.mayPanic_called (c := s.focus) hsupplier rfl]
    exact hs.supplier
  | unsupplied _ _ _ _ hsupplier _ hroot =>
    exact absurd (mayPanic_of_rootIn hsupplier hroot) hs.supplier

theorem addError {s : Scene Collector} (hs : s.focus.Sound) (e : ErrorValue) :
    ∃ t, (Collector.addError e).run s = .ok () t ∧ t.focus.Sound :=
  add (s := { s with heap := (s.heap.ofError e).2 }) hs _

end Collector.Sound

namespace Task

/-! ### What is left of a release -/

mutual

/-- The leaves that a release has left after `n` polls, each with the poll in
which it is to finish. -/
def leavesLeft (n : Nat) : Task → List Leaf
  | .leaf _ name pending ending => [⟨name, n + pending, ending⟩]
  | .group _ _ _ _ _ members => leavesLeftIn n members

/-- The leaves that several releases have left. -/
def leavesLeftIn (n : Nat) : List Task → List Leaf
  | [] => []
  | t :: rest => t.leavesLeft n ++ leavesLeftIn n rest

end

mutual

/-- All collectors of a release are sound. -/
def Sound : Task → Prop
  | .leaf _ _ _ _ => True
  | .group _ _ _ _ c members => c.Sound ∧ AllSound members

/-- All collectors of several releases are sound. -/
def AllSound : List Task → Prop
  | [] => True
  | t :: rest => t.Sound ∧ AllSound rest

end

mutual

theorem leavesLeft_ofResource : ∀ (index : Nat) (r : Resource),
    (Task.ofResource index r).leavesLeft 0 = r.leaves
  | _, .leaf name pending ending => by
    rw [Task.ofResource, leavesLeft, leaves, Nat.zero_add]
  | _, .group _ _ members => by
    rw [Task.ofResource, leavesLeft, leaves, leavesLeftIn_ofMembers 0 members]

theorem leavesLeftIn_ofMembers : ∀ (index : Nat) (ms : List Resource),
    leavesLeftIn 0 (Task.ofMembers index ms) = leavesOf ms
  | _, [] => rfl
  | index, m :: ms => by
    rw [Task.ofMembers, leavesLeftIn, leavesOf, leavesLeft_ofResource index m,
      leavesLeftIn_ofMembers (index + 1) ms]

end

mutual

theorem sound_ofResource : ∀ (index : Nat) (r : Resource), (Task.ofResource index r).Sound
  | _, .leaf _ _ _ => trivial
  | _, .group name limit members =>
    ⟨sound_groupCollector name members.length limit, allSound_ofMembers 0 members⟩

theorem allSound_ofMembers : ∀ (index : Nat) (ms : List Resource),
    AllSound (Task.ofMembers index ms)
  | _, [] => trivial
  | index, m :: ms => ⟨sound_ofResource index m, allSound_ofMembers (index + 1) ms⟩

end

mutual

/-- No leaf finishes before the next poll. -/
theorem le_pending_of_mem : ∀ {t : Task} {n : Nat}, ∀ l ∈ t.leavesLeft n, n ≤ l.pending
  | .leaf _ name pending ending, n, l, hl => by
    obtain rfl : l = ⟨name, n + pending, ending⟩ := by simpa [leavesLeft] using hl
    exact Nat.le_add_right n pending
  | .group _ _ _ _ _ members, n, l, hl => le_pending_of_memIn l hl

theorem le_pending_of_memIn : ∀ {ts : List Task} {n : Nat}, ∀ l ∈ leavesLeftIn n ts, n ≤ l.pending
  | [], _, l, hl => by simp [leavesLeftIn] at hl
  | t :: ts, n, l, hl => by
    rcases List.mem_append.mp hl with hl | hl
    · exact le_pending_of_mem l hl
    · exact le_pending_of_memIn l hl

end

/-! ### Dropping what is left -/

section

variable (wide : Width)

/-- Dropping a collector at most tells the log. -/
theorem run_withCollector_drop (c : Collector) (s : Scene Finished) :
    ∃ u, (withCollector c Collector.drop).run s = .ok ((), c) u ∧ u.focus = s.focus := by
  rw [run_withCollector, Collector.run_drop]
  cases c.primary with
  | none => exact ⟨_, rfl, rfl⟩
  | some f => cases c.warnsOnDrop && !c.closed <;> exact ⟨_, rfl, rfl⟩

/-- A collector is dropped after `before`, in which no leaf finishes. -/
theorem run_drop_after {α : Type} {s : Scene Finished} {before : Act Finished Unit}
    (hbefore : ∃ u, before.run s = .ok () u ∧ u.focus = s.focus) (c : Collector)
    (next : Act Finished α) :
    ∃ u, (do before; let _ ← withCollector c Collector.drop; next : Act Finished α).run s =
      next.run u ∧ u.focus = s.focus := by
  obtain ⟨u, hu, hfocus⟩ := hbefore
  obtain ⟨v, hv, hfocus'⟩ := run_withCollector_drop c u
  refine ⟨v, ?_, hfocus'.trans hfocus⟩
  rw [EStateM.run_bind, hu]
  simp only [EStateM.run_bind, hv]

mutual

/-- No leaf finishes while a release is dropped. -/
theorem run_drop : ∀ (t : Task) (s : Scene Finished),
    ∃ u, (t.drop wide).run s = .ok () u ∧ u.focus = s.focus
  | .leaf _ _ _ _, s => ⟨s, rfl, rfl⟩
  | .group _ _ size _ c members, s => by
    rw [drop]
    cases hw : wide size with
    | false => exact run_drop_after (run_dropInOrder members s) c (pure ())
    | true => exact run_drop_after (run_dropFromEnd members s) c (pure ())

theorem run_dropInOrder : ∀ (ts : List Task) (s : Scene Finished),
    ∃ u, (dropInOrder wide ts).run s = .ok () u ∧ u.focus = s.focus
  | [], s => ⟨s, rfl, rfl⟩
  | t :: ts, s => by
    obtain ⟨u, hu, hfocus⟩ := run_drop t s
    obtain ⟨v, hv, hfocus'⟩ := run_dropInOrder ts u
    refine ⟨v, ?_, hfocus'.trans hfocus⟩
    rw [dropInOrder, EStateM.run_bind, hu]
    exact hv

theorem run_dropFromEnd : ∀ (ts : List Task) (s : Scene Finished),
    ∃ u, (dropFromEnd wide ts).run s = .ok () u ∧ u.focus = s.focus
  | [], s => ⟨s, rfl, rfl⟩
  | t :: ts, s => by
    obtain ⟨u, hu, hfocus⟩ := run_dropFromEnd ts s
    obtain ⟨v, hv, hfocus'⟩ := run_drop t u
    refine ⟨v, ?_, hfocus'.trans hfocus⟩
    rw [dropFromEnd, EStateM.run_bind, hu]
    exact hv

end

/-- A panic that ends the poll of a group goes on once everything is dropped. -/
theorem run_giveUp {α : Type} (c : Collector) (ts : List Task) (payload : Payload)
    (s : Scene Finished) :
    ∃ u, (giveUp c (dropInOrder wide ts) payload : Act Finished α).run s = .error payload u ∧
      u.focus = s.focus :=
  run_drop_after (run_dropInOrder wide ts s) c (throw payload)

end

/-! ### One poll -/

/-- What a poll leaves of a release, of which the leaves `ls` were to finish later. -/
def Leaves (n : Nat) (ls : List Leaf) : Polled → Prop
  | .pending t => t.Sound ∧ t.leavesLeft (n + 1) = ls ∧ ls ≠ []
  | .finished _ => ls = []

/-- The leaves that finish in the next poll. -/
def due (n : Nat) (ls : List Leaf) : List Leaf := ls.filter (·.pending = n)

/-- The leaves that finish later. -/
def later (n : Nat) (ls : List Leaf) : List Leaf := ls.filter (n < ·.pending)

section

variable {n : Nat} {c : Collector} {s : Scene Finished}

/-- A group takes note of a finished member. -/
theorem settle_finishes (hc : c.Sound) (name : String) (member : Task)
    (result : Except ErrorValue Unit) :
    Finishes s Collector.Sound [] ((settle name c member result).run s) := by
  cases result with
  | ok => exact .none (s := s) (t := { s with log := _ }) rfl hc
  | error e =>
    rw [run_settle_error]
    obtain ⟨t, ht, hsound⟩ := Collector.Sound.addError
      (s := ⟨s.heap, s.log.push (.memberFailed name member.index member.name (e.display s.heap)), c⟩)
      hc e
    simp only [ht]
    exact .none rfl hsound

/-- A group whose members are all polled goes on, or finishes if none is left. -/
theorem remain_finishes (hc : c.Sound) (index : Nat) (name : String) (size : Nat) {ts : List Task}
    (hts : AllSound ts) (hleft : ∀ t ∈ ts, t.leavesLeft (n + 1) ≠ []) :
    Finishes s (Leaves n (leavesLeftIn (n + 1) ts)) [] ((remain index name size c ts).run s) := by
  cases ts with
  | nil =>
    rw [run_remain_nil, run_conclude s name hc.isOpen]
    cases c.primary <;> exact .none rfl rfl
  | cons t ts =>
    rw [run_remain_cons]
    refine .none rfl ⟨⟨hc, hts⟩, rfl, ?_⟩
    have hne := hleft t (by simp)
    simp [leavesLeftIn, hne]

end

section

variable (deeper : Task → Act Finished Polled)

mutual

/-- **A poll of a tree polls its leaves from left to right.** -/
theorem poll_finishes : ∀ {t : Task} {n : Nat} {s : Scene Finished}, t.Sound →
    Finishes s (Leaves n (later n (t.leavesLeft n))) (due n (t.leavesLeft n))
      ((t.pollWith narrow deeper).run s)
  | .leaf index name (pending + 1) ending, n, s, _ => by
    have hdue : due n (leavesLeft n (.leaf index name (pending + 1) ending)) = [] := by
      simp [due, leavesLeft]
    have hlater : later n (leavesLeft n (.leaf index name (pending + 1) ending)) =
        leavesLeft (n + 1) (.leaf index name pending ending) := by
      simp [later, leavesLeft, Nat.add_right_comm n 1 pending, Nat.add_assoc]
    rw [run_poll_pending, hdue, hlater]
    exact .none rfl ⟨trivial, rfl, by simp [leavesLeft]⟩
  | .leaf index name 0 ending, n, s, _ => by
    have hdue : due n (leavesLeft n (.leaf index name 0 ending)) = [⟨name, n, ending⟩] := by
      simp [due, leavesLeft]
    have hlater : later n (leavesLeft n (.leaf index name 0 ending)) = [] := by
      simp [later, leavesLeft]
    rw [run_poll_finished, hdue, hlater]
    cases ending with
    | succeeds => exact .all (by simp [EndingOf.panic?]) (by simp) rfl
    | fails e => exact .all (by simp [EndingOf.panic?]) (by simp) rfl
    | panics message =>
      exact .upTo [] rfl (by simp) rfl (by simp)
  | .group index name size started c members, n, s, ⟨hc, hms⟩ => by
    let u : Scene Finished :=
      if started then s else { s with log := s.log.push (.groupStarted name size) }
    have hfocus : u.focus = s.focus := by cases started <;> rfl
    have hpolled : Finishes u (Leaves n (later n (leavesLeftIn n members)))
        (due n (leavesLeftIn n members) ++ [])
        ((pollMembers narrow deeper name c [] members >>= fun left =>
          remain index name size left.1 left.2).run u) := by
      refine .bind (pollMembers_finishes name [] hc hms) fun left v hleft => ?_
      obtain ⟨ts, hts, hsound, hall, hlater, hne⟩ := hleft
      obtain rfl : left.2 = ts := hts
      rw [← hlater]
      exact remain_finishes hsound index name size hall hne
    have hrun : ((group index name size started c members).pollWith narrow deeper).run s =
        (pollMembers narrow deeper name c [] members >>= fun left =>
          remain index name size left.1 left.2).run u := by
      rw [run_poll_group s narrow deeper index name size rfl, EStateM.run_bind]
      cases (pollMembers narrow deeper name c [] members).run u <;> rfl
    rw [hrun, leavesLeft, ← List.append_nil (due _ _)]
    exact hpolled.of_focus_eq hfocus

/-- So does a poll of the members of a group. -/
theorem pollMembers_finishes : ∀ {ts : List Task} {n : Nat} {s : Scene Finished} {c : Collector}
    (name : String) (before : List Task), c.Sound → AllSound ts →
    Finishes s
      (fun left => ∃ ts', left.2 = before.reverse ++ ts' ∧ left.1.Sound ∧ AllSound ts' ∧
        leavesLeftIn (n + 1) ts' = later n (leavesLeftIn n ts) ∧
        ∀ t ∈ ts', t.leavesLeft (n + 1) ≠ [])
      (due n (leavesLeftIn n ts)) ((pollMembers narrow deeper name c before ts).run s)
  | [], n, s, c, name, before, hc, _ => by
    rw [run_pollMembers_nil]
    exact .none rfl ⟨[], by simp, hc, trivial, rfl, by simp⟩
  | t :: ts, n, s, c, name, before, hc, ⟨ht, hts⟩ => by
    have hdue : due n (leavesLeftIn n (t :: ts)) =
        due n (t.leavesLeft n) ++ due n (leavesLeftIn n ts) := List.filter_append ..
    have hlater : later n (leavesLeftIn n (t :: ts)) =
        later n (t.leavesLeft n) ++ later n (leavesLeftIn n ts) := List.filter_append ..
    rw [run_pollMembers_cons, hdue, hlater]
    have hpoll := poll_finishes (n := n) (s := s) ht
    generalize (t.pollWith narrow deeper).run s = r at hpoll
    cases r with
    | error payload u =>
      -- the panic goes on when the unfinished members have been dropped
      obtain ⟨v, hv, hfocus⟩ := run_giveUp (α := Collector × List Task) narrow c
        (before.reverse ++ ts) payload u
      simp only [hv]
      exact hpoll.panicked hfocus
    | ok polled u =>
      obtain ⟨hls, hu, hleaves⟩ := hpoll.of_ok
      refine .after hls hu ?_
      cases polled with
      | pending t' =>
        obtain ⟨ht', hleft, hne⟩ := hleaves
        refine (pollMembers_finishes name (t' :: before) hc hts).imp ?_
        rintro left ⟨ts', heq, hsound, hall, hlater', hne'⟩
        refine ⟨t' :: ts', by simp [heq], hsound, ⟨ht', hall⟩, ?_, ?_⟩
        · rw [leavesLeftIn, hleft, hlater']
        · rintro x hx
          rcases List.mem_cons.mp hx with rfl | hx
          · rw [hleft]
            exact hne
          · exact hne' x hx
      | finished result =>
        have hnone : later n (t.leavesLeft n) = [] := hleaves
        have hrest := (settle_finishes (s := u) hc name t result).bind fun c v hc =>
          pollMembers_finishes (n := n) (s := v) name before hc hts
        rw [EStateM.run_bind, List.nil_append] at hrest
        rw [hnone, List.nil_append]
        simp only
        generalize (settle name c t result).run u = settled at hrest ⊢
        cases settled <;> exact hrest

end

end

/-! ### Poll after poll -/

/-- **A release that goes on finishes its leaves in the order of their polls**, if
it has fuel for the last one. -/
theorem finish_finishes (depth : Nat) : ∀ (fuel : Nat) {t : Task} {n : Nat} {s : Scene Finished},
    t.Sound → (∀ l ∈ t.leavesLeft n, l.pending < n + fuel) → 0 < fuel →
    Finishes s (fun _ => True) ((t.leavesLeft n).mergeSort (keyLe LeafOf.pending))
      ((t.finish narrow depth fuel).run s) := by
  intro fuel
  induction fuel with
  | zero =>
    intro t n s _ _ hpos
    omega
  | succ fuel ih =>
    intro t n s ht hfuel _
    have hpoll : Finishes s (Leaves n (later n (t.leavesLeft n))) (due n (t.leavesLeft n))
        ((t.poll narrow depth).run s) := by
      cases depth with
      | zero => exact poll_finishes _ ht
      | succ depth => exact poll_finishes _ ht
    rw [mergeSort_eq_filter_append fun l hl => le_pending_of_mem l hl, finish]
    refine hpoll.bind fun polled u hleaves => ?_
    cases polled with
    | finished result =>
      have hnone : (t.leavesLeft n).filter (n < ·.pending) = [] := hleaves
      rw [hnone, List.mergeSort_nil]
      exact .none rfl trivial
    | pending t' =>
      obtain ⟨ht', hleft, hne⟩ := hleaves
      have hlater : (t.leavesLeft n).filter (n < ·.pending) = t'.leavesLeft (n + 1) := hleft.symm
      have hfuel' : ∀ l ∈ t'.leavesLeft (n + 1), l.pending < n + 1 + fuel := by
        intro l hl
        rw [← hlater] at hl
        have := hfuel l (List.mem_filter.mp hl).1
        omega
      -- a leaf is left, so that there is fuel for one more poll
      have hpos : 0 < fuel := by
        obtain ⟨l, hl⟩ := List.exists_mem_of_ne_nil _ (hleft ▸ hne)
        have := hfuel' l hl
        have := le_pending_of_mem l hl
        omega
      rw [hlater]
      exact ih ht' hfuel' hpos

end Task

mutual

/-- There is more work than polls that a leaf takes. -/
theorem pending_lt_work : ∀ (index : Nat) (r : Resource), ∀ l ∈ r.leaves,
    l.pending < (Task.ofResource index r).work
  | _, .leaf name pending ending, l, hl => by
    obtain rfl : l = ⟨name, pending, ending⟩ := by simpa [leaves] using hl
    exact Nat.lt_succ_self pending
  | _, .group _ _ members, l, hl => Nat.lt_succ_of_lt (pending_lt_workAll 0 members l hl)

theorem pending_lt_workAll : ∀ (index : Nat) (ms : List Resource), ∀ l ∈ leavesOf ms,
    l.pending < Task.workAll (Task.ofMembers index ms)
  | _, [], l, hl => by simp [leavesOf] at hl
  | index, m :: ms, l, hl => by
    rw [Task.ofMembers, Task.workAll]
    rcases List.mem_append.mp hl with hl | hl
    · have := pending_lt_work index m l hl
      omega
    · have := pending_lt_workAll (index + 1) ms l hl
      omega

end

theorem panic?_eq_some_iff {e : Ending} {message : String} :
    e.panic? = some message ↔ e = .panics message := by
  cases e <;> simp [EndingOf.panic?]

theorem panic?_eq_none_iff {e : Ending} : e.panic? = none ↔ ∀ message, e ≠ .panics message := by
  cases e <;> simp [EndingOf.panic?]

/-- The leaves before the first one that panics. -/
theorem takeWhile_of_split {before : List Leaf} (rest : List Leaf) {l : Leaf}
    (hbefore : ∀ x ∈ before, x.ending.panic? = none) (hl : l.ending.panic?.isSome) :
    (before ++ l :: rest).takeWhile (·.ending.panic?.isNone) = before := by
  rw [List.takeWhile_append_of_pos (by simpa using hbefore),
    List.takeWhile_cons_of_neg (by simpa using Option.isSome_iff_ne_none.mp hl), List.append_nil]

/-- A list is split in one way at the first leaf that panics. -/
theorem eq_of_split {before before' rest rest' : List Leaf} {l l' : Leaf}
    (h : before ++ l :: rest = before' ++ l' :: rest')
    (hbefore : ∀ x ∈ before, x.ending.panic? = none) (hl : l.ending.panic?.isSome)
    (hbefore' : ∀ x ∈ before', x.ending.panic? = none) (hl' : l'.ending.panic?.isSome) :
    before = before' ∧ l = l' := by
  have heq : before = before' := by
    rw [← takeWhile_of_split rest hbefore hl, h, takeWhile_of_split rest' hbefore' hl']
  subst heq
  exact ⟨rfl, (List.cons.inj (List.append_cancel_left h)).1⟩

/-- The release of a tree finishes its leaves in the order of their pending polls. -/
theorem release_finishes (r : Resource) (s : Scene Finished) :
    Finishes s (fun _ => True) (r.leaves.mergeSort (keyLe LeafOf.pending))
      ((r.releaseBy narrow).run s) := by
  have hleft := Task.leavesLeft_ofResource 0 r
  have hfinish := Task.finish_finishes (s := s) (Task.ofResource 0 r).work
    (Task.ofResource 0 r).work (n := 0) (Task.sound_ofResource 0 r)
    (fun l hl => by
      rw [hleft] at hl
      rw [Nat.zero_add]
      exact pending_lt_work 0 r l hl)
    (Nat.lt_of_le_of_lt (Nat.zero_le _) (Task.finishedAt_lt_work 0 r))
  rw [hleft] at hfinish
  rw [← List.append_nil (List.mergeSort _ _)]
  refine hfinish.bind fun result t _ => ?_
  cases result with
  | ok => exact .none rfl trivial
  | error e => exact .none rfl trivial

/-- **Leaves finish in the order of their pending polls, however they are grouped.**
In the release of a tree, let `order` be its leaves from left to right, stably
sorted by their pending polls. If no leaf panics the release returns, and every
leaf has finished once, in this order, whether some have failed or not. Else the
leaves up to the first one in this order that panics finish, and the release
ends with its panic. -/
theorem leaves_finish_in_order (r : Resource) (s : Scene Finished) :
    let order := r.leaves.mergeSort (keyLe LeafOf.pending)
    let ended := (r.releaseBy narrow).run s
    (r.PanicFree → order.Perm r.leaves ∧ ∃ result t, ended = .ok result t ∧
      t.focus.toList = s.focus.toList ++ order.map (·.name)) ∧
    ∀ before l rest message, order = before ++ l :: rest →
      (∀ x ∈ before, ∀ message, x.ending ≠ .panics message) → l.ending = .panics message →
      ∃ t, ended = .error (.text message) t ∧
        t.focus.toList = s.focus.toList ++ (before ++ [l]).map (·.name) := by
  intro order ended
  have hperm : order.Perm r.leaves := List.mergeSort_perm _ _
  have hended : Finishes s (fun _ => True) order ended := release_finishes r s
  generalize ended = result at hended
  refine ⟨fun hfree => ⟨hperm, ?_⟩, fun before l rest message horder hbefore hl => ?_⟩
  · cases hended with
    | all _ ht _ => exact ⟨_, _, rfl, ht⟩
    | @upTo _ before l rest message horder _ hl =>
      have hmem : l ∈ r.leaves := hperm.mem_iff.mp (by simp [horder])
      exact absurd (panic?_eq_some_iff.mp hl) (hfree l hmem message)
  · have hl := panic?_eq_some_iff.mpr hl
    cases hended with
    | all hnone =>
      have := hnone l (by simp [horder])
      simp [hl] at this
    | @upTo t before' l' rest' message' horder' hbefore' hl' ht =>
      obtain ⟨rfl, rfl⟩ := eq_of_split (horder.symm.trans horder')
        (fun x hx => panic?_eq_none_iff.mpr (hbefore x hx)) (by simp [hl]) hbefore' (by simp [hl'])
      obtain rfl : message' = message := Option.some.inj (hl'.symm.trans hl)
      exact ⟨t, rfl, ht⟩

/-- A tree in which a nested leaf fails and another one panics. -/
def nested : Resource :=
  .group "outer" 5
    [.leaf "a" 2 .succeeds,
      .group "inner" 1
        [.leaf "b" 1 (.panics "b panics"), .group "empty" 0 [],
          .leaf "c" 0 (.fails (.message "c failed"))],
      .leaf "d" 1 .succeeds, .leaf "e" 0 .succeeds]

/-- The leaves of two groups take turns up to the panic; the others never finish. -/
theorem leaves_finish_nested :
    ∃ t, (nested.releaseBy narrow).run { focus := #[] } = .error (.text "b panics") t ∧
      t.focus.toList = ["c", "e", "b"] := by
  have horder : nested.leaves.mergeSort (keyLe LeafOf.pending) =
      [⟨"c", 0, .fails (.message "c failed")⟩, ⟨"e", 0, .succeeds⟩] ++
        ⟨"b", 1, .panics "b panics"⟩ :: [⟨"d", 1, .succeeds⟩, ⟨"a", 2, .succeeds⟩] := by
    rw [mergeSort_eq_byRound (n := 3) (by decide)]
    rfl
  exact (leaves_finish_in_order nested { focus := #[] }).2 _ _ _ _ horder (by simp) rfl

end Teardown
