/-
# Groups can be released again and again

A group that is released once more does the same again, with the heap that the earlier
releases have left in place of the one that the first release began in. It makes the same
failures, in the same order, and what it attaches to is only what it has made itself, the
roots of its groups. So no release changes a failure that was there before it, however
often the failures that the leaves' errors carry have been kept or copied already; each
failing release gives a new root, and the reports of all these roots are one
(`releases_repeat`). In this it does not matter which groups are wide.

Key definitions: `Task.Twins`, `Task.found`, `ResourceOf.released`.
Key theorems: `Task.repeats_pollWith`, `Task.repeats_finish`, `releases_repeat`.
-/
import Teardown.Proofs.Collector.Repeating
import Teardown.Proofs.Failure.Truncation
import Teardown.Proofs.Release.Growing
import Teardown.Proofs.Release.Result

namespace Teardown

open Heap Act

namespace Task

/-! ### Twin releases -/

/-- The message of the root that the release of a group makes. -/
def rootMessage? : Task → Option String
  | .leaf _ _ _ _ => none
  | .group _ name size _ _ _ => some (groupMessage name size)

mutual

/-- The two are releases of one resource that have come equally far. -/
inductive Twins (h k w : Heap) : Task → Task → Prop where
  | leaf (index : Nat) (name : String) (pending : Nat) {ending : Ending}
      (hknown : ending.All (· < h.size)) (hpanic : ∀ message, ending ≠ .panics message) :
      Twins h k w (.leaf index name pending ending) (.leaf index name pending ending)
  | group (index : Nat) (name : String) (size : Nat) (started : Bool) {c c' : Collector}
      {ts ts' : List Task} (hc : Collector.Twins h k (groupMessage name size) w c c')
      (hts : AllTwins h k w ts ts') :
      Twins h k w (.group index name size started c ts) (.group index name size started c' ts')

/-- Each two are releases of one resource. -/
inductive AllTwins (h k w : Heap) : List Task → List Task → Prop where
  | nil : AllTwins h k w [] []
  | cons {t t' : Task} {ts ts' : List Task} (ht : Twins h k w t t')
      (hts : AllTwins h k w ts ts') : AllTwins h k w (t :: ts) (t' :: ts')

end

/-- How two releases of one resource end: well, or with errors that are twins. The error
of a group is its root. -/
inductive TwinEnds (h k : Heap) (root? : Option String) (w : Heap) :
    Except ErrorValue Unit → Except ErrorValue Unit → Prop where
  | succeeded : TwinEnds h k root? w (.ok ()) (.ok ())
  | failed {e e' : ErrorValue} (he : TwinErrors h k e e')
      (hroot : ∀ message, root? = some message →
        ∃ f, e = .failure f ∧ Collector.RootIn h message w f) :
      TwinEnds h k root? w (.error e) (.error e')

/-- What a poll of each of two releases of one resource finds. -/
inductive TwinFound (h k : Heap) (root? : Option String) (w : Heap) : Polled → Polled → Prop where
  | pending {t t' : Task} (ht : Twins h k w t t') (hroot : t.rootMessage? = root?) :
      TwinFound h k root? w (.pending t) (.pending t')
  | finished {r r' : Except ErrorValue Unit} (hr : TwinEnds h k root? w r r') :
      TwinFound h k root? w (.finished r) (.finished r')

section

variable {h k w w' : Heap}

mutual

theorem Twins.mono (hw : w.Stays w') : ∀ {t t' : Task}, Twins h k w t t' → Twins h k w' t t'
  | _, _, .leaf index name pending hknown hpanic => .leaf index name pending hknown hpanic
  | _, _, .group index name size started hc hts =>
    .group index name size started (hc.mono hw) (AllTwins.mono hw hts)

theorem AllTwins.mono (hw : w.Stays w') : ∀ {ts ts' : List Task}, AllTwins h k w ts ts' →
    AllTwins h k w' ts ts'
  | _, _, .nil => .nil
  | _, _, .cons ht hts => .cons (Twins.mono hw ht) (AllTwins.mono hw hts)

end

theorem AllTwins.exists_cons {t : Task} {ts us : List Task} (hts : AllTwins h k w (t :: ts) us) :
    ∃ t' ts', us = t' :: ts' ∧ Twins h k w t t' ∧ AllTwins h k w ts ts' := by
  cases hts with
  | cons ht hts => exact ⟨_, _, rfl, ht, hts⟩

theorem AllTwins.isEmpty_eq {ts ts' : List Task} (hts : AllTwins h k w ts ts') :
    ts'.isEmpty = ts.isEmpty := by
  cases hts <;> rfl

theorem AllTwins.append : ∀ {ts ts' us us' : List Task}, AllTwins h k w ts ts' →
    AllTwins h k w us us' → AllTwins h k w (ts ++ us) (ts' ++ us')
  | _, _, _, _, .nil, hus => hus
  | _, _, _, _, .cons ht hts, hus => .cons ht (hts.append hus)

theorem AllTwins.reverse : ∀ {ts ts' : List Task}, AllTwins h k w ts ts' →
    AllTwins h k w ts.reverse ts'.reverse
  | _, _, .nil => .nil
  | _, _, .cons ht hts => by
    rw [List.reverse_cons, List.reverse_cons]
    exact hts.reverse.append (.cons ht .nil)

mutual

/-- Twins have as much left to do. -/
theorem Twins.work_eq : ∀ {t t' : Task}, Twins h k w t t' → t'.work = t.work
  | _, _, .leaf _ _ _ _ _ => rfl
  | _, _, .group _ _ _ _ _ hts => congrArg (· + 1) (AllTwins.workAll_eq hts)

theorem AllTwins.workAll_eq : ∀ {ts ts' : List Task}, AllTwins h k w ts ts' →
    workAll ts' = workAll ts
  | _, _, .nil => rfl
  | _, _, .cons ht hts => by rw [workAll, workAll, Twins.work_eq ht, AllTwins.workAll_eq hts]

end

theorem TwinEnds.mono {root? : Option String} {r r' : Except ErrorValue Unit}
    (hr : TwinEnds h k root? w r r') (hw : w.Stays w') : TwinEnds h k root? w' r r' := by
  cases hr with
  | succeeded => exact .succeeded
  | failed he hroot =>
    refine .failed he fun message hm => ?_
    obtain ⟨f, hf, hin⟩ := hroot message hm
    exact ⟨f, hf, hin.mono hw⟩

end

/-- What the releases of several resources have in common. -/
def allTwins (h k : Heap) : Common (List Task) := ⟨AllTwins h k, fun hw hts => hts.mono hw⟩

/-- What their ends have in common. -/
def ends (h k : Heap) (root? : Option String) : Common (Except ErrorValue Unit) :=
  ⟨TwinEnds h k root?, fun hw hr => hr.mono hw⟩

/-- What is found by polling them. -/
def found (h k : Heap) (root? : Option String) : Common Polled where
  holds := TwinFound h k root?
  mono hw hp := by
    cases hp with
    | pending ht hroot => exact .pending (ht.mono hw) hroot
    | finished hr => exact .finished (hr.mono hw)

/-- What is left of a group with this root. -/
def leftTwins (h k : Heap) (message : String) : Common (Collector × List Task) :=
  .both (Collector.twins h k message) (allTwins h k)

/-! ### One poll -/

section

variable {h k w : Heap} {wide : Width} {message : String} {c c' : Collector}

theorem repeats_withCollector {α : Type} {act act' : Act Collector α} {Q : Common α}
    (hc : Collector.Twins h k message w c c')
    (ha : Repeats h k (Collector.twins h k message) w act act' Q) :
    Repeats h k .any w (withCollector c act) (withCollector c' act')
      (.both Q (Collector.twins h k message)) := by
  intro s s' hw ht _
  obtain ⟨a, a', t, t', hrun, hrun', hstays, ht, hfocus, hQ⟩ :=
    ha ⟨s.heap, s.log, c⟩ ⟨s'.heap, s'.log, c'⟩ hw ht (hc.mono hw)
  refine ⟨(a, t.focus), (a', t'.focus), { s with heap := t.heap, log := t.log },
    { s' with heap := t'.heap, log := t'.log }, ?_, ?_, hstays, ht, trivial, hQ, hfocus⟩
  · rw [run_withCollector, hrun]
  · rw [run_withCollector, hrun']

/-- A group takes note of a finished member. -/
theorem repeats_settle (name : String) (member member' : Task) {root? : Option String}
    {r r' : Except ErrorValue Unit} (hc : Collector.Twins h k message w c c')
    (hr : TwinEnds h k root? w r r') :
    Repeats h k .any w (settle name c member r) (settle name c' member' r')
      (Collector.twins h k message) := by
  cases hr with
  | succeeded => exact (repeats_emit _ _).bind fun _ _ _ hw _ => repeats_pure (hc.mono hw)
  | @failed e e' he _ =>
    refine (repeats_ask _ _).bind fun _ _ _ hw _ => ?_
    refine (repeats_emit _ _).bind fun _ _ _ hw' _ => ?_
    refine (repeats_withCollector (hc.mono (hw.trans hw'))
      (Collector.repeats_addError he)).bind fun _ _ _ _ hleft => ?_
    exact repeats_pure hleft.2

/-- A group whose members are all finished. -/
theorem repeats_conclude (name : String) (hc : Collector.Twins h k message w c c') :
    Repeats h k .any w (conclude name c) (conclude name c') (ends h k (some message)) := by
  intro s s' hw ht _
  have hrun := run_conclude s name hc.first.1
  have hrun' := run_conclude s' name hc.second.1
  have hprimary := hc.primary
  cases hp : c.primary with
  | none =>
    rw [hp, Option.map_none] at hprimary
    rw [hp] at hrun
    rw [hprimary] at hrun'
    exact ⟨_, _, _, _, hrun, hrun', .refl _, ht, trivial, .succeeded⟩
  | some f =>
    rw [hp, Option.map_some] at hprimary
    rw [hp] at hrun
    rw [hprimary] at hrun'
    refine ⟨_, _, _, _, hrun, hrun', .refl _, ht, trivial, .failed (.failure f) ?_⟩
    rintro _ ⟨⟩
    exact ⟨f, rfl, (hc.root f hp).mono hw⟩

theorem repeats_remain (index : Nat) (name : String) (size : Nat) {ts ts' : List Task}
    (hc : Collector.Twins h k (groupMessage name size) w c c') (hts : AllTwins h k w ts ts') :
    Repeats h k .any w (remain index name size c ts) (remain index name size c' ts')
      (found h k (some (groupMessage name size))) := by
  cases hts with
  | nil =>
    exact (repeats_conclude name hc).bind fun _ _ _ _ hr => repeats_pure (.finished hr)
  | cons ht hts =>
    exact repeats_pure (.pending (.group index name size true hc (.cons ht hts)) rfl)

/-- A round over a queue, if the polls of each task do the same. -/
theorem repeats_pollQueue {poll : Task → Act Finished Polled}
    (hpoll : ∀ {t t' : Task} {w : Heap}, Twins h k w t t' →
      Repeats h k .any w (poll t) (poll t') (found h k t.rootMessage?)) (name : String) :
    ∀ (fuel : Nat) {w : Heap} {c c' : Collector} (waited : Bool) {ts ts' : List Task},
      Collector.Twins h k message w c c' → AllTwins h k w ts ts' →
      Repeats h k .any w (pollQueue wide poll name fuel c waited ts)
        (pollQueue wide poll name fuel c' waited ts') (leftTwins h k message)
  | 0, _, _, _, _, _, _, hc, hts => by
    rw [pollQueue, pollQueue]
    exact repeats_pure ⟨hc, hts⟩
  | _ + 1, _, _, _, _, _, _, hc, .nil => by
    rw [pollQueue, pollQueue]
    exact repeats_pure ⟨hc, .nil⟩
  | fuel + 1, w, c, c', waited, _, _, hc, .cons ht hrest => by
    rw [pollQueue, pollQueue]
    refine (hpoll ht).caught.bind fun w₁ r r' hw₁ hfound => ?_
    obtain ⟨p, p', rfl, rfl, hfound⟩ := hfound
    have hc := hc.mono hw₁
    have hrest := hrest.mono hw₁
    cases hfound with
    | pending ht _ =>
      have hqueue := hrest.append (.cons ht .nil)
      simp only [hrest.isEmpty_eq]
      split
      · exact repeats_pure ⟨hc, hqueue⟩
      · exact repeats_pollQueue hpoll name fuel true hc hqueue
    | finished hr =>
      refine (repeats_settle name _ _ hc hr).bind fun w₂ _ _ hw₂ hc => ?_
      exact repeats_pollQueue hpoll name fuel false hc (hrest.mono hw₂)

mutual

/-- **A poll does the same again**, if the polls of the members of wide groups do. -/
theorem repeats_pollWith {deeper : Task → Act Finished Polled}
    (hdeeper : ∀ {t t' : Task} {w : Heap}, Twins h k w t t' →
      Repeats h k .any w (deeper t) (deeper t') (found h k t.rootMessage?)) :
    ∀ (t : Task) {t' : Task} {w : Heap}, Twins h k w t t' →
      Repeats h k .any w (t.pollWith wide deeper) (t'.pollWith wide deeper)
        (found h k t.rootMessage?)
  | .leaf index name (pending + 1) ending, _, w, .leaf _ _ _ hknown hpanic => by
    rw [pollWith]
    exact repeats_pure (.pending (.leaf index name pending hknown hpanic) rfl)
  | .leaf index name 0 ending, _, w, .leaf _ _ _ hknown hpanic => by
    have hfinish : Repeats h k (.any : Common Finished) w
        (modify fun s => { s with focus := s.focus.push name })
        (modify fun s => { s with focus := s.focus.push name }) .any :=
      fun s s' _ ht _ => ⟨(), (), _, _, rfl, rfl, .refl _, ht, trivial, trivial⟩
    cases ending with
    | succeeds =>
      rw [pollWith]
      exact hfinish.bind fun _ _ _ _ _ => repeats_pure (.finished .succeeded)
    | fails e =>
      rw [pollWith]
      exact hfinish.bind fun _ _ _ _ _ =>
        repeats_pure (.finished (.failed (.same hknown) (by simp [rootMessage?])))
    | panics message => exact absurd rfl (hpanic message)
  | .group index name size started c ts, _, w, .group _ _ _ _ hc hts => by
    rw [pollWith_group, pollWith_group]
    refine Repeats.bind (Q := .any) ?_ fun w₁ _ _ hw₁ _ => ?_
    · cases started with
      | true => exact repeats_pure trivial
      | false => exact repeats_emit _ _
    · have hc := hc.mono hw₁
      have hts := hts.mono hw₁
      refine Repeats.bind (Q := leftTwins h k (groupMessage name size)) ?_
        fun w₂ left left' _ hleft => repeats_remain index name size hleft.1 hleft.2
      cases wide size with
      | true =>
        simp only [hts.workAll_eq, if_true]
        exact repeats_pollQueue hdeeper name _ false hc hts
      | false => exact repeats_pollMembers hdeeper name ts hc .nil hts

theorem repeats_pollMembers {deeper : Task → Act Finished Polled}
    (hdeeper : ∀ {t t' : Task} {w : Heap}, Twins h k w t t' →
      Repeats h k .any w (deeper t) (deeper t') (found h k t.rootMessage?)) (name : String) :
    ∀ (ts : List Task) {w : Heap} {message : String} {c c' : Collector}
      {ts' before before' : List Task},
      Collector.Twins h k message w c c' → AllTwins h k w before before' →
      AllTwins h k w ts ts' →
      Repeats h k .any w (pollMembers wide deeper name c before ts)
        (pollMembers wide deeper name c' before' ts') (leftTwins h k message)
  | [], _, _, _, _, _, _, _, hc, hbefore, hts => by
    cases hts
    rw [pollMembers, pollMembers]
    exact repeats_pure ⟨hc, hbefore.reverse⟩
  | t :: rest, w, message, c, c', _, before, before', hc, hbefore, hts => by
    obtain ⟨t', rest', rfl, ht, hrest⟩ := hts.exists_cons
    rw [pollMembers, pollMembers]
    refine (repeats_pollWith hdeeper t ht).caught.bind fun w₁ r r' hw₁ hfound => ?_
    obtain ⟨p, p', rfl, rfl, hfound⟩ := hfound
    have hc := hc.mono hw₁
    have hbefore := hbefore.mono hw₁
    have hrest := hrest.mono hw₁
    cases hfound with
    | pending ht _ => exact repeats_pollMembers hdeeper name rest hc (.cons ht hbefore) hrest
    | finished hr =>
      refine (repeats_settle name _ _ hc hr).bind fun w₂ _ _ hw₂ hc => ?_
      exact repeats_pollMembers hdeeper name rest hc (hbefore.mono hw₂) (hrest.mono hw₂)

end

theorem repeats_poll (wide : Width) : ∀ (depth : Nat) {t t' : Task} {w : Heap},
    Twins h k w t t' →
    Repeats h k .any w (t.poll wide depth) (t'.poll wide depth) (found h k t.rootMessage?)
  | 0, _, _, _, ht =>
    repeats_pollWith (fun ht => repeats_pure (.pending ht rfl)) _ ht
  | depth + 1, _, _, _, ht => repeats_pollWith (repeats_poll wide depth) _ ht

/-- **A release does the same again.** -/
theorem repeats_finish (wide : Width) (depth : Nat) : ∀ (fuel : Nat) {t t' : Task} {w : Heap},
    Twins h k w t t' →
    Repeats h k .any w (t.finish wide depth fuel) (t'.finish wide depth fuel)
      (ends h k t.rootMessage?)
  | 0, _, _, _, _ => repeats_pure .succeeded
  | fuel + 1, t, t', w, ht => by
    refine (repeats_poll wide depth ht).bind fun w₁ p p' _ hfound => ?_
    cases hfound with
    | finished hr => exact repeats_pure hr
    | pending ht hroot => exact hroot ▸ repeats_finish wide depth fuel ht

end

mutual

/-- Before its first poll a release is its own twin. -/
theorem twins_ofResource (h k w : Heap) : ∀ (index : Nat) (r : Resource), r.All (· < h.size) →
    r.PanicFree → Twins h k w (ofResource index r) (ofResource index r)
  | index, .leaf name pending ending, hknown, hpanic =>
    .leaf index name pending hknown (hpanic ⟨name, pending, ending⟩ (by simp [ResourceOf.leaves]))
  | index, .group name limit members, hknown, hpanic => by
    rw [ofResource]
    refine .group index name members.length false ?_ (allTwins_ofMembers h k w 0 members hknown
      fun m hm leaf hl => hpanic leaf (ResourceOf.mem_leaves_group.mpr ⟨m, hm, hl⟩))
    exact ⟨⟨rfl, _, rfl, fun _ => rfl⟩, ⟨rfl, _, rfl, fun _ => rfl⟩, rfl, rfl, rfl,
      fun f hf => by cases hf⟩

theorem allTwins_ofMembers (h k w : Heap) : ∀ (index : Nat) (ms : List Resource),
    ResourceOf.AllOf (· < h.size) ms → (∀ m ∈ ms, m.PanicFree) →
    AllTwins h k w (ofMembers index ms) (ofMembers index ms)
  | _, [], _, _ => .nil
  | index, m :: ms, hknown, hpanic =>
    .cons (twins_ofResource h k w index m hknown.1 (hpanic m (by simp)))
      (allTwins_ofMembers h k w (index + 1) ms hknown.2 fun m' hm' => hpanic m' (by simp [hm']))

end

end Task

/-! ### One release after the other -/

namespace ResourceOf

/-- The scene after a resource has been released so many times. -/
def released (wide : Width) (r : Resource) (s : Scene Finished) : Nat → Scene Finished
  | 0 => s
  | n + 1 => (r.releaseBy wide).after (released wide r s n)

section

variable (wide : Width) {name : String} {limit : Nat} {members : List Resource}
  {s s' : Scene Finished}

/-- How two releases of a group end. -/
inductive TwinResults (h k : Heap) (message : String) (w : Heap) :
    Except FailureId Unit → Except FailureId Unit → Prop where
  | succeeded : TwinResults h k message w (.ok ()) (.ok ())
  | failed {f : FailureId} (hf : Collector.RootIn h message w f) :
      TwinResults h k message w (.error f) (.error (twinOf h k f))

/-- **A group that is released in a later heap** does the same as in the earlier one. -/
theorem release_twins (hs : s.heap.Sound) (hext : s.heap.Extends s'.heap)
    (hknown : (group name limit members).All (· < s.heap.size))
    (hpanic : (group name limit members).PanicFree) :
    ∃ result result' t t', ((group name limit members).releaseBy wide).run s = .ok result t ∧
      ((group name limit members).releaseBy wide).run s' = .ok result' t' ∧
      Twin s.heap s'.heap t.heap t'.heap ∧
      TwinResults s.heap s'.heap (groupMessage name members.length) t.heap result result' := by
  obtain ⟨r, r', t, t', hrun, hrun', -, ht, -, hends⟩ :=
    Task.repeats_finish wide (Task.ofResource 0 (group name limit members)).work
      (Task.ofResource 0 (group name limit members)).work
      (Task.twins_ofResource s.heap s'.heap s.heap 0 _ hknown hpanic) s s' (.refl _)
      (.initial hext hs) trivial
  have hrelease := run_releaseBy wide (group name limit members) s
  have hrelease' := run_releaseBy wide (group name limit members) s'
  simp only [hrun] at hrelease
  simp only [hrun'] at hrelease'
  cases hends with
  | succeeded => exact ⟨_, _, t, t', hrelease, hrelease', ht, .succeeded⟩
  | @failed e e' he hroot =>
    obtain ⟨f, rfl, hf⟩ := hroot _ rfl
    cases he with
    | same hold => exact absurd hold (Nat.not_lt_of_le hf.1)
    | failure => exact ⟨_, _, t, t', hrelease, hrelease', ht, .failed hf⟩

/-- What one release of a group does to the heap. -/
theorem release_extends (hs : s.heap.Sound)
    (hknown : (group name limit members).All (· < s.heap.size))
    (hpanic : (group name limit members).PanicFree) :
    ∃ result t, ((group name limit members).releaseBy wide).run s = .ok result t ∧
      s.heap.Extends t.heap ∧ t.heap.Sound ∧
      ∀ f, result = .error f →
        Collector.RootIn s.heap (groupMessage name members.length) t.heap f := by
  obtain ⟨result, result', t, t', hrun, -, ht, hresult⟩ :=
    release_twins wide hs (.refl s.heap) hknown hpanic
  have hgrown := grows_releaseBy wide hknown s (Nat.le_refl _) hs trivial
  rw [hrun] at hgrown
  refine ⟨result, t, hrun, ht.first, hgrown.1.sound hs, ?_⟩
  cases hresult with
  | succeeded => simp
  | failed hf =>
    rintro _ ⟨⟩
    exact hf

end

end ResourceOf

open ResourceOf

section

variable (wide : Width) {name : String} {limit : Nat} {members : List Resource}
  {s : Scene Finished}

/-- Whatever number of releases has led to a scene, the next one returns. -/
theorem released_step (hs : s.heap.Sound)
    (hknown : (ResourceOf.group name limit members).All (· < s.heap.size))
    (hpanic : (ResourceOf.group name limit members).PanicFree) (n : Nat) :
    let scene := (ResourceOf.group name limit members).released wide s
    (scene n).heap.Sound ∧ s.heap.Extends (scene n).heap ∧
      (scene n).heap.Extends (scene (n + 1)).heap ∧
      ∃ result, ((ResourceOf.group name limit members).releaseBy wide).run (scene n) =
          .ok result (scene (n + 1)) ∧
        ∀ f, result = .error f → Collector.RootIn (scene n).heap
          (groupMessage name members.length) (scene (n + 1)).heap f := by
  intro scene
  have hstep : ∀ n, (scene n).heap.Sound → s.heap.Extends (scene n).heap →
      ∃ result, ((ResourceOf.group name limit members).releaseBy wide).run (scene n) =
          .ok result (scene (n + 1)) ∧ (scene n).heap.Extends (scene (n + 1)).heap ∧
        (scene (n + 1)).heap.Sound ∧
        ∀ f, result = .error f → Collector.RootIn (scene n).heap
          (groupMessage name members.length) (scene (n + 1)).heap f := by
    intro n hsound hext
    have hknown := hknown.mono fun f hf => Nat.lt_of_lt_of_le hf hext.size_le
    obtain ⟨result, t, hrun, hstep⟩ := release_extends wide hsound hknown hpanic
    have hafter : scene (n + 1) = t := after_of_ok hrun
    rw [hafter]
    exact ⟨result, hrun, hstep⟩
  have hreached : (scene n).heap.Sound ∧ s.heap.Extends (scene n).heap := by
    induction n with
    | zero => exact ⟨hs, .refl _⟩
    | succ n ih =>
      obtain ⟨-, -, hext, hsound, -⟩ := hstep n ih.1 ih.2
      exact ⟨hsound, ih.2.trans hext⟩
  obtain ⟨result, hrun, hext, -, hroot⟩ := hstep n hreached.1 hreached.2
  exact ⟨hreached.1, hreached.2, hext, result, hrun, hroot⟩

theorem released_extends (hs : s.heap.Sound)
    (hknown : (ResourceOf.group name limit members).All (· < s.heap.size))
    (hpanic : (ResourceOf.group name limit members).PanicFree) {n m : Nat} (hnm : n ≤ m) :
    let scene := (ResourceOf.group name limit members).released wide s
    (scene n).heap.Extends (scene m).heap := by
  intro scene
  induction hnm with
  | refl => exact .refl _
  | step _ ih => exact ih.trans (released_step wide hs hknown hpanic _).2.2.1

end

/-- **Releasing a group again and again.** Let no leaf panic, and let the failures that
errors refer to exist. However often the group has been released, the next release returns
and changes no failure that was there before it. It fails if the first one does, and then
gives a new root of the group. Whenever this root is looked at, after however many more
releases, its report is the one that the root of the first release had at first. -/
theorem releases_repeat (wide : Width) (name : String) (limit : Nat) (members : List Resource)
    (s : Scene Finished) (hs : s.heap.Sound)
    (hknown : (ResourceOf.group name limit members).All (· < s.heap.size))
    (hpanic : (ResourceOf.group name limit members).PanicFree) :
    let resource := ResourceOf.group name limit members
    let scene := resource.released wide s
    ∃ result : Nat → Except FailureId Unit, ∀ n,
      (resource.releaseBy wide).run (scene n) = .ok (result n) (scene (n + 1)) ∧
      (scene n).heap.Extends (scene (n + 1)).heap ∧
      (result n = .ok () ↔ result 0 = .ok ()) ∧
      ∀ f, result n = .error f →
        (scene n).heap.size ≤ f ∧
        (∃ kept, (scene (n + 1)).heap.get? f = some {
          kind := .error, message := groupMessage name members.length, suppressed := kept }) ∧
        ∀ first, result 0 = .error first → ∀ m, n < m →
          (scene m).heap.report f = (scene 1).heap.report first := by
  intro resource scene
  have hstep := released_step wide hs hknown hpanic
  have hruns : ∀ n, ∃ result, (resource.releaseBy wide).run (scene n) =
      .ok result (scene (n + 1)) := fun n => by
    obtain ⟨-, -, -, result, hrun, -⟩ := hstep n
    exact ⟨result, hrun⟩
  let result : Nat → Except FailureId Unit := fun n => (hruns n).choose
  have hresult : ∀ n, (resource.releaseBy wide).run (scene n) =
      .ok (result n) (scene (n + 1)) := fun n => (hruns n).choose_spec
  refine ⟨result, fun n => ?_⟩
  obtain ⟨-, hlater, hext, r, hrun, hroot⟩ := hstep n
  obtain rfl : result n = r := by
    have hsame := (hresult n).symm.trans hrun
    injection hsame
  -- the first release and this one, side by side
  obtain ⟨r₀, r, t₀, t, hrun₀, hrun', ht, htwins⟩ :=
    release_twins wide hs hlater hknown hpanic
  obtain ⟨rfl, rfl⟩ : result 0 = r₀ ∧ scene 1 = t₀ := by
    have hsame := (hresult 0).symm.trans hrun₀
    injection hsame with hr ht
    exact ⟨hr, ht⟩
  obtain ⟨rfl, rfl⟩ : result n = r ∧ scene (n + 1) = t := by
    have hsame := (hresult n).symm.trans hrun'
    injection hsame with hr ht
    exact ⟨hr, ht⟩
  refine ⟨hrun, hext, ?_, fun f hf => ?_⟩
  · generalize result 0 = r₀, result n = r at htwins
    cases htwins <;> simp
  · obtain ⟨hnew, kept, hkept⟩ := hroot f hf
    refine ⟨hnew, ⟨kept, hkept⟩, fun first hfirst m hnm => ?_⟩
    obtain rfl : f = twinOf s.heap (scene n).heap first := by
      rw [hf, hfirst] at htwins
      cases htwins
      rfl
    have hstays : (scene (n + 1)).heap.Extends (scene m).heap :=
      released_extends wide hs hknown hpanic hnm
    calc (scene m).heap.report (twinOf s.heap (scene n).heap first)
        = (scene (n + 1)).heap.report (twinOf s.heap (scene n).heap first) :=
          hstays.report_eq (hstep (n + 1)).1 (lt_size_of_get? hkept)
      _ = (scene 1).heap.report first := ht.report_eq hs (hstep 1).1 (hstep (n + 1)).1 first

/-- Two leaves that fail with one failure, which is over the limit of their group. -/
def sharing : Resource :=
  .group "g" 2
    [.leaf "a" 0 (.fails (.failure 0)), .leaf "b" 1 (.fails (.context "b" (.failure 0)))]

/-- Before its first release. The failure suppresses itself. -/
def unreleased : Scene Finished := { heap := entwined, focus := #[] }

theorem sharing_fails (t : Scene Finished) :
    (sharing.releaseBy narrow).run unreleased ≠ .ok (.ok ()) t := by
  intro hrun
  have hfails : ((sharing.releaseBy narrow).run' unreleased).map (·.isOk) = some false := by
    decide +kernel
  delta EStateM.run' at hfails
  rw [hrun] at hfails
  cases hfails

/-- All that is kept of the shared failure are copies. The root of the third release shows,
two releases later, what that of the first did. -/
theorem releases_repeat_sharing :
    entwined.Sound ∧ sharing.All (· < entwined.size) ∧ sharing.PanicFree ∧
      ∃ f g,
        (sharing.releaseBy narrow).run unreleased =
          .ok (.error f) (sharing.released narrow unreleased 1) ∧
        (sharing.releaseBy narrow).run (sharing.released narrow unreleased 2) =
          .ok (.error g) (sharing.released narrow unreleased 3) ∧
        (sharing.released narrow unreleased 5).heap.report g =
          (sharing.released narrow unreleased 1).heap.report f := by
  have hknown : sharing.All (· < entwined.size) := by
    simp [sharing, ResourceOf.All, AllOf, EndingOf.All, ErrorOf.All, entwined, Heap.size]
  have hpanic : sharing.PanicFree := by simp [PanicFree, sharing, leaves, leavesOf]
  obtain ⟨result, hall⟩ := releases_repeat narrow _ _ _ unreleased sound_entwined hknown hpanic
  obtain ⟨hrun₀, -, -, -⟩ := hall 0
  obtain ⟨hrun₂, -, hok, hroot⟩ := hall 2
  cases h₀ : result 0 with
  | ok u => exact absurd (h₀ ▸ hrun₀) (sharing_fails _)
  | error f =>
    cases h₂ : result 2 with
    | ok u => simp [h₀, h₂] at hok
    | error g =>
      obtain ⟨-, -, hreport⟩ := hroot g h₂
      exact ⟨sound_entwined, hknown, hpanic, f, g, h₀ ▸ hrun₀, h₂ ▸ hrun₂,
        hreport f h₀ 5 (by decide)⟩

end Teardown
