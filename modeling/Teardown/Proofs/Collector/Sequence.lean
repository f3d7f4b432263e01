/-
# Releasing a sequence

Resources are released in order on behalf of a collector that no one else has, and
what becomes of a resource is told by how its release ends. A resource that ends
without a panic lets the next one be released, and its error, if it ends with one, is
recorded. So the failures of the sequence are gathered as those of any other round
(`run_noted`). A panic is the end of the sequence: it leaves with its payload, and the
collector, which is dropped then and not closed, tells of what it has recorded
(`release_sequence`).

What is said of the failures is said of releases that do not touch them: such a
release may make failures for the error it ends with, but changes none that exists.

Key definitions: `noting`, `Ended`, `endings`, `Discreet`.
Key theorems: `run_noted`, `release_sequence`.
-/
import Teardown.Proofs.Collector.Delivery
import Teardown.Proofs.Collector.Gathering
import Teardown.Proofs.Failure.Normalizing

namespace Teardown

open Collector

variable {σ : Type}

/-! ### Releases that are noted -/

/-- Releases a resource, after its number has been noted in a record. -/
def noting (i : Nat) (release : Release σ) : Act (σ × List Nat) (Except ErrorValue Unit) := do
  modify fun s => { s with focus := (s.focus.1, s.focus.2 ++ [i]) }
  Place.first.run release

/-- Notes each of some resources, whose numbers begin with `i`, when it is released. -/
def notingFrom : Nat → List (Release σ) → List (Release (σ × List Nat))
  | _, [] => []
  | i, release :: rest => noting i release :: notingFrom (i + 1) rest

theorem length_notingFrom : ∀ (i : Nat) (resources : List (Release σ)),
    (notingFrom i resources).length = resources.length
  | _, [] => rfl
  | i, _ :: rest => congrArg (· + 1) (length_notingFrom (i + 1) rest)

theorem run_noting (i : Nat) (release : Release σ) (s : Scene σ) (record : List Nat) :
    (noting i release).run (s.paired record) =
      match release.run s with
      | .ok result t => .ok result (t.paired (record ++ [i]))
      | .error payload t => .error payload (t.paired (record ++ [i])) := by
  have hnoted : (noting i release).run (s.paired record) =
      (Place.first.run release).run (s.paired (record ++ [i])) := rfl
  rw [hnoted, Place.run_first]
  cases release.run s <;> rfl

/-! ### How releases end -/

/-- How the release of a resource ended, and the heap that it left. -/
structure Ended where
  result : Except Payload (Except ErrorValue Unit)
  heap : Heap

namespace Ended

/-- How an act that releases a resource ends. -/
def of (act : Release σ) (s : Scene σ) : Ended :=
  match act.run s with
  | .ok result t => ⟨.ok result, t.heap⟩
  | .error payload t => ⟨.error payload, t.heap⟩

/-- The failure of the error that the release ended with, in the heap that then
holds it. -/
def offer? (ending : Ended) : Option (FailureId × Heap) :=
  match ending.result with
  | .ok (.error e) => some (ending.heap.ofError e)
  | _ => none

/-- What the panic that the release ended with carries. -/
def panic? (ending : Ended) : Option Payload :=
  match ending.result with
  | .error payload => some payload
  | .ok _ => none

end Ended

/-- How the releases of resources end, up to the first that panics. Each is done in
the scene that the ones before it and the recording of their errors leave. -/
def endings : List (Release σ) → Scene (Collector × σ) → List Ended
  | [], _ => []
  | release :: rest, s =>
      let ending := Ended.of (Place.second.run release) s
      ending ::
        if ending.panic?.isSome then []
        else endings rest
          ((closeSuppressing Place.first (some (Place.second.run release))).after s)

/-- A panic is the last of the endings. -/
theorem endings_panic : ∀ {resources : List (Release σ)} {s : Scene (Collector × σ)}
    {before after : List Ended} {last : Ended} {payload : Payload},
    endings resources s = before ++ last :: after → last.panic? = some payload →
      after = [] ∧ ∀ ending ∈ before, ending.panic? = none
  | [], _, before, _, _, _, h, _ => by simp [endings] at h
  | release :: rest, s, [], after, last, payload, h, hlast => by
    obtain ⟨rfl, hafter⟩ := List.cons.inj h
    rw [hlast, Option.isSome_some, if_pos rfl] at hafter
    exact ⟨hafter.symm, by simp⟩
  | release :: rest, s, first :: before, after, last, payload, h, hlast => by
    obtain ⟨rfl, hrest⟩ := List.cons.inj h
    split at hrest
    · simp at hrest
    · rename_i hfirst
      obtain ⟨hafter, hbefore⟩ := endings_panic hrest hlast
      refine ⟨hafter, fun ending hmem => ?_⟩
      rcases List.mem_cons.mp hmem with rfl | hmem
      · simpa using hfirst
      · exact hbefore ending hmem

/-- Without a panic every resource comes to an end. -/
theorem length_endings : ∀ {resources : List (Release σ)} {s : Scene (Collector × σ)},
    (∀ ending ∈ endings resources s, ending.panic? = none) →
      (endings resources s).length = resources.length
  | [], _, _ => rfl
  | release :: rest, s, h => by
    have hfirst := h _ (List.mem_cons_self ..)
    simp only [endings, hfirst, Option.isSome_none, Bool.false_eq_true, if_false] at h ⊢
    exact congrArg (· + 1) (length_endings fun ending hmem => h ending (List.mem_cons_of_mem _ hmem))

/-! ### Releases that do not touch failures -/

/-- A release that touches none of the failures there are, which are at least `n`. It
may make failures, for the error that it ends with. -/
structure Discreet (n : Nat) (release : Release σ) : Prop where
  extends_heap : ∀ s : Scene σ, n ≤ s.heap.size → s.heap.Extends (release.after s).heap
  warnings_eq : ∀ s : Scene σ, n ≤ s.heap.size →
    warnings (release.after s).log = warnings s.log
  all_lt : ∀ (s : Scene σ) e t, n ≤ s.heap.size → release.run s = .ok (.error e) t →
    e.All (· < t.heap.size)

/-- The collector of a sequence after `offers` have been made to it. It has warned of
nothing: the warnings are those that there were, `told`. -/
structure Sweeping (n limit : Nat) (told : List Event) (offers : List (FailureId × Heap))
    (s : Scene Collector) : Prop where
  gathered : Gathering limit offers s
  size_le : n ≤ s.heap.size
  warnings_eq : warnings s.log = told
  warnsOnDrop : s.focus.warnsOnDrop = true

namespace Sweeping

variable {n limit : Nat} {told : List Event} {offers : List (FailureId × Heap)}
  {s t : Scene Collector}

/-- A release makes failures and does not warn. -/
theorem of_extends (h : Sweeping n limit told offers s) (hfocus : t.focus = s.focus)
    (hext : s.heap.Extends t.heap) (hwarnings : warnings t.log = warnings s.log) :
    Sweeping n limit told offers t where
  gathered := h.gathered.of_extends hfocus hext
  size_le := Nat.le_trans h.size_le hext.size_le
  warnings_eq := hwarnings.trans h.warnings_eq
  warnsOnDrop := hfocus ▸ h.warnsOnDrop

/-- The error of a release is recorded. -/
theorem addError (h : Sweeping n limit told offers s) {e : ErrorValue}
    (he : e.All (· < s.heap.size)) :
    ∃ t, (Collector.addError e).run s = .ok () t ∧
      Sweeping n limit told (offers ++ [s.heap.ofError e]) t := by
  have hext := s.heap.extends_ofError e
  have hmade : Gathering limit offers { s with heap := (s.heap.ofError e).2 } :=
    h.gathered.of_extends rfl hext
  obtain ⟨t, ht, hsize, hg⟩ := hmade.add (Heap.yields_ofError he).2
  have hrun : (Collector.addError e).run s = .ok () t := ht
  have hafter : (⟨.add (·.ofError e), s⟩ : Moment).after = t :=
    (after_addError e s).symm.trans (Act.after_of_ok hrun)
  have hwarnings := Moment.warnings_after ⟨.add (·.ofError e), s⟩
  have hwarns := Moment.warnsOnDrop_after ⟨.add (·.ofError e), s⟩
  rw [hafter] at hwarnings hwarns
  exact ⟨t, hrun, hg, Nat.le_trans h.size_le (Nat.le_trans hext.size_le hsize),
    hwarnings.trans h.warnings_eq, hwarns.trans h.warnsOnDrop⟩

/-- Nothing was offered, and so nothing is held. -/
theorem primary_of_nil (h : Sweeping n limit told [] s) : s.focus.primary = none :=
  (h.gathered.start rfl).primary

/-- What stands for the first failure is held. -/
theorem primary_of_cons {f : FailureId} {k : Heap} {later : List (FailureId × Heap)}
    (h : Sweeping n limit told ((f, k) :: later) s) :
    s.focus.primary = some (k.limit limit f).1 ∧ s.heap.message (k.limit limit f).1 = k.message f ∧
      s.heap.suppressed (k.limit limit f).1 = (k.limit limit f).2.suppressed (k.limit limit f).1 ++
        standIns (k.limit limit f).1 limit (later.take (limit - 1)) := by
  obtain ⟨x, hx, ho⟩ := h.gathered.opened f k later rfl
  have hsuppressed := ho.suppressed
  rw [h.gathered.limit_eq] at hsuppressed
  refine ⟨ho.primary, ?_, ?_⟩
  · rw [ho.message, ← Heap.message_limit k limit f, Heap.message, hx]
    rfl
  · rw [hsuppressed, Heap.suppressed_of_get? hx]

theorem warnings_after_drop_of_nil (h : Sweeping n limit told [] s) :
    warnings (drop.after s).log = told := by
  have hdrop : (drop.after s).log = s.log := by simp [Act.after, run_drop, h.primary_of_nil]
  rw [hdrop, h.warnings_eq]

/-- A drop tells of the failure that is held, by the message of the first one that was
offered. -/
theorem warnings_after_drop_of_cons {f : FailureId} {k : Heap} {later : List (FailureId × Heap)}
    (h : Sweeping n limit told ((f, k) :: later) s) :
    ∃ event, warnings (drop.after s).log = told ++ [event] ∧
      event.message = "deferred failure dropped without being raised" ∧
      event.fields = [("failure", .text (k.message f)),
        ("report", .text (s.heap.report (k.limit limit f).1).encode)] := by
  obtain ⟨hprimary, hmessage, -⟩ := h.primary_of_cons
  have hdrop : (drop.after s).log =
      s.log.push (.droppedUnraised (s.heap.report (k.limit limit f).1)) := by
    simp [Act.after, run_drop, hprimary, h.warnsOnDrop, h.gathered.isOpen]
  refine ⟨.droppedUnraised (s.heap.report (k.limit limit f).1), ?_, rfl, ?_⟩
  · rw [hdrop, warnings_push, h.warnings_eq]
    rfl
  · rw [Event.fields, message_report, hmessage]

section

variable {τ α : Type} {c : Collector} {body : Act (Collector × τ) α} {u : Scene τ} {x : τ}

/-- A scope whose body ends well gives what stands for the first failure, if one was
offered. -/
theorem run_scope_ok {value : α} (h : Sweeping n limit told offers s)
    (hbody : body.run (Scene.paired ⟨u.heap, u.log, c⟩ u.focus) = .ok value (s.paired x)) :
    ∃ result v, (scope c body).run u = .ok result v ∧ v.focus = x ∧
      (result = .ok value ↔ offers = []) ∧
      ∀ f k later, offers = (f, k) :: later →
        let p := (k.limit limit f).1
        result = .error p ∧ v.heap.suppressed p =
          (k.limit limit f).2.suppressed p ++ standIns p limit (later.take (limit - 1)) := by
  have hrun := run_scope_of_ok hbody h.gathered.isOpen
  cases offers with
  | nil =>
    rw [h.primary_of_nil] at hrun
    exact ⟨_, _, hrun, rfl, by simp, by simp⟩
  | cons first later =>
    obtain ⟨hprimary, -, hsuppressed⟩ := h.primary_of_cons
    rw [hprimary] at hrun
    refine ⟨_, _, hrun, rfl, by simp, ?_⟩
    rintro f k later ⟨⟩
    exact ⟨rfl, hsuppressed⟩

/-- A scope whose body panics warns of the first failure, if one was offered. -/
theorem run_scope_error {payload : Payload} (h : Sweeping n limit told offers s)
    (hbody : body.run (Scene.paired ⟨u.heap, u.log, c⟩ u.focus) = .error payload (s.paired x)) :
    ∃ v, (scope c body).run u = .error payload v ∧ v.focus = x ∧
      (offers = [] → warnings v.log = told) ∧
      ∀ f k later, offers = (f, k) :: later →
        ∃ event, warnings v.log = told ++ [event] ∧
          event.message = "deferred failure dropped without being raised" ∧
          event.fields = [("failure", .text (k.message f)),
            ("report", .text (v.heap.report (k.limit limit f).1).encode)] := by
  refine ⟨_, run_scope_of_error hbody, rfl, ?_, ?_⟩
  · rintro rfl
    exact h.warnings_after_drop_of_nil
  · rintro f k later rfl
    exact h.warnings_after_drop_of_cons

end

end Sweeping

/-- How an act ends that panics with `payload`, if there is one. -/
def endsWith (panic : Option Payload) (s : Scene σ) : EStateM.Result Payload (Scene σ) Unit :=
  match panic with
  | some payload => .error payload s
  | none => .ok () s

variable {n limit : Nat} {told : List Event}

/-- **What one release does.** Its number is noted, and its error is recorded, if it
ends with one. -/
theorem run_noted_one {release : Release σ} (hd : Discreet n release) (i : Nat)
    {offers : List (FailureId × Heap)} {s : Scene Collector}
    (hs : Sweeping n limit told offers s) (x : σ) (record : List Nat) :
    let ending := Ended.of (Place.second.run (noting i release)) (s.paired (x, record))
    ∃ t y,
      (closeSuppressing Place.first (some (Place.second.run (noting i release)))).run
        (s.paired (x, record)) = endsWith ending.panic? (Scene.paired t (y, record ++ [i])) ∧
      Sweeping n limit told (offers ++ ending.offer?.toList) t := by
  have hext := hd.extends_heap ⟨s.heap, s.log, x⟩ hs.size_le
  have hwarnings := hd.warnings_eq ⟨s.heap, s.log, x⟩ hs.size_le
  have hall := hd.all_lt ⟨s.heap, s.log, x⟩
  -- how the release is run beside the collector, with its number noted
  have hnoting := run_noting i release ⟨s.heap, s.log, x⟩ record
  have hone := run_closeSuppressingFirst (noting i release) hs.gathered.isOpen (x, record)
  have hsecond := Place.run_second (noting i release) s (x, record)
  rw [show (⟨s.heap, s.log, (x, record)⟩ : Scene (σ × List Nat)) =
    Scene.paired ⟨s.heap, s.log, x⟩ record from rfl, hnoting] at hone hsecond
  rw [Ended.of, hsecond]
  simp only [Act.after] at hext hwarnings
  generalize release.run ⟨s.heap, s.log, x⟩ = r at hone hext hwarnings hall
  have hmade : ∀ {t : Scene σ}, s.heap.Extends t.heap → warnings t.log = warnings s.log →
      Sweeping n limit told offers ⟨t.heap, t.log, s.focus⟩ :=
    fun hext hwarnings => hs.of_extends rfl hext hwarnings
  cases r with
  | error payload t =>
    refine ⟨⟨t.heap, t.log, s.focus⟩, t.focus, hone, ?_⟩
    simpa [Ended.offer?] using hmade hext hwarnings
  | ok result t =>
    cases result with
    | ok u =>
      refine ⟨⟨t.heap, t.log, s.focus⟩, t.focus, hone, ?_⟩
      simpa [Ended.offer?] using hmade hext hwarnings
    | error e =>
      obtain ⟨v, hv, hsv⟩ := (hmade hext hwarnings).addError (hall e t hs.size_le rfl)
      refine ⟨v, t.focus, hone.trans ?_, hsv⟩
      exact (Place.run_first (addError e) ⟨t.heap, t.log, s.focus⟩ _).trans (by rw [hv]; rfl)

/-- **What a sequence gathers.** -/
theorem run_noted : ∀ (resources : List (Release σ)) (i : Nat)
    {offers : List (FailureId × Heap)} {s : Scene Collector} (x : σ) (record : List Nat),
    (∀ release ∈ resources, Discreet n release) → Sweeping n limit told offers s →
    let ends := endings (notingFrom i resources) (s.paired (x, record))
    ∃ t y,
      ((notingFrom i resources).forM fun release =>
        closeSuppressing Place.first (some (Place.second.run release))).run
          (s.paired (x, record)) =
        endsWith (ends.findSome? Ended.panic?)
          (Scene.paired t (y, record ++ List.range' i ends.length)) ∧
      Sweeping n limit told (offers ++ ends.filterMap Ended.offer?) t
  | [], i, offers, s, x, record, _, hs => by
    refine ⟨s, x, ?_, ?_⟩
    · simp [endings, notingFrom, endsWith]
    · simpa [endings, notingFrom] using hs
  | release :: rest, i, offers, s, x, record, hd, hs => by
    have hdr : Discreet n release := hd release (List.mem_cons_self ..)
    have hdrest : ∀ release ∈ rest, Discreet n release :=
      fun release hmem => hd release (List.mem_cons_of_mem _ hmem)
    obtain ⟨t, y, hrun, ht⟩ := run_noted_one hdr i hs x record
    have hoffers : ∀ ends : List Ended, (Ended.of (Place.second.run (noting i release))
        (s.paired (x, record)) :: ends).filterMap Ended.offer? =
          (Ended.of (Place.second.run (noting i release)) (s.paired (x, record))).offer?.toList ++
            ends.filterMap Ended.offer? := by
      intro ends
      rw [List.filterMap_cons]
      cases Ended.offer? _ <;> rfl
    rw [notingFrom, List.forM_eq_forM, List.forM_cons, EStateM.run_bind, hrun]
    simp only [endings, Act.after, hrun, hoffers, List.findSome?_cons, List.length_cons,
      List.range'_succ]
    generalize Ended.of (Place.second.run (noting i release)) (s.paired (x, record)) = ending at ht
    cases hpanic : ending.panic? with
    | some payload =>
      -- the sequence ends here
      refine ⟨t, y, ?_, ?_⟩
      · simp [endsWith]
      · simpa using ht
    | none =>
      obtain ⟨v, z, hv, hsv⟩ := run_noted rest (i + 1) y (record ++ [i]) hdrest ht
      refine ⟨v, z, ?_, ?_⟩
      · simpa [endsWith] using hv
      · simpa [endsWith] using hsv

/-- A new collector, before anything is released on its behalf. -/
theorem Sweeping.new (s : Scene σ) :
    Sweeping s.heap.size 5 (warnings s.log) [] ⟨s.heap, s.log, {}⟩ where
  gathered := ⟨rfl, rfl, rfl, fun _ => startsRound_new, by simp⟩
  size_le := Nat.le_refl _
  warnings_eq := rfl
  warnsOnDrop := rfl

/-- **Releasing a sequence.** If no release panics, each resource is released once, in
order. It ends well if no release ended with an error. Otherwise it ends with what
stands for the failure of the first error, to which what stands for those of the next
four errors has been attached in order, but for the failure itself. The first panic
is the end: that resource is the last to be released, and the panic goes on with its
payload. If a release before it ended with an error there is one warning that names
the failure of the first error, and otherwise there is none. -/
theorem release_sequence (s : Scene σ) (resources : List (Release σ))
    (hd : ∀ release ∈ resources, Discreet s.heap.size release) :
    let start := Scene.paired ⟨s.heap, s.log, ({} : Collector)⟩ (s.focus, ([] : List Nat))
    let ends := endings (notingFrom 0 resources) start
    let r := (releaseAll (notingFrom 0 resources)).run (s.paired [])
    ((∀ ending ∈ ends, ending.panic? = none) →
      let offers := ends.filterMap Ended.offer?
      ∃ result t, r = .ok result t ∧
        ends.length = resources.length ∧ t.focus.2 = List.range resources.length ∧
        (result = .ok () ↔ offers = []) ∧
        ∀ f h later, offers = (f, h) :: later →
          let p := (h.limit 5 f).1
          result = .error p ∧ t.heap.suppressed p =
            (h.limit 5 f).2.suppressed p ++ standIns p 5 (later.take 4)) ∧
    ∀ before last after payload, ends = before ++ last :: after → last.panic? = some payload →
      let offers := before.filterMap Ended.offer?
      after = [] ∧ ∃ t, r = .error payload t ∧ t.focus.2 = List.range (before.length + 1) ∧
        (offers = [] → warnings t.log = warnings s.log) ∧
        ∀ f h later, offers = (f, h) :: later →
          ∃ event, warnings t.log = warnings s.log ++ [event] ∧
            event.message = "deferred failure dropped without being raised" ∧
            event.fields = [("failure", .text (h.message f)),
              ("report", .text (t.heap.report (h.limit 5 f).1).encode)] := by
  intro start ends r
  obtain ⟨t, y, hrun, ht⟩ := run_noted resources 0 s.focus [] hd (Sweeping.new s)
  change _ = endsWith (ends.findSome? Ended.panic?)
    (t.paired (y, [] ++ List.range' 0 ends.length)) at hrun
  change Sweeping s.heap.size 5 (warnings s.log) ([] ++ ends.filterMap Ended.offer?) t at ht
  rw [List.nil_append, ← List.range_eq_range'] at hrun
  rw [List.nil_append] at ht
  refine ⟨fun hnone => ?_, fun before last after payload hsplit hlast => ?_⟩
  · have hlength : ends.length = resources.length :=
      (length_endings hnone).trans (length_notingFrom 0 resources)
    rw [List.findSome?_eq_none_iff.mpr hnone, hlength] at hrun
    obtain ⟨result, u, hr, hfocus, hok, herror⟩ := ht.run_scope_ok (u := s.paired []) hrun
    exact ⟨result, u, hr, hlength, congrArg Prod.snd hfocus, hok, herror⟩
  · obtain ⟨rfl, hbefore⟩ := endings_panic hsplit hlast
    have hpanic : ends.findSome? Ended.panic? = some payload := by
      rw [hsplit, List.findSome?_append, List.findSome?_eq_none_iff.mpr hbefore]
      simp [hlast]
    have hoffer : last.offer? = none := by
      obtain ⟨result, h⟩ := last
      cases result with
      | error => rfl
      | ok => cases hlast
    have hlength : ends.length = before.length + 1 := by simp [hsplit]
    have hoffers : ends.filterMap Ended.offer? = before.filterMap Ended.offer? := by
      simp [hsplit, hoffer]
    rw [hpanic, hlength] at hrun
    rw [hoffers] at ht
    obtain ⟨u, hr, hfocus, hnil, hcons⟩ := ht.run_scope_error (u := s.paired []) hrun
    exact ⟨rfl, u, hr, congrArg Prod.snd hfocus, hnil, hcons⟩

/-- A release that does nothing but end. -/
def endingIn (result : Except Payload (Except ErrorValue Unit)) : Release σ := fun s =>
  match result with
  | .ok result => .ok result s
  | .error payload => .error payload s

theorem discreet_endingIn {result : Except Payload (Except ErrorValue Unit)}
    (h : ∀ e, result = .ok (.error e) → e.All (· < n)) : Discreet n (endingIn result : Release σ) := by
  have hafter : ∀ s : Scene σ, (endingIn result : Release σ).after s = s := by
    intro s
    cases result <;> rfl
  refine ⟨fun s _ => ?_, fun s _ => ?_, fun s e t hn hrun => ?_⟩
  · rw [hafter]
    exact .refl _
  · rw [hafter]
  · cases result with
    | error payload => cases hrun
    | ok result =>
      cases hrun
      exact ErrorOf.All.mono (fun f hf => Nat.lt_of_lt_of_le hf hn) (h e rfl)

/-- Beside the two failures of `caused`, three releases fail, the last one with the
first one's failure again; then a release panics after one that failed. -/
theorem release_sequence_caused :
    let s : Scene Unit := { heap := caused, focus := () }
    let failing : List (Release Unit) := [endingIn (.ok (.error (.failure 0))), endingIn (.ok (.ok ())),
      endingIn (.ok (.error (.message "c"))), endingIn (.ok (.error (.context "d" (.failure 0))))]
    let panicking : List (Release Unit) := [endingIn (.ok (.error (.failure 1))),
      endingIn (.error (.text "e")), endingIn (.ok (.ok ()))]
    (∀ release ∈ failing ++ panicking, Discreet s.heap.size release) ∧
      (∃ t, (releaseAll (notingFrom 0 failing)).run (s.paired []) = .ok (.error 0) t ∧
        t.focus.2 = [0, 1, 2, 3] ∧ t.heap.suppressed 0 = [2]) ∧
      ∃ t event, (releaseAll (notingFrom 0 panicking)).run (s.paired []) = .error (.text "e") t ∧
        t.focus.2 = [0, 1] ∧ warnings t.log = [event] ∧
        event.fields.head? = some ("failure", .text "b") := by
  intro s failing panicking
  have hd : ∀ release ∈ failing ++ panicking, Discreet s.heap.size release := by
    simp only [failing, panicking, List.cons_append, List.nil_append, List.forall_mem_cons]
    refine ⟨?_, ?_, ?_, ?_, ?_, ?_, ?_, by simp⟩ <;> refine discreet_endingIn fun e he => ?_ <;>
      cases he
    · exact Nat.zero_lt_two
    · trivial
    · exact Nat.zero_lt_two
    · exact Nat.one_lt_two
  obtain ⟨hfailing, -⟩ := release_sequence s failing fun release hmem =>
    hd release (List.mem_append_left _ hmem)
  obtain ⟨-, hpanicking⟩ := release_sequence s panicking fun release hmem =>
    hd release (List.mem_append_right _ hmem)
  obtain ⟨result, t, hrun, -, hrecord, -, hheld⟩ := hfailing (by decide +kernel)
  obtain ⟨rfl, hsuppressed⟩ := hheld 0 caused _ rfl
  obtain ⟨-, u, hu, hnoted, -, hwarned⟩ := hpanicking [⟨.ok (.error (.failure 1)), caused⟩]
    ⟨.error (.text "e"), caused⟩ [] (.text "e") rfl rfl
  obtain ⟨event, hevent, -, hfields⟩ := hwarned 1 caused [] rfl
  refine ⟨hd, ⟨t, hrun, hrecord, hsuppressed.trans ?_⟩, u, event, hu, hnoted, hevent, ?_⟩
  · decide +kernel
  · rw [hfields]
    rfl

end Teardown
