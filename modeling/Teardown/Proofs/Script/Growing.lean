/-
# Scripts only grow the heap

What is known of a session is that its names stand for failures which exist and
that its collectors are known. Every step keeps it, whatever it runs and however
it ends, so that whatever a script does, the heap only grows.

Key definitions: `Script.Session.known`.
Key theorems: `Script.grows_answering`, `Script.Action.grows_play`,
`Script.Step.grows_play`, `Script.grows_playAll`.
-/
import Teardown.Script.Run
import Teardown.Proofs.Release.Growing

namespace Teardown

open Act

/-! ### Building failures -/

namespace Script

section

variable {φ ψ ε : Type} {P : φ → Prop}

mutual

/-- `P` holds of every failure that a tree refers to. -/
def TreeOf.All (P : φ → Prop) : TreeOf φ → Prop
  | .node _ children => TreeOf.AllOf P children
  | .ref f => P f

/-- `P` holds of every failure that one of several trees refers to. -/
def TreeOf.AllOf (P : φ → Prop) : List (TreeOf φ) → Prop
  | [] => True
  | t :: rest => t.All P ∧ TreeOf.AllOf P rest

end

mutual

theorem TreeOf.All.mono {Q : φ → Prop} (hPQ : ∀ f, P f → Q f) :
    ∀ {t : TreeOf φ}, t.All P → t.All Q
  | .node _ _, h => TreeOf.AllOf.mono hPQ h
  | .ref f, h => hPQ f h

theorem TreeOf.AllOf.mono {Q : φ → Prop} (hPQ : ∀ f, P f → Q f) :
    ∀ {ts : List (TreeOf φ)}, TreeOf.AllOf P ts → TreeOf.AllOf Q ts
  | [], _ => trivial
  | _ :: _, h => ⟨TreeOf.All.mono hPQ h.1, TreeOf.AllOf.mono hPQ h.2⟩

end

mutual

theorem TreeOf.all_of_traverse {g : ψ → Except ε φ} (hg : ∀ a b, g a = .ok b → P b) :
    ∀ {t : TreeOf ψ} {t' : TreeOf φ}, t.traverse g = .ok t' → t'.All P
  | .node _ _, _, h => by
    rw [traverse] at h
    obtain ⟨children, hc, hc'⟩ := ok_of_bind h
    cases hc'
    rw [All]
    exact TreeOf.allOf_of_traverseAll hg hc
  | .ref f, _, h => by
    rw [traverse] at h
    obtain ⟨f', hf, hf'⟩ := ok_of_bind h
    cases hf'
    exact hg f f' hf

theorem TreeOf.allOf_of_traverseAll {g : ψ → Except ε φ} (hg : ∀ a b, g a = .ok b → P b) :
    ∀ {ts : List (TreeOf ψ)} {ts' : List (TreeOf φ)}, TreeOf.traverseAll g ts = .ok ts' →
      TreeOf.AllOf P ts'
  | [], _, h => by
    rw [TreeOf.traverseAll] at h
    cases h
    trivial
  | _ :: _, _, h => by
    rw [TreeOf.traverseAll] at h
    obtain ⟨t, ht, h⟩ := ok_of_bind h
    obtain ⟨rest, hrest, h'⟩ := ok_of_bind h
    cases h'
    exact ⟨TreeOf.all_of_traverse hg ht, TreeOf.allOf_of_traverseAll hg hrest⟩

end

end

variable {n : Nat}

mutual

theorem TreeOf.yields_build : ∀ (h : Heap) {t : TreeOf FailureId}, n ≤ h.size → t.All (· < n) →
    h.Yields (t.build h)
  | h, .ref f, hn, hf => by
    rw [build]
    exact Heap.yields_self (Nat.lt_of_lt_of_le hf hn)
  | h, .node message children, hn, hc => by
    rw [build]
    obtain ⟨hmade, hlt⟩ : h.Yields (h.alloc { message }) := Heap.yields_new .error message
    have hchildren := TreeOf.grows_buildAll (h.alloc { message }).1 (h.alloc { message }).2
      (Nat.le_trans hn hmade.size_le) hc
    exact ⟨hmade.trans hchildren, Nat.lt_of_lt_of_le hlt hchildren.size_le⟩

theorem TreeOf.grows_buildAll (f : FailureId) : ∀ (h : Heap) {ts : List (TreeOf FailureId)},
    n ≤ h.size → TreeOf.AllOf (· < n) ts → h.Grows (TreeOf.buildAll f h ts)
  | h, [], _, _ => by
    rw [TreeOf.buildAll]
    exact .refl
  | h, t :: _, hn, hts => by
    rw [TreeOf.buildAll]
    obtain ⟨hchild, hlt⟩ := TreeOf.yields_build h hn hts.1
    have hattached := hchild.attach f hlt
    exact hattached.trans
      (TreeOf.grows_buildAll f _ (Nat.le_trans hn hattached.size_le) hts.2)

end

theorem yields_buildChain (stem : String) (h : Heap) (i : Nat) : ∀ more : Nat,
    h.Yields (buildChain stem h i more) := by
  intro more
  induction more generalizing i with
  | zero => exact Heap.yields_new .error _
  | succ more ih =>
    obtain ⟨hnext, hlt⟩ := ih (i + 1)
    refine Heap.Yields.trans hnext (Heap.yields_alloc trivial fun g hg => ?_)
    exact List.mem_singleton.mp hg ▸ hlt

theorem yields_buildCauses (stem : String) (h : Heap) : ∀ depth : Nat,
    h.Yields (buildCauses stem h depth) := by
  intro depth
  induction depth with
  | zero => exact Heap.yields_new .error _
  | succ depth ih =>
    obtain ⟨hcause, hlt⟩ := ih
    exact Heap.Yields.trans hcause (Heap.yields_causedBy _ hlt)

theorem grows_buildFan (stem : String) (f : FailureId) (count : Nat) (h : Heap) :
    h.Grows (buildFan stem f count h) := by
  unfold buildFan
  induction List.range count generalizing h with
  | nil => exact .refl
  | cons i rest ih =>
    obtain ⟨hchild, hlt⟩ : h.Yields (h.alloc { message := stem ++ toString i }) :=
      Heap.yields_new .error _
    exact (hchild.attach f hlt).trans (ih _)

/-! ### Sessions -/

/-- Names stand for failures that exist, and the collectors are known. -/
def Session.known : Upto Session where
  holds n s := (∀ b ∈ s.failures, b.2 < n) ∧ ∀ c ∈ s.collectors, Collector.known n c
  mono hmn h := ⟨fun b hb => Nat.lt_of_lt_of_le (h.1 b hb) hmn,
    fun c hc => Collector.known.mono hmn (h.2 c hc)⟩

/-- A session with the same names and collectors. -/
theorem Session.known_of_eq {s t : Session} (hs : Session.known n s) (hf : t.failures = s.failures)
    (hc : t.collectors = s.collectors) : Session.known n t :=
  ⟨hf ▸ hs.1, hc ▸ hs.2⟩

theorem Session.known_new : Session.known n {} := ⟨by simp, by simp⟩

/-- A name stands for a failure that exists. -/
theorem Session.lt_of_failure? {s : Session} (hs : Session.known n s) {name : Name}
    {f : FailureId} (hf : s.failure? name = .ok f) : f < n := by
  unfold Session.failure? at hf
  split at hf
  · rename_i hlookup
    cases hf
    obtain ⟨before, after, heq, -⟩ := List.lookup_eq_some_iff.mp hlookup
    exact hs.1 (name, f) (heq ▸ List.mem_append_right before (List.mem_cons_self ..))
  · cases hf

theorem keeps_collectorAt (k : Nat) :
    (collectorAt k).Keeps Session.known Collector.known where
  get {n s} hs := by
    show Collector.known n (s.collectors[k]?.getD {})
    cases hk : s.collectors[k]? with
    | none => exact Collector.known_new
    | some c => exact hs.2 c (Array.mem_of_getElem? hk)
  set {n s c} hs hc := by
    refine ⟨hs.1, fun d hd => ?_⟩
    rcases Array.mem_or_eq_of_mem_setIfInBounds hd with hd | rfl
    · exact hs.2 d hd
    · exact hc

/-! ### What steps give -/

/-- The failure that is shown exists. -/
def Shown.known : Upto Shown where
  holds n f := f.id < n
  mono hmn h := Nat.lt_of_lt_of_le h hmn

/-- A reply yields a failure that exists, if it yields one. -/
def Reply.known : Upto Reply where
  holds n r := ∀ f, r = .failure f → Shown.known n f
  mono hmn h f hf := Shown.known.mono hmn (h f hf)

/-- What is known of what a step gives. -/
abbrev given : Upto Given := .except .failure Reply.known

/-- An outcome yields a failure that exists, if it yields one. -/
def Outcome.known : Upto Outcome where
  holds n o := ∀ f, o.failure? = some f → f < n
  mono hmn h f hf := Nat.lt_of_lt_of_le (h f hf) hmn

/-- What is known of an answer. -/
def Answer.known : Upto Answer where
  holds n a := Outcome.known n a.outcome
  mono hmn h := Outcome.known.mono hmn h

/-- A way to make a failure of what exists. -/
def conversion : Upto (Heap → FailureId × Heap) where
  holds n g := ∀ h : Heap, n ≤ h.size → h.Sound → h.Yields (g h)
  mono hmn hg h hn := hg h (Nat.le_trans hmn hn)

/-- A tree that refers to failures which exist. -/
def TreeOf.known : Upto (TreeOf FailureId) where
  holds n t := t.All (· < n)
  mono hmn h := h.mono fun _ hf => Nat.lt_of_lt_of_le hf hmn

/-- A way to look up names gives failures that exist. -/
def Looks (n : Nat) (look : Name → Except Name FailureId) : Prop :=
  ∀ name f, look name = .ok f → f < n

/-- What a script panics with carries a failure that exists. -/
theorem Thrown.payload_of_traverse {look : Name → Except Name FailureId} (hl : Looks n look) :
    ∀ {t : Thrown} {p : Payload}, t.traverse look = .ok p → Upto.payload n p
  | .plain _, _, h => PayloadOf.all_of_traverse hl h
  | .error _, _, h => by
    obtain ⟨e, -, h⟩ := ok_of_bind h
    cases h
    trivial

theorem Offer.conversion_of_ok {look : Name → Except Name FailureId} (hl : Looks n look) :
    ∀ {o : Offer} {g : Heap → FailureId × Heap}, o.conversion look = .ok g →
      Script.conversion n g
  | .failure name, _, h => by
    obtain ⟨f, hf, hf'⟩ := ok_of_bind h
    cases hf'
    exact fun h hn _ => Heap.yields_self (Nat.lt_of_lt_of_le (hl name f hf) hn)
  | .fresh message, _, h => by
    cases h
    exact fun h _ _ => Heap.yields_new .error message
  | .error _, _, h => by
    obtain ⟨e, he, he'⟩ := ok_of_bind h
    cases he'
    have hknown : Upto.error n e := ErrorOf.all_of_traverse hl he
    exact fun h hn _ => Heap.yields_ofError (Upto.error.mono hn hknown)
  | .panic _, _, h => by
    obtain ⟨p, hp, hp'⟩ := ok_of_bind h
    cases hp'
    have hknown := Thrown.payload_of_traverse hl hp
    exact fun h hn _ => Heap.yields_ofPanic (Upto.payload.mono hn hknown)

/-! ### Acts of a session -/

section

variable {α : Type} {Q : Upto α}

/-- What names are resolved to is known. -/
theorem grows_resolve {g : (Name → Except Name FailureId) → Except Name α}
    (hg : ∀ m look, n ≤ m → Looks m look → ∀ a, g look = .ok a → Q m a) :
    Grows Session.known n (resolve g) Q := by
  refine grows_of_run fun s hn _ hs => ?_
  show KeptIn Session.known Q s.heap (resolve g s)
  unfold resolve
  cases ha : g s.focus.failure? with
  | ok a =>
    exact ⟨rfl, hs, hg _ _ hn (fun _ _ hf => Session.lt_of_failure? hs hf) a ha⟩
  | error name => exact ⟨rfl, Session.known_of_eq hs rfl rfl, trivial⟩

theorem grows_failureOf (name : Name) : Grows Session.known n (failureOf name) .failure :=
  grows_resolve fun _ _ _ hl f hf => hl name f hf

/-- An error that names failures. -/
theorem grows_resolveError (e : ErrorOf Name) :
    Grows Session.known n (resolve e.traverse) .error :=
  grows_resolve fun _ _ _ hl _ he => ErrorOf.all_of_traverse hl he

theorem grows_resolveThrown (t : Thrown) :
    Grows Session.known n (resolve t.traverse) .payload :=
  grows_resolve fun _ _ _ hl _ hp => Thrown.payload_of_traverse hl hp

theorem grows_failureOfOffer (offer : Offer) :
    Grows Session.known n (failureOfOffer offer) .failure := by
  refine Grows.bind (Q := conversion)
    (grows_resolve fun _ _ _ hl _ hg => Offer.conversion_of_ok hl hg) fun m g _ hg => ?_
  exact grows_yields hg

theorem grows_collectorOf (name : Name) : Grows Session.known n (collectorOf name) .any := by
  refine grows_of_run fun s _ _ hs => ?_
  show KeptIn Session.known .any s.heap (collectorOf name s)
  unfold collectorOf
  cases s.focus.names.lookup name with
  | some k => exact ⟨rfl, hs, trivial⟩
  | none => exact ⟨rfl, Session.known_of_eq hs rfl rfl, trivial⟩

theorem grows_bind (name : Option Name) {f : FailureId} (hf : f < n) :
    Grows Session.known n (bind name f) .any := by
  cases name with
  | none => exact grows_pure trivial
  | some name =>
    refine grows_modify fun s hn hs => ⟨rfl, fun b hb => ?_, hs.2⟩
    rcases List.mem_cons.mp hb with rfl | hb
    · exact Nat.lt_of_lt_of_le hf hn
    · exact hs.1 b hb

theorem grows_release (k : Nat) : Grows Session.known n (release k) .any := by
  refine Grows.get_bind fun s _ _ => ?_
  dsimp only
  split
  · exact grows_pure trivial
  · exact Collector.grows_drop.place (keeps_collectorAt k)

/-- What else is noted in a session. -/
theorem grows_note {g : Scene Session → Scene Session}
    (hg : ∀ s, (g s).heap = s.heap ∧ (g s).focus.failures = s.focus.failures ∧
      (g s).focus.collectors = s.focus.collectors) : Grows Session.known n (modify g) .any :=
  grows_modify fun s _ hs => ⟨(hg s).1, Session.known_of_eq hs (hg s).2.1 (hg s).2.2⟩

theorem grows_forget (name : Name) : Grows Session.known n (forget name) .any :=
  grows_note fun _ => ⟨rfl, rfl, rfl⟩

theorem grows_overlook : Grows Session.known n overlook .any :=
  grows_note fun _ => ⟨rfl, rfl, rfl⟩

theorem grows_noteReleased (index : Nat) : Grows Session.known n (noteReleased index) .any :=
  grows_note fun _ => ⟨rfl, rfl, rfl⟩

end

section

variable {σ : Type} {J : Upto σ} {p : Place σ Session} {f : FailureId}

theorem grows_shown (hf : f < n) : Grows J n (shown f) Shown.known :=
  grows_ask fun _ hn _ => Nat.lt_of_lt_of_le hf hn

/-- What is replied is not a failure. -/
theorem grows_reply {r : Reply} (hr : ∀ f, r ≠ .failure f) : Grows J n (pure (.ok r)) given :=
  grows_pure (show Reply.known n r from fun f hf => absurd hf (hr f))

theorem grows_replied (hf : f < n) : Grows J n (replied f) given := by
  refine (grows_shown hf).bind fun m g _ hg => grows_pure ?_
  rintro _ ⟨⟩
  exact hg

theorem grows_repliedOptional {f : Option FailureId} (hf : Upto.optional .failure n f) :
    Grows J n (repliedOptional f) given := by
  cases f with
  | none => exact grows_reply (by simp)
  | some f => exact grows_replied (hf f rfl)

theorem grows_returned {f : Option FailureId} (hf : Upto.optional .failure n f) :
    Grows J n (returned f) given := by
  cases f with
  | none => exact grows_reply (by simp)
  | some f => exact grows_pure (hf f rfl)

theorem grows_outcomeOf (hp : p.Keeps J Session.known) {act : Act σ Given}
    (ha : Grows J n act given) : Grows J n (outcomeOf p act) Outcome.known := by
  refine ha.caught.bind fun m r _ hr => ?_
  rcases r with payload | f | reply
  · refine Grows.get_bind fun s hm _ => ?_
    cases (p.get s.focus).unbound with
    | some name =>
      exact (grows_overlook.place hp).bind fun _ _ _ _ =>
        grows_pure (by simp [Outcome.known, Outcome.failure?])
    | none =>
      refine (grows_yields fun h hh _ => Heap.yields_ofPanic
        (Upto.payload.mono (Nat.le_trans hm hh) hr)).bind fun m' f _ hf => ?_
      refine (grows_shown hf).bind fun m'' g _ hg => grows_pure ?_
      rintro _ ⟨⟩
      exact hg
  · refine (grows_shown hr).bind fun m' g _ hg => grows_pure ?_
    rintro _ ⟨⟩
    exact hg
  · refine grows_pure fun f hf => ?_
    cases reply with
    | failure g =>
      cases hf
      exact hr g rfl
    | _ => simp [Outcome.failure?] at hf

/-- **Running a step and answering it.** -/
theorem grows_answering (hp : p.Keeps J Session.known) (marks : Marks) {act : Act σ Given}
    (ha : Grows J n act given) : Grows J n (answering p marks act) Answer.known := by
  refine Grows.get_bind fun s hs _ => Grows.get_bind fun s' hs' _ => ?_
  extract_lets start
  refine Grows.bind (Q := .any) ?_ fun m _ hm _ => ?_
  · refine Grows.place hp (grows_note fun _ => ?_)
    exact ⟨rfl, rfl, rfl⟩
  refine (grows_outcomeOf hp (ha.mono (by omega))).bind fun m' outcome _ ho => ?_
  extract_lets goOn
  have hrest : ∀ k, m' ≤ k → Grows J k (goOn ()) Answer.known := by
    intro k hk
    refine Grows.get_bind fun t ht _ => ?_
    dsimp only
    refine Grows.bind (Q := .any) ?_ fun k' _ hk' _ => ?_
    · refine Grows.place hp (grows_note fun _ => ?_)
      exact ⟨rfl, rfl, rfl⟩
    · exact grows_pure (Outcome.known.mono (by omega) ho)
  cases hf : outcome.failure? with
  | none => exact hrest m' (Nat.le_refl _)
  | some f =>
    refine Grows.bind ((grows_bind marks.binds (ho f hf)).place hp) fun k _ hk _ => ?_
    exact hrest k hk

/-- A step within another: the panic that goes on is the one that was answered. -/
theorem grows_nest (marks : Marks) {answer : Answer} (ha : Answer.known n answer) :
    Grows Session.known n (nest marks answer) .any := by
  refine Grows.bind (Q := .any) ?_ fun m _ hm _ => ?_
  · exact grows_note fun _ => ⟨rfl, rfl, rfl⟩
  cases ho : answer.outcome with
  | panicked f =>
    have hf : f.id < n := ha f.id (by rw [ho]; rfl)
    cases marks.propagates with
    | true => exact grows_throw (Nat.lt_of_lt_of_le hf hm)
    | false => exact grows_pure trivial
  | _ => exact grows_pure trivial

end

/-! ### Steps on collectors -/

/-- What a supplier of a script gives is one of its entries. -/
theorem supplyAt_eq_root {entries : List Supply} {k : Nat} {r : FailureId}
    (hr : supplyAt entries k = .root r) : .root r ∈ entries := by
  unfold supplyAt at hr
  cases hk : entries[k]? with
  | some supply =>
    rw [hk] at hr
    obtain rfl : supply = .root r := hr
    exact List.mem_of_getElem? hk
  | none =>
    rw [hk] at hr
    cases hlast : entries.getLast? with
    | none =>
      rw [hlast] at hr
      cases hr
    | some supply =>
      rw [hlast] at hr
      obtain rfl : supply = .root r := hr
      exact List.mem_of_getLast? hlast

/-- What is known of the entries of a supplier. -/
def knownSupply : Upto Supply where
  holds n s := ∀ r, s = .root r → r < n
  mono hmn h r hr := Nat.lt_of_lt_of_le (h r hr) hmn

theorem supply_of_traverse {look : Name → Except Name FailureId} (hl : Looks n look) :
    ∀ {s : SupplyOf Name} {s' : Supply}, s.traverse look = .ok s' → knownSupply n s'
  | .root f, _, h => by
    obtain ⟨f', hf, hf'⟩ := ok_of_bind h
    cases hf'
    rintro r ⟨⟩
    exact hl f f' hf
  | .fresh _, _, h => by
    cases h
    rintro r ⟨⟩
  | .nothing, _, h => by
    cases h
    rintro r ⟨⟩
  | .panics _, _, h => by
    cases h
    rintro r ⟨⟩

theorem supplies_of_mapM {look : Name → Except Name FailureId} (hl : Looks n look) :
    ∀ {ss : List (SupplyOf Name)} {ss' : List Supply},
      ss.mapM (SupplyOf.traverse look) = .ok ss' → knownSupply.each n ss'
  | [], _, h => by
    cases h
    exact fun _ hs => absurd hs (List.not_mem_nil)
  | _ :: _, _, h => by
    rw [List.mapM_cons] at h
    obtain ⟨s, hs, h⟩ := ok_of_bind h
    obtain ⟨rest, hrest, h'⟩ := ok_of_bind h
    cases h'
    exact List.forall_mem_cons.mpr ⟨supply_of_traverse hl hs, supplies_of_mapM hl hrest⟩

theorem known_ofSettings (settings : Settings) :
    Collector.known n (Collector.ofSettings settings) :=
  Collector.known_of_eq Collector.known_new rfl rfl

theorem Setup.grows_collector (setup : Setup) :
    Grows Session.known n setup.collector Collector.known := by
  unfold Setup.collector
  extract_lets limited
  have hlimited : ∀ (m : Nat) (c : Collector), Collector.known m c →
      Grows Session.known m (limited c) Collector.known := by
    intro m c hc
    unfold limited
    cases setup.limit with
    | none => exact grows_pure hc
    | some limit => exact grows_pure (Collector.known_withLimit hc limit)
  cases hroots : setup.roots with
  | some entries =>
    refine Grows.bind (Q := knownSupply.each)
      (grows_resolve fun _ _ _ hl _ hs => supplies_of_mapM hl hs) fun m entries _ hentries => ?_
    refine hlimited m _ (Collector.known_withSupplier fun k r hk => ?_)
    exact hentries _ (supplyAt_eq_root hk) r rfl
  | none =>
    cases hsettings : setup.settings with
    | some settings => exact hlimited n _ (known_ofSettings settings)
    | none => exact hlimited n _ Collector.known_new

section

variable {σ : Type} {J : Upto σ} {p : Place σ Collector} {q : Place σ Session}

/-- **A step on a collector.** -/
theorem CollectorStep.grows_play (hp : p.Keeps J Collector.known) (hq : q.Keeps J Session.known)
    (step : CollectorStep) : Grows J n (step.play p q) given := by
  cases step with
  | add offer =>
    refine ((grows_failureOfOffer offer).place hq).bind fun m f _ hf => ?_
    refine ((Collector.grows_add hf).place hp).bind fun _ _ _ _ => ?_
    exact Grows.get_bind fun _ _ _ => grows_reply (by simp)
  | addMany count stem =>
    refine Grows.bind (Q := .any) (grows_forM _ fun i _ => ?_) fun _ _ _ _ => ?_
    · refine (grows_yields fun h _ _ => Heap.yields_new .error _).bind fun m f _ hf => ?_
      exact (Collector.grows_add hf).place hp
    · exact Grows.get_bind fun _ _ _ => grows_reply (by simp)
  | peek => exact Grows.get_bind fun s _ hs => grows_repliedOptional (hp.get hs).1
  | take => exact (Collector.grows_take.place hp).bind fun _ _ _ hf => grows_repliedOptional hf
  | takeAsError => exact (Collector.grows_take.place hp).bind fun _ _ _ hf => grows_returned hf
  | takeAndPanic =>
    exact (Collector.grows_takeAndPanic.place hp).bind fun _ _ _ _ =>
      grows_reply (by simp)
  | panicKeeping =>
    exact (Collector.grows_panicKeeping.place hp).bind fun _ _ _ _ =>
      grows_reply (by simp)
  | close => exact (Collector.grows_close.place hp).bind fun _ _ _ hf => grows_returned hf
  | hasFailure => exact Grows.get_bind fun _ _ _ => grows_reply (by simp)
  | isClosed => exact Grows.get_bind fun _ _ _ => grows_reply (by simp)
  | stats => exact Grows.get_bind fun _ _ _ => grows_reply (by simp)
  | limit => exact Grows.get_bind fun _ _ _ => grows_reply (by simp)
  | describe spread =>
    exact Grows.get_bind fun _ _ _ => grows_ask_any.bind fun _ _ _ _ =>
      grows_reply (by simp [described])

end

theorem ScopeAction.grows_play (action : ScopeAction) :
    Grows (.both Collector.known Session.known) n action.play given := by
  cases action with
  | collector step => exact step.grows_play Place.keeps_first Place.keeps_second
  | panic thrown =>
    exact ((grows_resolveThrown thrown).place Place.keeps_second).bind fun _ _ _ hp =>
      grows_throw hp

/-- The body of a scope. -/
theorem grows_playBody : ∀ (body : List ScopeStep) {n : Nat},
    Grows (.both Collector.known Session.known) n (playBody body) .any
  | [], _ => by
    rw [playBody]
    exact grows_pure trivial
  | step :: rest, n => by
    rw [playBody]
    refine (grows_answering Place.keeps_second step.marks (step.action.grows_play.ensuring
      (grows_overlook.place Place.keeps_second))).bind fun m answer _ ha => ?_
    refine ((grows_nest step.marks ha).place Place.keeps_second).bind fun _ _ _ _ => ?_
    exact grows_playBody rest

/-! ### Groups -/

theorem grows_runGroup {group : Resource} (hg : group.All (· < n)) (finished : Finished) :
    Grows Session.known n (runGroup group finished)
      (.both (.except .payload (.except .failure .any)) .any) := by
  intro s hn hh hs
  have hrelease : Grows .any n group.release (.except .failure .any) :=
    ResourceOf.grows_releaseBy overThirty hg
  have hr := hrelease.caught { heap := s.heap, log := s.log, focus := finished } hn hh trivial
  show GrownTo _ _ s.heap (runGroup group finished s)
  unfold runGroup
  cases hrun : (Act.caught group.release).run
      { heap := s.heap, log := s.log, focus := finished } with
  | ok a t =>
    rw [hrun] at hr
    rw [show Act.caught group.release _ = .ok a t from hrun]
    exact ⟨hr.1, Session.known.mono hr.1.size_le hs, hr.2.2, trivial⟩
  | error p t =>
    rw [hrun] at hr
    rw [show Act.caught group.release _ = .error p t from hrun]
    exact ⟨hr.1, Session.known.mono hr.1.size_le hs, hr.2.2⟩

theorem grows_runGroups (binds : Option Name) {group : Resource} : ∀ (times : Nat) {n : Nat}
    (finished : Finished), group.All (· < n) →
      Grows Session.known n (runGroups binds group times finished) .any
  | 0, _, _, _ => by
    rw [runGroups]
    exact grows_pure trivial
  | times + 1, n, finished, hg => by
    rw [runGroups]
    refine (grows_runGroup hg finished).bind fun m r hm hr => ?_
    obtain ⟨result, finished'⟩ := r
    dsimp -zeta only
    extract_lets goOn
    have hrest : ∀ k, m ≤ k → ∀ run, Grows Session.known k (goOn run) .any := by
      intro k hk run
      have hgroup : group.All (· < k) :=
        hg.mono fun _ hf => Nat.lt_of_lt_of_le hf (Nat.le_trans hm hk)
      exact (grows_runGroups binds times finished' hgroup).bind fun _ _ _ _ => grows_pure trivial
    -- a failure of the group is bound to the name and shown
    have hbound : ∀ k f, m ≤ k → f < k → ∀ run : Shown → Run, Grows Session.known k
        (do bind binds f; let g ← shown f; goOn (run g)) .any := by
      intro k f hk hf run
      refine (grows_bind binds hf).bind fun k' _ hk' _ => ?_
      refine (grows_shown (Nat.lt_of_lt_of_le hf hk')).bind fun k'' g hk'' _ => ?_
      exact hrest k'' (by omega) (run g)
    rcases result with payload | f | u
    · refine (grows_yields fun h hh _ => Heap.yields_ofPanic
        (Upto.payload.mono hh hr.1)).bind fun k f hk hf => ?_
      exact hbound k f hk hf .panicked
    · exact hbound m f (Nat.le_refl _) hr.1 .failed
    · exact hrest m (Nat.le_refl _) .succeeded

/-! ### Steps -/

theorem grows_foundIn (f : FailureId) (sought : Sought) :
    Grows Session.known n (foundIn f sought) Reply.known := by
  have hother : ∀ {m : Nat} {r : Reply}, (∀ g, r ≠ .failure g) → Reply.known m r :=
    fun hr g hg => absurd hg (hr g)
  cases sought with
  | io =>
    exact grows_ask_any.bind fun _ found _ _ => by
      cases found <;> exact grows_pure (hother (by simp))
  | login =>
    exact grows_ask_any.bind fun _ found _ _ => by
      cases found <;> exact grows_pure (hother (by simp))
  | text =>
    exact grows_ask_any.bind fun _ found _ _ => by
      cases found <;> exact grows_pure (hother (by simp))
  | failure =>
    refine Grows.bind (Q := .optional .failure)
      (grows_ask fun h hn hh g hg => hh.lt_of_find? hg) fun m found _ hfound => ?_
    cases found with
    | none => exact grows_pure (hother (by simp))
    | some g =>
      refine (grows_shown (hfound g rfl)).bind fun m' shown _ hshown => grows_pure ?_
      rintro _ ⟨⟩
      exact hshown

/-- **A step that runs no other steps.** -/
theorem Action.grows_play (marks : Marks) (action : Action) :
    Grows Session.known n (action.play marks) given := by
  have hmade : ∀ {m : Nat} {g : Heap → FailureId × Heap}, conversion m g →
      Grows Session.known m (do replied (← Act.onHeap g)) given :=
    fun hg => (grows_yields hg).bind fun _ _ _ hf => grows_replied hf
  -- a step that looks at a failure and replies with something else
  have hlooked : ∀ {α : Type} (f : Name) (g : FailureId → Heap → α) (r : α → Reply),
      (∀ a f, r a ≠ .failure f) → Grows Session.known n
        (do let f ← failureOf f; return .ok (r (← Act.ask (g f)))) given :=
    fun f g r hr => (grows_failureOf f).bind fun _ _ _ _ => grows_ask_any.bind fun _ a _ _ =>
      grows_reply (hr a)
  cases action with
  | make kind message => exact hmade fun h _ _ => Heap.yields_new kind message
  | causedBy message e =>
    exact (grows_resolveError e).bind fun m e _ he => hmade fun h hh _ =>
      Heap.yields_causedBy message (Upto.error.mono hh he)
  | wrap e =>
    exact (grows_resolveError e).bind fun m e _ he => hmade fun h hh _ =>
      Heap.yields_wrap (Upto.error.mono hh he)
  | convert offer => exact (grows_failureOfOffer offer).bind fun _ _ _ hf => grows_replied hf
  | ofPanic thrown =>
    exact (grows_resolveThrown thrown).bind fun m payload _ hp => hmade fun h hh _ =>
      Heap.yields_ofPanic (Upto.payload.mono hh hp)
  | tree spec =>
    refine Grows.bind (Q := TreeOf.known) (grows_resolve fun _ _ _ hl _ ht =>
      TreeOf.all_of_traverse hl ht) fun m spec _ hspec => ?_
    exact hmade fun h hh _ => TreeOf.yields_build h hh hspec
  | chain depth stem => exact hmade fun h _ _ => yields_buildChain stem h 0 depth
  | causeChain depth stem => exact hmade fun h _ _ => yields_buildCauses stem h depth
  | fan f count stem =>
    refine (grows_failureOf f).bind fun m f _ hf => ?_
    have hfan : Grows Session.known m (Act.onHeap fun h => ((), buildFan stem f count h)) .any :=
      grows_onHeap fun h _ _ => ⟨grows_buildFan stem f count h, trivial⟩
    refine hfan.bind fun _ _ hm _ => ?_
    exact grows_replied (Nat.lt_of_lt_of_le hf hm)
  | attach f g =>
    refine (grows_failureOf f).bind fun m f _ hf => (grows_failureOf g).bind fun m' g hm hg => ?_
    refine (grows_attach f hg).bind fun m'' _ hm' _ => ?_
    exact grows_replied (Nat.lt_of_lt_of_le hf (Nat.le_trans hm hm'))
  | look f => exact (grows_failureOf f).bind fun _ _ _ hf => grows_replied hf
  | text f full => exact hlooked f _ .text (by simp)
  | describe f spread => exact hlooked f _ (described spread) (by simp [described])
  | report f => exact hlooked f _ .text (by simp)
  | causes f => exact hlooked f _ .texts (by simp)
  | graph f => exact hlooked f _ .graph (by simp)
  | child f index =>
    refine (grows_failureOf f).bind fun m f _ _ => ?_
    refine Grows.bind (Q := .optional .failure) (grows_ask fun h _ hh g hg => ?_) fun _ _ _ hg => ?_
    · exact hh.suppressed (List.mem_of_getElem? hg)
    · exact grows_repliedOptional hg
  | find f sought =>
    refine (grows_failureOf f).bind fun m f _ _ => ?_
    exact (grows_foundIn f sought).bind fun _ _ _ hr => grows_pure hr
  | same f g =>
    exact (grows_failureOf f).bind fun _ _ _ _ => (grows_failureOf g).bind fun _ _ _ _ =>
      grows_reply (by simp)
  | raise f => exact (grows_failureOf f).bind fun _ _ _ hf => grows_raise hf
  | setup name spec =>
    refine spec.grows_collector.bind fun m c _ hc => Grows.get_bind fun s hs _ => ?_
    extract_lets before
    refine Grows.bind (Q := .any) ?_ fun m' _ _ _ => ?_
    · refine grows_modify fun t ht hknown => ⟨rfl, hknown.1, fun d hd => ?_⟩
      rcases Array.mem_push.mp hd with hd | rfl
      · exact hknown.2 d hd
      · exact Collector.known.mono (Nat.le_trans hs ht) hc
    · have hreply : ∀ k, Grows Session.known k (pure (.ok (.number c.limit))) given :=
        fun _ => grows_reply (by simp)
      cases before with
      | none => exact hreply m'
      | some k => exact (grows_release k).bind fun k' _ _ _ => hreply k'
  | collector name step =>
    exact (grows_collectorOf name).bind fun _ k _ _ =>
      step.grows_play (keeps_collectorAt k) Place.keeps_whole
  | drop name =>
    exact (grows_collectorOf name).bind fun _ k _ _ => (grows_forget name).bind fun _ _ _ _ =>
      (grows_release k).bind fun _ _ _ _ => grows_reply (by simp)
  | scope spec body value =>
    refine spec.grows_collector.bind fun m c _ hc => ?_
    refine (Collector.grows_scope hc (grows_playBody body)).bind fun _ result _ hresult => ?_
    cases result with
    | error f => exact grows_pure hresult
    | ok u => exact grows_reply (by simp)
  | group spec times =>
    refine Grows.bind (Q := ResourceOf.known) (grows_resolve fun _ _ _ hl _ hr =>
      ResourceOf.all_of_traverse hl hr) fun m spec _ hspec => ?_
    exact (grows_runGroups marks.binds times #[] hspec).bind fun _ _ _ _ =>
      grows_reply (by simp)

/-- How a resource's release ends. -/
theorem ReleaseEnding.grows_play (ending : ReleaseEnding) :
    Grows Session.known n ending.play Collector.ends := by
  cases ending with
  | succeeds => exact grows_pure trivial
  | fails e => exact (grows_resolveError e).bind fun _ _ _ he => grows_pure he
  | panics thrown => exact (grows_resolveThrown thrown).bind fun _ _ _ hp => grows_throw hp

theorem grows_holding {α : Type} {Q : Upto α} (k : Nat) {act : Play α}
    (ha : Grows Session.known n act Q) : Grows Session.known n (holding k act) Q := by
  refine Grows.get_bind fun s hs _ => ?_
  dsimp only
  refine Grows.bind (Q := .any) ?_ fun m _ hm _ => ?_
  · exact grows_note fun _ => ⟨rfl, rfl, rfl⟩
  refine (ha.mono (Nat.le_trans hs hm)).ensuring (Grows.bind (Q := .any) ?_ fun m' _ _ _ => ?_)
  · exact grows_note fun _ => ⟨rfl, rfl, rfl⟩
  · refine Grows.get_bind fun t _ _ => ?_
    split
    · exact grows_pure trivial
    · exact grows_release k

mutual

theorem Releasable.grows_play : ∀ (r : Releasable) {n : Nat},
    Grows Session.known n r.play Collector.ends
  | .mk steps ending, _ => by
    rw [Releasable.play]
    exact (grows_playNested steps).bind fun _ _ _ _ => ending.grows_play

theorem Releasable.grows_plays : ∀ (rs : List Releasable) (index : Nat) {n : Nat},
    ∀ release ∈ Releasable.plays index rs, Grows Session.known n release Collector.ends
  | [], _, _, release, hmem => by
    rw [Releasable.plays] at hmem
    exact absurd hmem (List.not_mem_nil)
  | r :: rest, index, n, release, hmem => by
    rw [Releasable.plays] at hmem
    rcases List.mem_cons.mp hmem with rfl | hmem
    · exact (grows_noteReleased index).bind fun _ _ _ _ => Releasable.grows_play r
    · exact Releasable.grows_plays rest (index + 1) release hmem

/-- **A step**, whatever it runs. -/
theorem Step.grows_play : ∀ (step : Step) {n : Nat}, Grows Session.known n step.play Answer.known
  | .plain marks action, _ => by
    rw [Step.play]
    exact grows_answering Place.keeps_whole marks (action.grows_play marks)
  | .closeSuppressing marks name none, _ => by
    rw [Step.play]
    refine grows_answering Place.keeps_whole marks ((grows_collectorOf name).bind fun _ k _ _ => ?_)
    refine (Collector.grows_closeSuppressing (keeps_collectorAt k) (by simp)).bind fun _ _ _ _ => ?_
    exact Grows.get_bind fun _ _ _ => grows_reply (by simp)
  | .closeSuppressing marks name (some r), _ => by
    rw [Step.play]
    refine grows_answering Place.keeps_whole marks ((grows_collectorOf name).bind fun m k _ _ => ?_)
    have hrelease : Grows Session.known m
        (Collector.closeSuppressing (collectorAt k) (some r.play)) .any := by
      refine Collector.grows_closeSuppressing (keeps_collectorAt k) ?_
      rintro _ ⟨⟩
      exact Releasable.grows_play r
    refine (grows_holding k hrelease).bind fun _ _ _ _ => ?_
    exact Grows.get_bind fun _ _ _ => grows_reply (by simp)
  | .releaseAll marks resources, _ => by
    rw [Step.play]
    refine grows_answering Place.keeps_whole marks (Grows.bind (Q := .any) ?_ fun m _ _ _ => ?_)
    · exact grows_note fun _ => ⟨rfl, rfl, rfl⟩
    · have hreleased := Releasable.grows_plays resources 0 (n := m)
      refine (grows_releaseAll hreleased).bind fun _ result _ hresult => ?_
      cases result with
      | error f => exact grows_pure hresult
      | ok u => exact grows_reply (by simp)

theorem grows_playNested : ∀ (steps : List Step) {n : Nat},
    Grows Session.known n (playNested steps) .any
  | [], _ => by
    rw [playNested]
    exact grows_pure trivial
  | step :: rest, _ => by
    rw [playNested]
    refine (Step.grows_play step).bind fun _ answer _ ha => ?_
    exact (grows_nest step.marks ha).bind fun _ _ _ _ => grows_playNested rest

end

/-- **A script only grows the heap.** -/
theorem grows_playAll : ∀ (steps : List Step) {n : Nat},
    Grows Session.known n (playAll steps) .any
  | [], _ => grows_pure trivial
  | step :: rest, _ => (Step.grows_play step).bind fun _ _ _ _ =>
      (grows_playAll rest).bind fun _ _ _ _ => grows_pure trivial

end Script
end Teardown
