/-
# What stays of a failure, whatever is done

A program uses the library as it likes. It goes on from whatever it is given, looks
at anything, catches panics, exchanges what its collectors ask for roots, and has
code of its own run in scopes and in releases. But all the failures it holds were
given to it, so those it hands to the library exist. `Program` puts acts together in
this way and in no other.

Whatever a program does and however it ends, the heap only grows. So a failure
keeps its kind, its message and its origin, what it suppresses it goes on to
suppress, in the same order, and it never comes to suppress itself
(`failures_stay`).

Key definitions: `Heap.Keeps`, `Heap.Selfless`, `Program`.
Key theorems: `Heap.Grows.keeps`, `Heap.Grows.selfless`, `Program.grows`,
`failures_stay`.
-/
import Teardown.Proofs.Script.Growing

namespace Teardown

namespace Heap

/-- What stays of the failure `f` of `h` in `k`. -/
structure Keeps (h k : Heap) (f : FailureId) : Prop where
  lt_size : f < k.size
  kind : k.kind f = h.kind f
  message : k.message f = h.message f
  origin : k.origin f = h.origin f
  suppressed : h.suppressed f <+: k.suppressed f

/-- No failure suppresses itself. -/
def Selfless (h : Heap) : Prop := ∀ f, f ∉ h.suppressed f

theorem selfless_empty : Selfless {} := fun f hf => by simp [suppressed, get?] at hf

namespace Grows

variable {h k : Heap}

/-- **What is made stays.** -/
theorem keeps (hg : h.Grows k) {f : FailureId} (hf : f < h.size) : h.Keeps k f := by
  obtain ⟨x, hx⟩ := exists_get? hf
  obtain ⟨more, hmore⟩ := hg.kept hx
  refine ⟨lt_size_of_get? hmore, ?_, hg.message_eq hf, hg.origin_eq hf, more, ?_⟩
  · simp [Heap.kind, hx, hmore]
  · rw [suppressed_of_get? hx, suppressed_of_get? hmore]

/-- **No failure comes to suppress itself.** A new one suppresses older ones, and
attaching a failure to itself is ignored. -/
theorem selfless (hg : h.Grows k) (hh : h.Selfless) : k.Selfless := by
  induction hg with
  | refl => exact hh
  | @alloc k _ x _ hs ih =>
    intro f hf
    rw [suppressed_alloc] at hf
    split at hf
    · rename_i hnew
      exact Nat.lt_irrefl f (Nat.lt_of_lt_of_eq (hs f hf) hnew.symm)
    · exact ih f hf
  | @attach k _ parent child hc ih =>
    intro f hf
    cases hx : k.get? f with
    | none => simp [suppressed, get?_attach, hx] at hf
    | some x =>
      have hold : f ∉ x.suppressed := suppressed_of_get? hx ▸ ih f
      have hget := k.get?_attach parent child f
      rw [hx] at hget
      rw [suppressed_of_get? hget] at hf
      split at hf
      · rename_i hp
        rcases List.mem_append.mp hf with hf | hf
        · exact hold hf
        · exact hp.2 (hp.1.symm.trans (List.mem_singleton.mp hf))
      · exact hold hf

end Grows

end Heap

/-! ### Programs -/

/-- What a program may do once `n` failures exist: it gives the library failures
that exist and no others. `J` tells to which of them its focus refers, and `Q` to
which the value that it ends with does, if it does not end by a panic. -/
inductive Program : {σ α : Type} → Upto σ → Nat → Act σ α → Upto α → Prop where
  -- what any program can do
  | give {σ α : Type} {J : Upto σ} {Q : Upto α} {n : Nat} {a : α} (ha : Q n a) :
      Program J n (pure a) Q
  | panic {σ α : Type} {J : Upto σ} {Q : Upto α} {n : Nat} {p : Payload}
      (hp : Upto.payload n p) : Program J n (throw p : Act σ α) Q
  | goOn {σ α β : Type} {J : Upto σ} {Q : Upto α} {R : Upto β} {n : Nat} {act : Act σ α}
      {k : α → Act σ β} (ha : Program J n act Q)
      (hk : ∀ m a, n ≤ m → Q m a → Program J m (k a) R) : Program J n (act >>= k) R
  | caught {σ α : Type} {J : Upto σ} {Q : Upto α} {n : Nat} {act : Act σ α}
      (ha : Program J n act Q) : Program J n (Act.caught act) (.except .payload Q)
  | ensuring {σ α : Type} {J : Upto σ} {Q : Upto α} {n : Nat} {act : Act σ α}
      {after : Act σ Unit} (ha : Program J n act Q) (hafter : Program J n after .any) :
      Program J n (Act.ensuring act after) Q
  | look {σ β : Type} {J : Upto σ} {R : Upto β} {n : Nat} {k : Scene σ → Act σ β}
      (hk : ∀ s : Scene σ, n ≤ s.heap.size → J s.heap.size s.focus →
        Program J s.heap.size (k s) R) : Program J n (get >>= k) R
  | ask {σ α : Type} {J : Upto σ} {Q : Upto α} {n : Nat} {g : Heap → α}
      (hg : ∀ h : Heap, n ≤ h.size → h.Sound → Q h.size (g h)) : Program J n (Act.ask g) Q
  | tell {σ : Type} {J : Upto σ} {n : Nat} (event : Event) : Program J n (Act.emit event) .any
  /-- Collectors come and go, and what their suppliers give may change at any time. -/
  | change {σ : Type} {J : Upto σ} {n : Nat} {g : σ → σ}
      (hg : ∀ m x, n ≤ m → J m x → J m (g x)) :
      Program J n (modify fun s => { s with focus := g s.focus }) .any
  | place {σ τ α : Type} {J : Upto σ} {K : Upto τ} {Q : Upto α} {n : Nat} {p : Place σ τ}
      {act : Act τ α} (hp : p.Keeps J K) (ha : Program K n act Q) : Program J n (p.run act) Q
  -- failures
  | make {σ : Type} {J : Upto σ} {n : Nat} (kind : FailureKind) (message : String) :
      Program J n (Act.onHeap (·.alloc { kind, message })) .failure
  | wrap {σ : Type} {J : Upto σ} {n : Nat} {e : ErrorValue} (he : Upto.error n e) :
      Program J n (Act.onHeap (·.wrap e)) .failure
  | causedBy {σ : Type} {J : Upto σ} {n : Nat} (message : String) {e : ErrorValue}
      (he : Upto.error n e) : Program J n (Act.onHeap (·.causedBy message e)) .failure
  | ofError {σ : Type} {J : Upto σ} {n : Nat} {e : ErrorValue} (he : Upto.error n e) :
      Program J n (Act.onHeap (·.ofError e)) .failure
  | ofPanic {σ : Type} {J : Upto σ} {n : Nat} {p : Payload} (hp : Upto.payload n p) :
      Program J n (Act.onHeap (·.ofPanic p)) .failure
  | attach {σ : Type} {J : Upto σ} {n : Nat} {parent child : FailureId} (hp : parent < n)
      (hc : child < n) : Program J n (Act.attach parent child) .any
  | raise {σ α : Type} {J : Upto σ} {Q : Upto α} {n : Nat} {f : FailureId} (hf : f < n) :
      Program J n (Act.raise f : Act σ α) Q
  -- collectors
  | add {n : Nat} {f : FailureId} (hf : f < n) :
      Program Collector.known n (Collector.add f) .any
  | addError {n : Nat} {e : ErrorValue} (he : Upto.error n e) :
      Program Collector.known n (Collector.addError e) .any
  | take {n : Nat} : Program Collector.known n Collector.take (.optional .failure)
  | takeAndPanic {n : Nat} : Program Collector.known n Collector.takeAndPanic .any
  | panicKeeping {n : Nat} : Program Collector.known n Collector.panicKeeping .any
  | close {n : Nat} : Program Collector.known n Collector.close (.optional .failure)
  | drop {n : Nat} : Program Collector.known n Collector.drop .any
  -- releases
  | closeSuppressing {σ : Type} {J : Upto σ} {n : Nat} {p : Place σ Collector}
      {resource : Option (Release σ)} (hp : p.Keeps J Collector.known)
      (hr : ∀ release, resource = some release → Program J n release Collector.ends) :
      Program J n (Collector.closeSuppressing p resource) .any
  | scope {σ α : Type} {J : Upto σ} {n : Nat} {c : Collector} {body : Act (Collector × σ) α}
      (hc : Collector.known n c) (hb : Program (.both Collector.known J) n body .any) :
      Program J n (Collector.scope c body) (.except .failure .any)
  | releaseAll {σ : Type} {J : Upto σ} {n : Nat} {resources : List (Release σ)}
      (hr : ∀ release ∈ resources, Program J n release Collector.ends) :
      Program J n (Teardown.releaseAll resources) (.except .failure .any)
  | group {n : Nat} {r : Resource} (hr : r.All (· < n)) :
      Program .any n r.release (.except .failure .any)
  /-- The release of a group goes by polls, between which a program may do something
  else. -/
  | poll {n : Nat} {t : Task} (depth : Nat) (ht : t.Known n) :
      Program .any n (t.poll overThirty depth) Task.polled
  | dropTask {n : Nat} {t : Task} (ht : t.Known n) : Program .any n (t.drop overThirty) .any
  -- whatever a script can do
  | script {n : Nat} (step : Script.Step) :
      Program Script.Session.known n step.play Script.Answer.known

/-- **A program only grows the heap.** -/
theorem Program.grows {σ α : Type} {J : Upto σ} {Q : Upto α} {n : Nat} {act : Act σ α}
    (h : Program J n act Q) : Act.Grows J n act Q := by
  induction h with
  | give ha => exact Act.grows_pure ha
  | panic hp => exact Act.grows_throw hp
  | goOn _ _ ih ihk => exact ih.bind ihk
  | caught _ ih => exact ih.caught
  | ensuring _ _ ih ihafter => exact ih.ensuring ihafter
  | look _ ih => exact Act.Grows.get_bind ih
  | ask hg => exact Act.grows_ask hg
  | tell event => exact Act.grows_emit event
  | change hg => exact Act.grows_modify fun s hn hJ => ⟨rfl, hg _ _ hn hJ⟩
  | place hp _ ih => exact ih.place hp
  | make kind message => exact Act.grows_yields fun _ _ _ => Heap.yields_new kind message
  | wrap he => exact Act.grows_yields fun _ hn _ => Heap.yields_wrap (Upto.error.mono hn he)
  | causedBy message he =>
    exact Act.grows_yields fun _ hn _ => Heap.yields_causedBy message (Upto.error.mono hn he)
  | ofError he => exact Act.grows_yields fun _ hn _ => Heap.yields_ofError (Upto.error.mono hn he)
  | ofPanic hp =>
    exact Act.grows_yields fun _ hn _ => Heap.yields_ofPanic (Upto.payload.mono hn hp)
  | attach _ hc => exact Act.grows_attach _ hc
  | raise hf => exact Act.grows_raise hf
  | add hf => exact Collector.grows_add hf
  | addError he => exact Collector.grows_addError he
  | take => exact Collector.grows_take
  | takeAndPanic => exact Collector.grows_takeAndPanic
  | panicKeeping => exact Collector.grows_panicKeeping
  | close => exact Collector.grows_close
  | drop => exact Collector.grows_drop
  | closeSuppressing hp _ ih => exact Collector.grows_closeSuppressing hp ih
  | scope hc _ ih => exact Collector.grows_scope hc ih
  | releaseAll _ ih => exact grows_releaseAll ih
  | group hr => exact ResourceOf.grows_releaseBy overThirty hr
  | poll depth ht => exact Task.grows_poll overThirty depth _ _ ht
  | dropTask ht => exact Task.grows_drop overThirty ht
  | script step => exact Script.Step.grows_play step

/-- **A failure stays as it is, but for what is attached to it, and is never
attached to itself.** Let a program start without any failure, and let another go
on from where it ends, each of them until it returns or panics. Every failure that
existed in between keeps its kind, its message and its origin, its suppressed list
goes on as it was, and no failure suppresses itself. -/
theorem failures_stay {σ α β : Type} {J : Upto σ} {Q : Upto α} {R : Upto β} (start : σ)
    (hstart : J 0 start) (before : Act σ α) (later : Act σ β) (hbefore : Program J 0 before Q)
    (hlater : Program J (before.after { focus := start }).heap.size later R) :
    let s := before.after { focus := start }
    let t := later.after s
    (∀ f < s.heap.size, s.heap.Keeps t.heap f) ∧ ∀ f, f ∉ t.heap.suppressed f := by
  intro s t
  obtain ⟨hs, hfocus⟩ : Heap.Grows {} s.heap ∧ J s.heap.size s.focus :=
    hbefore.grows.after (s := { focus := start }) (Nat.zero_le _) Heap.sound_empty hstart
  obtain ⟨ht, -⟩ := hlater.grows.after (Nat.le_refl _) (hs.sound Heap.sound_empty) hfocus
  exact ⟨fun f hf => ht.keeps hf, (hs.trans ht).selfless Heap.selfless_empty⟩

/-- Two failures that suppress each other. -/
def entangle : Act Collector Unit := do
  let f ← Act.onHeap (·.alloc { message := "a" })
  let g ← Act.onHeap (·.alloc { message := "b" })
  Act.attach f g
  Act.attach g f

/-- A collector that is given a failure as the root of every round. -/
def supplying (root : FailureId) (c : Collector) : Collector :=
  { c with supplier := some { answer := fun _ => .root root } }

/-- Attaches one of them to the other once more, adds the latter under itself as the
root, and panics with it. -/
def overload : Act Collector Unit := do
  Act.attach 0 1
  modify fun s => { s with focus := supplying 0 s.focus }
  Collector.add 0
  Collector.takeAndPanic

theorem program_entangle : Program Collector.known 0 entangle .any := by
  refine .goOn (.make .error "a") fun m f _ hf => .goOn (.make .error "b") fun m' g hm hg => ?_
  have hf : f < m' := Nat.lt_of_lt_of_le hf hm
  refine .goOn (.attach hf hg) fun m'' _ hm' _ => .attach ?_ ?_
  · exact Nat.lt_of_lt_of_le hg hm'
  · exact Nat.lt_of_lt_of_le hf hm'

theorem program_overload : Program Collector.known 2 overload .any := by
  have hroot : ∀ m, 2 ≤ m → 0 < m := fun m hm => Nat.lt_of_lt_of_le Nat.zero_lt_two hm
  refine .goOn (.attach Nat.zero_lt_two Nat.one_lt_two) fun m _ hm _ => ?_
  refine .goOn (.change fun m' c hm' hc => ⟨hc.1, ?_⟩) fun m' _ hm' _ => ?_
  · rintro r ⟨supplier, k, hs, hk⟩
    cases hs
    cases hk
    exact hroot m' (Nat.le_trans hm hm')
  · exact .goOn (.add (hroot m' (Nat.le_trans hm hm'))) fun _ _ _ _ => .takeAndPanic

/-- What is attached to the failure in the end is a copy of it. -/
theorem failures_stay_overload :
    let start : Collector := Collector.withLimit {} 1
    let s := entangle.after { focus := start }
    let t := overload.after s
    Collector.known 0 start ∧ 0 < s.heap.size ∧ s.heap.suppressed 0 = [1] ∧
      t.heap.suppressed 0 = [1, 1, 2] ∧ s.heap.Keeps t.heap 0 ∧ 0 ∉ t.heap.suppressed 0 := by
  intro start s t
  have hstart : Collector.known 0 start := Collector.known_withLimit Collector.known_new 1
  have hsize : s.heap.size = 2 := by decide +kernel
  have hlater : Program Collector.known s.heap.size overload .any := hsize ▸ program_overload
  obtain ⟨hkeeps, hselfless⟩ :=
    failures_stay start hstart entangle overload program_entangle hlater
  refine ⟨hstart, hsize ▸ Nat.zero_lt_two, ?_, ?_, hkeeps 0 (hsize ▸ Nat.zero_lt_two), hselfless 0⟩
  · decide +kernel
  · decide +kernel

end Teardown
