/-
# Acts that do the same again

Two acts do the same, the first from what a heap `h` has become and the second from what
a later heap `k` has become, if neither panics and the heaps that were twins are twins
again (`Act.Repeats`). What the two have in common in their focus and in what they give is
told by the heap of the first (`Common`); once common it stays so. It is put together
along the acts, one rule for each way of building them.

The collector of a group does the same again: a failure and its twin that are added to
twin collectors are dropped by both, or attached to the roots of both.

Key definitions: `Common`, `Act.Repeats`, `Collector.Twins`.
Key theorems: `Act.Repeats.bind`, `Collector.repeats_add`, `Collector.repeats_addError`.
-/
import Teardown.Proofs.Collector.Acceptance
import Teardown.Proofs.Failure.Twins

namespace Teardown

open Heap

/-- What two values have in common, told by the heap of the first. -/
structure Common (α : Type) where
  holds : Heap → α → α → Prop
  mono {w w' : Heap} {a a' : α} (hw : w.Stays w') (h : holds w a a') : holds w' a a'

namespace Common

variable {α β : Type}

instance : CoeFun (Common α) fun _ => Heap → α → α → Prop := ⟨Common.holds⟩

/-- Nothing is asked of the two. -/
def any : Common α where
  holds _ _ _ := True
  mono _ h := h

/-- Neither is a panic. -/
def returned (Q : Common α) : Common (Except Payload α) where
  holds w r r' := ∃ a a', r = .ok a ∧ r' = .ok a' ∧ Q w a a'
  mono hw h := by
    obtain ⟨a, a', hr, hr', hq⟩ := h
    exact ⟨a, a', hr, hr', Q.mono hw hq⟩

/-- A pair. -/
def both (Q : Common α) (R : Common β) : Common (α × β) where
  holds w p p' := Q w p.1 p'.1 ∧ R w p.2 p'.2
  mono hw h := ⟨Q.mono hw h.1, R.mono hw h.2⟩

end Common

namespace Act

variable {σ τ α β : Type} {h k w w' : Heap} {J : Common σ} {K : Common τ} {Q : Common α}
  {R : Common β}

/-- Two acts that end well and leave in common what was so before. The second is run in
a twin of the heap that the first is run in. -/
def Repeats (h k : Heap) (J : Common σ) (w : Heap) (act act' : Act σ α) (Q : Common α) : Prop :=
  ∀ s s' : Scene σ, w.Stays s.heap → Twin h k s.heap s'.heap → J s.heap s.focus s'.focus →
    ∃ a a' t t', act.run s = .ok a t ∧ act'.run s' = .ok a' t' ∧ s.heap.Stays t.heap ∧
      Twin h k t.heap t'.heap ∧ J t.heap t.focus t'.focus ∧ Q t.heap a a'

/-! ### Rules -/

theorem repeats_pure {a a' : α} (ha : Q w a a') : Repeats h k J w (pure a) (pure a') Q :=
  fun s s' hw ht hJ => ⟨a, a', s, s', rfl, rfl, .refl _, ht, hJ, Q.mono hw ha⟩

theorem Repeats.bind {act act' : Act σ α} {next next' : α → Act σ β}
    (ha : Repeats h k J w act act' Q)
    (hn : ∀ w' a a', w.Stays w' → Q w' a a' → Repeats h k J w' (next a) (next' a') R) :
    Repeats h k J w (act >>= next) (act' >>= next') R := by
  intro s s' hw ht hJ
  obtain ⟨a, a', t, t', hrun, hrun', hstays, ht, hJ, hQ⟩ := ha s s' hw ht hJ
  obtain ⟨b, b', u, u', hrest, hrest', hstays', hu, hJ, hR⟩ :=
    hn t.heap a a' (hw.trans hstays) hQ t t' (.refl _) ht hJ
  refine ⟨b, b', u, u', ?_, ?_, hstays.trans hstays', hu, hJ, hR⟩
  · rw [EStateM.run_bind, hrun]
    exact hrest
  · rw [EStateM.run_bind, hrun']
    exact hrest'

/-- What the two tell the log may differ. -/
theorem repeats_emit (event event' : Event) :
    Repeats h k J w (emit event) (emit event') .any :=
  fun _ _ _ ht hJ => ⟨(), (), _, _, rfl, rfl, .refl _, ht, hJ, trivial⟩

/-- What is asked of the heap is not relied on. -/
theorem repeats_ask (g g' : Heap → α) : Repeats h k J w (ask g) (ask g') .any :=
  fun s s' _ ht hJ => ⟨_, _, s, s', rfl, rfl, .refl _, ht, hJ, trivial⟩

theorem Repeats.caught {act act' : Act σ α} (ha : Repeats h k J w act act' Q) :
    Repeats h k J w (caught act) (caught act') Q.returned := by
  intro s s' hw ht hJ
  obtain ⟨a, a', t, t', hrun, hrun', hrest⟩ := ha s s' hw ht hJ
  obtain ⟨hstays, ht, hJ, hQ⟩ := hrest
  refine ⟨.ok a, .ok a', t, t', ?_, ?_, hstays, ht, hJ, a, a', rfl, rfl, hQ⟩
  · rw [run_caught, hrun]
  · rw [run_caught, hrun']

end Act

namespace Collector

/-! ### The collectors of groups -/

variable {h k w w' : Heap} {message : String} {c c' : Collector}

/-- The failure `f` is a root with this message that has been made since `h`. -/
def RootIn (h : Heap) (message : String) (w : Heap) (f : FailureId) : Prop :=
  h.size ≤ f ∧ ∃ kept, w.get? f = some { message, suppressed := kept }

theorem RootIn.mono {f : FailureId} (hf : RootIn h message w f) (hw : w.Stays w') :
    RootIn h message w' f := by
  obtain ⟨hle, kept, hkept⟩ := hf
  obtain ⟨kept', hkept'⟩ := hw f _ hkept
  exact ⟨hle, kept', hkept'⟩

/-- The two are collectors of one group in two releases of it. -/
structure Twins (h k : Heap) (message : String) (w : Heap) (c c' : Collector) : Prop where
  first : c.closed = false ∧ ∃ supplier, c.supplier = some supplier ∧
    ∀ n, supplier.answer n = .fresh message
  second : c'.closed = false ∧ ∃ supplier, c'.supplier = some supplier ∧
    ∀ n, supplier.answer n = .fresh message
  limit : c'.limit = c.limit
  observed : c'.observed = c.observed
  primary : c'.primary = c.primary.map (twinOf h k)
  root : ∀ f, c.primary = some f → RootIn h message w f

theorem Twins.mono (hc : Twins h k message w c c') (hw : w.Stays w') :
    Twins h k message w' c c' :=
  { hc with root := fun f hf => (hc.root f hf).mono hw }

/-- What the collectors of a group have in common. -/
def twins (h k : Heap) (message : String) : Common Collector :=
  ⟨Twins h k message, fun hw hc => hc.mono hw⟩

theorem not_mayPanic_of_fresh {supplier : Supplier} (hs : c.supplier = some supplier)
    (hfresh : ∀ n, supplier.answer n = .fresh message) : ¬ c.MayPanic := by
  rintro ⟨supplier', n, text, hs', htext⟩
  obtain rfl : supplier = supplier' := Option.some.inj (hs.symm.trans hs')
  rw [hfresh] at htext
  cases htext

/-- A group's collector gives a new root. -/
theorem rootIn_of_fresh {supplier : Supplier} {heap heap' : Heap} {root : FailureId}
    (hfresh : ∀ n, supplier.answer n = .fresh message)
    (hr : (supplier.answer supplier.calls).rootIn heap = .ok (root, heap')) :
    (root, heap') = heap.alloc { message } := by
  rw [hfresh] at hr
  exact (Except.ok.inj hr).symm

/-- Both count the failure, and otherwise stay as they are. -/
theorem Twins.counted (hc : Twins h k message w c c') (hw : w.Stays w') :
    Twins h k message w' c.counted c'.counted :=
  ⟨hc.first, hc.second, hc.limit, congrArg (· + 1) hc.observed, hc.primary,
    fun f hf => (hc.root f hf).mono hw⟩

section

variable {f : FailureId} {s s' t t' : Scene Collector}

/-- Twin collectors that hold roots already attach the failure and its twin to them, unless
these are the roots. -/
theorem Twins.holding (hc : Twins h k message s.heap s.focus s'.focus)
    (ht : Twin h k s.heap s'.heap) (ha : Accepts f s t) (ha' : Accepts (twinOf h k f) s' t')
    (hroom : s.focus.observed < s.focus.limit) {p : FailureId} (hp : s.focus.primary = some p) :
    s.heap.Stays t.heap ∧ Twin h k t.heap t'.heap ∧
      Twins h k message t.heap t.focus t'.focus := by
  obtain ⟨hlimited, htl⟩ := Twin.limit s.focus.limit ht f
  have hstays := (s.heap.extends_limit s.focus.limit f).stays
  have hroom' : s'.focus.observed < s'.focus.limit := by rwa [hc.limit, hc.observed]
  have hp' : s'.focus.primary = some (twinOf h k p) := by rw [hc.primary, hp, Option.map_some]
  by_cases hpf : p = f
  · obtain ⟨hheap, -, hfocus⟩ := ha.ignored hroom (hpf ▸ hp)
    obtain ⟨hheap', -, hfocus'⟩ := ha'.ignored hroom' (hpf ▸ hp')
    rw [hheap, hheap', hfocus, hfocus', hc.limit]
    exact ⟨hstays, htl, hc.counted hstays⟩
  · obtain ⟨hheap, hfocus⟩ := ha.attached hroom p hp hpf
    obtain ⟨hheap', hfocus'⟩ := ha'.attached hroom' _ hp' fun h => hpf (ht.twinOf_inj.mp h)
    have hstays := hstays.trans (stays_attach _ p (s.heap.limit s.focus.limit f).1)
    rw [hheap, hheap', hfocus, hfocus', hc.limit, hlimited]
    exact ⟨hstays, htl.attach (hc.root p hp).1 _, hc.counted hstays⟩

/-- The first failure that twin collectors take brings in the roots of both. -/
theorem Twins.rooted (hc : Twins h k message s.heap s.focus s'.focus)
    (ht : Twin h k s.heap s'.heap) (ha : Accepts f s t) (ha' : Accepts (twinOf h k f) s' t')
    (hroom : s.focus.observed < s.focus.limit) (hp : s.focus.primary = none) :
    s.heap.Stays t.heap ∧ Twin h k t.heap t'.heap ∧
      Twins h k message t.heap t.focus t'.focus := by
  obtain ⟨hopen, supplier, hsup, hfresh⟩ := hc.first
  obtain ⟨hopen', supplier', hsup', hfresh'⟩ := hc.second
  have hroom' : s'.focus.observed < s'.focus.limit := by rwa [hc.limit, hc.observed]
  have hp' : s'.focus.primary = none := by rw [hc.primary, hp, Option.map_none]
  obtain ⟨root, heap, hr, hheap, hfocus⟩ := ha.rooted hroom hp supplier hsup
  obtain ⟨root', heap', hr', hheap', hfocus'⟩ := ha'.rooted hroom' hp' supplier' hsup'
  rw [hc.limit] at hr' hheap'
  obtain ⟨rfl, rfl⟩ := Prod.mk.inj (rootIn_of_fresh hfresh hr)
  obtain ⟨rfl, rfl⟩ := Prod.mk.inj (rootIn_of_fresh hfresh' hr')
  obtain ⟨hlimited, htl⟩ := Twin.limit s.focus.limit ht f
  let made := (s.heap.limit s.focus.limit f).2.alloc { message }
  let kept := (s.heap.limit s.focus.limit f).1
  obtain ⟨hroot, htr⟩ := htl.alloc (x := { message }) trivial
  have hnew : RootIn h message made.2 made.1 :=
    ⟨htl.first.size_le, [], (get?_alloc _ _ _).trans (if_pos rfl)⟩
  have hattach : made.2.Stays (made.2.attach made.1 kept) := stays_attach _ _ _
  have hmade : s.heap.Stays made.2 :=
    (s.heap.extends_limit s.focus.limit f).stays.trans (extends_alloc _ _).stays
  rw [hheap, hheap', hfocus, hfocus', hlimited]
  refine ⟨hmade.trans hattach, ?_, ⟨hopen, _, rfl, hfresh⟩, ⟨hopen', _, rfl, hfresh'⟩, hc.limit,
    congrArg (· + 1) hc.observed, congrArg some hroot, ?_⟩
  · have htwin := htr.attach hnew.1 kept
    rw [← hroot] at htwin
    exact htwin
  · rintro g ⟨⟩
    exact hnew.mono hattach

end

/-- **A failure and its twin, added to twin collectors**, are dropped by both or attached
to the roots of both. -/
theorem repeats_add (w : Heap) (message : String) (f : FailureId) :
    Act.Repeats h k (twins h k message) w (add f) (add (twinOf h k f)) .any := by
  intro s s' _ ht hc
  have hc : Twins h k message s.heap s.focus s'.focus := hc
  obtain ⟨hopen, supplier, hsup, hfresh⟩ := hc.first
  obtain ⟨hopen', supplier', hsup', hfresh'⟩ := hc.second
  obtain ⟨t, hrun, ha⟩ := accepts_of_open hopen (not_mayPanic_of_fresh hsup hfresh) f
  obtain ⟨t', hrun', ha'⟩ :=
    accepts_of_open hopen' (not_mayPanic_of_fresh hsup' hfresh') (twinOf h k f)
  have hall : s.heap.Stays t.heap ∧ Twin h k t.heap t'.heap ∧
      Twins h k message t.heap t.focus t'.focus := by
    by_cases ho : s.focus.limit ≤ s.focus.observed
    · -- both are over their limit
      obtain ⟨hheap, hfocus⟩ := ha.dropped ho
      obtain ⟨hheap', hfocus'⟩ := ha'.dropped (by rwa [hc.limit, hc.observed])
      rw [hheap, hheap', hfocus, hfocus']
      exact ⟨.refl _, ht, { hc.counted (.refl _) with }⟩
    · have hroom : s.focus.observed < s.focus.limit := Nat.lt_of_not_le ho
      cases hp : s.focus.primary with
      | some p => exact hc.holding ht ha ha' hroom hp
      | none => exact hc.rooted ht ha ha' hroom hp
  obtain ⟨hstays, ht, hc⟩ := hall
  exact ⟨(), (), t, t', hrun, hrun', hstays, ht, hc, trivial⟩

/-- **Twin errors, recorded in twin collectors.** -/
theorem repeats_addError {e e' : ErrorValue} (he : TwinErrors h k e e') :
    Act.Repeats h k (twins h k message) w (addError e) (addError e') .any := by
  intro s s' hw ht hc
  obtain ⟨hf, hto⟩ := ht.ofError he
  have hstays := (s.heap.extends_ofError e).stays
  obtain ⟨a, a', t, t', hrun, hrun', hstays', hrest⟩ := repeats_add w message
    (s.heap.ofError e).1 { s with heap := (s.heap.ofError e).2 }
    { s' with heap := (s'.heap.ofError e').2 } (hw.trans hstays) hto
    ((twins h k message).mono hstays hc)
  rw [← hf] at hrun'
  exact ⟨a, a', t, t', hrun, hrun', hstays.trans hstays', hrest⟩

end Collector
end Teardown
