/-
# What a group has recorded

The collector of a group that is being released has counted the members that
failed so far. Once there is one it holds the group's root, a new failure that
suppresses what the group keeps of the first of them. Until the group finishes,
its root is the one failure that it changes.

Key definitions: `RootOf`, `Recording`.
Key theorems: `Recording.addError`, `Recording.moved`.
-/
import Teardown.Proofs.Collector.Adding
import Teardown.Proofs.Release.Outcome

namespace Teardown

/-- `f` is the root of a group that keeps `limit` failures and that the members
in `recorded` have failed: it names the group, it is not settled, and it
suppresses what the group keeps. -/
structure RootOf (h : Heap) (v : View) (k : Heap) (message : String) (limit : Nat)
    (recorded : List Resource) (f : FailureId) : Prop where
  isNew : h.size ≤ f
  unsettled : v f = none
  failed : recorded ≠ []
  stands : ∃ kept, k.get? f = some { message, suppressed := kept } ∧
    KeptAs h v limit (recorded.take limit) kept

namespace RootOf

variable {h k k' : Heap} {v v' : View} {message : String} {limit : Nat}
  {recorded : List Resource} {f : FailureId} {own : List FailureId}

theorem lt_size (hf : RootOf h v k message limit recorded f) : f < k.size := by
  obtain ⟨kept, hk, -⟩ := hf.stands
  exact Heap.lt_size_of_get? hk

/-- What others do leaves a root alone. -/
theorem moved (hf : RootOf h v k message limit recorded f) (hm : Moved own v k v' k')
    (hown : f ∉ own) : RootOf h v' k' message limit recorded f := by
  obtain ⟨hnew, hv, hne, kept, hk, hkept⟩ := hf
  obtain ⟨hk', hv'⟩ := hm.others f _ hk hv hown
  exact ⟨hnew, hv', hne, kept, hk', hkept.mono hm.le⟩

/-- Beyond the limit a failing member is not kept. -/
theorem drop (hf : RootOf h v k message limit recorded f) (hle : limit ≤ recorded.length)
    (m : Resource) : RootOf h v k message limit (recorded ++ [m]) f := by
  obtain ⟨hnew, hv, -, kept, hk, hkept⟩ := hf
  refine ⟨hnew, hv, by simp, kept, hk, ?_⟩
  rw [List.take_append_of_le_length hle]
  exact hkept

variable {m : Resource} {e : ErrorValue} {x : FailureId}

/-- Within the limit a failing member is kept, by attaching what stands for its
error. -/
theorem attach (hf : RootOf h v k message limit recorded f) (hmove : Moved [] v k v' k')
    (hlt : recorded.length < limit) (hm : FailsWith h v' m e)
    (hx : ∀ kept, (∀ y ∈ kept, v.Knows y) → RecordedAs h v' limit kept e x) (hknown : v'.Knows x) :
    RootOf h v' (k'.attach f x) message limit (recorded ++ [m]) f := by
  obtain ⟨hnew, hv, -, kept, hk, hkept⟩ := hf
  obtain ⟨hk', hv'⟩ := hmove.others f _ hk hv (by simp)
  have hne : f ≠ x := by
    rintro rfl
    obtain ⟨y, hy⟩ := hknown
    rw [hv'] at hy
    cases hy
  have htake : (recorded ++ [m]).take limit = recorded.take limit ++ [m] := by
    rw [List.take_of_length_le (Nat.le_of_lt hlt), List.take_of_length_le (by simp; omega)]
  refine ⟨hnew, hv', by simp, kept ++ [x], ?_, ?_⟩
  · rw [Heap.get?_attach, hk']
    simp [hne]
  · rw [htake]
    exact .snoc (hkept.mono hmove.le) hm (hx kept hkept.knows)

/-- The first failing member comes with a new root. -/
theorem first (message : String) (hs : Settled h v k) (hlimit : 0 < limit) (hm : FailsWith h v m e)
    (hx : RecordedAs h v limit [] e x) (hknown : v.Knows x) :
    RootOf h v ((k.alloc { message }).2.attach k.size x) message limit [m] k.size := by
  have hne : k.size ≠ x := fun he => Nat.lt_irrefl _ (he ▸ hs.lt_size hknown)
  have hv : v k.size = none := by
    cases hv : v k.size with
    | none => rfl
    | some y => exact absurd (hs.lt_size ⟨y, hv⟩) (Nat.lt_irrefl _)
  refine ⟨hs.extends_heap.size_le, hv, by simp, [x], ?_, ?_⟩
  · rw [Heap.get?_attach, Heap.get?_alloc, if_pos rfl]
    simp [hne]
  · rw [List.take_of_length_le (Nat.succ_le_of_lt hlimit)]
    exact .snoc (.nil limit) hm hx

end RootOf

/-- The collector of a group that the members in `recorded` have failed. -/
structure Recording (h : Heap) (v : View) (k : Heap) (message : String) (bound : Nat)
    (recorded : List Resource) (c : Collector) : Prop where
  isOpen : c.closed = false
  limit : c.limit = max bound 1
  supplier : ∃ supplier, c.supplier = some supplier ∧ ∀ n, supplier.answer n = .fresh message
  observed : c.observed = recorded.length
  nothing : c.primary = none → recorded = []
  root : ∀ f, c.primary = some f → RootOf h v k message (max bound 1) recorded f

namespace Recording

variable {h k k' : Heap} {v v' : View} {message : String} {bound : Nat}
  {recorded : List Resource} {c d : Collector} {own : List FailureId} {m : Resource}
  {e : ErrorValue}

/-- A group's collector has recorded nothing at first. -/
theorem initial (h : Heap) (v : View) (k : Heap) (name : String) (size limit : Nat) :
    Recording h v k (groupMessage name size) limit [] (groupCollector name size limit) where
  isOpen := rfl
  limit := rfl
  supplier := ⟨_, rfl, fun _ => rfl⟩
  observed := rfl
  nothing _ := rfl
  root f hf := by simp [groupCollector, Collector.withLimit, Collector.withSupplier] at hf

theorem root_lt_size (hr : Recording h v k message bound recorded c) {f : FailureId}
    (hf : f ∈ c.primary.toList) : f < k.size :=
  (hr.root f (by simpa using hf)).lt_size

/-- What others do leaves a group's root alone. -/
theorem moved (hr : Recording h v k message bound recorded c) (hm : Moved own v k v' k')
    (hown : ∀ f ∈ c.primary.toList, f ∉ own) : Recording h v' k' message bound recorded c where
  isOpen := hr.isOpen
  limit := hr.limit
  supplier := hr.supplier
  observed := hr.observed
  nothing := hr.nothing
  root f hf := (hr.root f hf).moved hm (hown f (by simp [hf]))

/-- A collector that has counted one more failing member and holds a root. -/
theorem count (hr : Recording h v k message bound recorded c) (hopen : d.closed = c.closed)
    (hlimit : d.limit = c.limit)
    (hsupplier : d.supplier = c.supplier ∨ d.supplier = c.supplier.map Supplier.called)
    (hobserved : d.observed = c.observed + 1) {f : FailureId} (hp : d.primary = some f)
    (hf : RootOf h v' k' message (max bound 1) (recorded ++ [m]) f) :
    Recording h v' k' message bound (recorded ++ [m]) d where
  isOpen := hopen.trans hr.isOpen
  limit := hlimit.trans hr.limit
  supplier := by
    obtain ⟨supplier, hs, hfresh⟩ := hr.supplier
    rcases hsupplier with h | h
    · exact ⟨supplier, h.trans hs, hfresh⟩
    · exact ⟨supplier.called, by rw [h, hs]; rfl, hfresh⟩
  observed := by simp [hobserved, hr.observed]
  nothing h := by simp [hp] at h
  root g hg := by
    obtain rfl : f = g := Option.some.inj (hp.symm.trans hg)
    exact hf

/-- **Recording a failing member.** It is counted and, within the limit, kept
under the root, which the first one brings in. Nothing else moves but what is
new. -/
theorem addError {s : Scene Collector} (hs : Settled h v s.heap)
    (hr : Recording h v s.heap message bound recorded s.focus) (hm : FailsWith h v m e)
    (he : ∀ f, e.failure? = some f → v.Knows f) :
    ∃ t v', (Collector.addError e).run s = .ok () t ∧ Settled h v' t.heap ∧
      Moved s.focus.primary.toList v s.heap v' t.heap ∧
      Recording h v' t.heap message bound (recorded ++ [m]) t.focus ∧
      ∀ f ∈ t.focus.primary.toList, f ∈ s.focus.primary.toList ∨ s.heap.size ≤ f := by
  obtain ⟨heap, log, c⟩ := s
  have hr : Recording h v heap message bound recorded c := hr
  have hobserved := hr.observed
  have hlimit := hr.limit
  -- the error's failure is settled, and so is what stands for it under the limit
  obtain ⟨v₁, hg₁, hs₁, hf⟩ := hs.ofError he
  obtain ⟨v₂, hg₂, hs₂, hx⟩ := hs₁.limit c.limit hf
  have hg := hg₁.trans hg₂
  have hmove := Moved.of_grown hs hg
  have hrecorded : ∀ kept, (∀ y ∈ kept, v.Knows y) → RecordedAs h v₂ (max bound 1) kept e
      ((heap.ofError e).2.limit c.limit (heap.ofError e).1).1 := by
    intro kept hkept
    rw [← hr.limit]
    exact ⟨heap, hs.extends_heap, fun y hy => hs.lt_size (hkept y hy),
      (hs₁.shownBy hf).mono (hs₁.le hg₂), rfl, hs₂.shownBy hx⟩
  have hrun : (Collector.addError e).run ⟨heap, log, c⟩ =
      (Collector.add (heap.ofError e).1).run ⟨(heap.ofError e).2, log, c⟩ := rfl
  rw [hrun]
  have hadd := Collector.added (heap.ofError e).1 ⟨(heap.ofError e).2, log, c⟩
  generalize (Collector.add (heap.ofError e).1).run ⟨(heap.ofError e).2, log, c⟩ = r at hadd
  cases hadd with
  | rejected hc =>
    have hc : c.closed = true := hc
    simp [hr.isOpen] at hc
  | dropped hc ho =>
    have ho : c.limit ≤ c.observed := ho
    cases hp : c.primary with
    | none =>
      have hnil := hr.nothing hp
      simp only [hnil, List.length_nil] at hobserved
      omega
    | some p =>
      have hroot := (hr.root p hp).moved (Moved.of_grown hs hg₁ []) (by simp)
      exact ⟨_, v₁, rfl, hs₁, .of_grown hs hg₁ _,
        hr.count rfl rfl (.inl rfl) rfl hp (hroot.drop (by omega) m), fun f hf => .inl (hp ▸ hf)⟩
  | again hc ho hp =>
    -- the primary failure is the root, which is not settled
    have hroot := (hr.root _ hp).moved (Moved.of_grown hs hg₁ []) (by simp)
    obtain ⟨x, hx⟩ := hf
    rw [hroot.unsettled] at hx
    cases hx
  | attached hc ho p hp hne limited hl =>
    subst hl
    have hp : c.primary = some p := hp
    have ho : c.observed < c.limit := ho
    have hroot := (hr.root p hp).attach (hmove []) (by omega) (hm.mono (hs.le hg)) hrecorded hx
    have hv₂ := ((hr.root p hp).moved (hmove []) (by simp)).unsettled
    exact ⟨_, v₂, rfl, hs₂.attach hv₂ _, (hmove _).attach (.inl (by simp [hp])) _,
      hr.count rfl rfl (.inl rfl) rfl hp hroot, fun f hf => .inl hf⟩
  | recorded hc ho hp hnone =>
    obtain ⟨supplier, hsupplier, -⟩ := hr.supplier
    have hnone : c.supplier = none := hnone
    simp [hsupplier] at hnone
  | supplied hc ho hp supplier hsupplier limited hl root heap' hroot =>
    subst hl
    have hp : c.primary = none := hp
    have hsupplier : c.supplier = some supplier := hsupplier
    obtain ⟨supplier', hsupplier', hfresh⟩ := hr.supplier
    obtain rfl : supplier = supplier' := Option.some.inj (hsupplier.symm.trans hsupplier')
    rw [hfresh] at hroot
    obtain ⟨rfl, rfl⟩ := Prod.mk.inj (Except.ok.inj hroot)
    have hnil := hr.nothing hp
    subst hnil
    have hfirst := RootOf.first message hs₂ (by omega) (hm.mono (hs.le hg))
      (hrecorded [] (by simp)) hx
    have hs' := hs₂.of_extends (Heap.extends_alloc _ { message })
    refine ⟨_, v₂, rfl, hs'.attach hfirst.unsettled _,
      ((hmove _).extends_heap (Heap.extends_alloc _ _)).attach (.inr hg.heap.size_le) _,
      hr.count rfl rfl (.inr ?_) rfl rfl hfirst, fun f hf => .inr ?_⟩
    · rw [hsupplier]
      rfl
    · obtain rfl := by simpa using hf
      exact hg.heap.size_le
  | unsupplied hc ho hp supplier hsupplier text hroot =>
    obtain ⟨supplier', hsupplier', hfresh⟩ := hr.supplier
    obtain rfl : supplier = supplier' := Option.some.inj (hsupplier.symm.trans hsupplier')
    simp [hfresh, Supply.rootIn] at hroot

end Recording
end Teardown
