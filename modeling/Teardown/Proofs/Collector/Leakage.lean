/-
# What leaks from one round into the next

A drain clears the collector, but not the failure it hands out, which keeps what
was attached to it. So nothing of a round is seen in a later one unless the
later one's primary failure is the same object again: a failure that was handed
out before and that the supplier gives as a root once more. Then everything that
was attached to it before is still there (`leaks_iff_handed_out_before`).

The failures that are added are new: they suppress nothing and are not added
twice. A ledger keeps, beside the collector, which of them came in the current
round, which came before, and what was handed out.

Key definitions: `Collector.Ledger`, `Collector.Traced`.
Key theorems: `Collector.Traced.step`, `Collector.Traced.run`,
`Collector.leaks_iff_handed_out_before`.
-/
import Teardown.Proofs.Collector.Delivery

namespace Teardown
namespace Collector

/-- What has been done to a collector. -/
structure Ledger where
  /-- The failures added in the rounds that are over. -/
  earlier : List FailureId := []
  /-- The failures added in the current round. -/
  round : List FailureId := []
  /-- The failures that drains handed out. -/
  out : List FailureId := []
  deriving DecidableEq, Repr

namespace Ledger

/-- One more failure is added. -/
def enlist (l : Ledger) (f : FailureId) : Ledger := { l with round := l.round ++ [f] }

/-- The round is over, and `f` is handed out, if there is one. -/
def turn (l : Ledger) (f : Option FailureId) : Ledger :=
  { earlier := l.earlier ++ l.round, round := [], out := l.out ++ f.toList }

/-- The ledger after one more operation. -/
def record (l : Ledger) (m : Moment) : Ledger :=
  match m.operation with
  | .add offer => l.enlist (offer m.before.heap).1
  | .peek | .panicKeeping => l
  | .take | .takeAsError | .takeAndPanic | .close =>
      if m.before.focus.closed then l else l.turn m.delivered

end Ledger

/-- Operations done in turn; a panic stops none of them. -/
def afterAll (s : Scene Collector) (ops : List Operation) : Scene Collector :=
  (playAll (ops.map .operation)).after s

/-- The moments of operations done in turn. -/
def momentsIn (s : Scene Collector) (ops : List Operation) : List Moment :=
  momentsOf (ops.map .operation) s

/-- The ledger of operations done in turn. -/
def ledgerOf (s : Scene Collector) (ops : List Operation) : Ledger :=
  (momentsIn s ops).foldl Ledger.record {}

/-- The failure that a moment offers to the collector. -/
def Moment.offered (m : Moment) : Option FailureId :=
  match m.operation with
  | .add offer => some (offer m.before.heap).1
  | _ => none

/-- An offer of a new failure: making it and whatever else is made with it
changes nothing, and it suppresses nothing and is no root. -/
structure OffersNew (c : Collector) (h : Heap) (offer : Heap → FailureId × Heap) : Prop where
  extends_heap : h.Extends (offer h).2
  lt_size : (offer h).1 < (offer h).2.size
  childless : (offer h).2.suppressed (offer h).1 = []
  not_root : ¬ c.Gives (offer h).1

/-- A moment at which what is added, if anything is, is new. -/
def Moment.IsNew (m : Moment) : Prop :=
  ∀ offer, m.operation = .add offer → OffersNew m.before.focus m.before.heap offer

/-- A primary failure and where what it suppresses comes from: the current round,
or, if it was handed out before, an earlier one. Only a root is handed out
again. -/
structure Held (c₀ : Collector) (l : Ledger) (h : Heap) (p : FailureId) : Prop where
  lt_size : p < h.size
  not_earlier : p ∉ l.earlier
  gathers : p ∈ l.round ∨ h.suppressed p ≠ []
  root : p ∈ l.out → c₀.Gives p
  sources : ∀ x ∈ h.suppressed p, x ∈ l.round ∨ x ∈ l.earlier ∧ p ∈ l.out

/-- A collector whose supplier gives the roots of `c₀`, with its ledger: what was
handed out was added before or suppresses what was, and a root that is not the
primary failure suppresses nothing else. -/
structure Traced (c₀ : Collector) (l : Ledger) (s : Scene Collector) : Prop where
  gives : ∀ r, s.focus.Gives r ↔ c₀.Gives r
  root_lt : ∀ r, c₀.Gives r → r < s.heap.size
  added : ∀ x ∈ l.earlier ++ l.round, x < s.heap.size ∧ ¬ c₀.Gives x
  distinct : (l.earlier ++ l.round).Nodup
  out : ∀ p ∈ l.out, p < s.heap.size ∧
    (p ∈ l.earlier ∨ ∃ x ∈ s.heap.suppressed p, x ∈ l.earlier)
  held : ∀ p, s.focus.primary = some p → Held c₀ l s.heap p
  idle : ∀ r, c₀.Gives r → s.focus.primary ≠ some r →
    ∀ x ∈ s.heap.suppressed r, x ∈ l.earlier ∧ r ∈ l.out

namespace Traced

variable {c₀ : Collector} {l : Ledger} {s : Scene Collector} {f p : FailureId}

theorem start (hs : s.focus.StartsRound)
    (hroots : ∀ r, s.focus.Gives r → r < s.heap.size ∧ s.heap.suppressed r = []) :
    Traced s.focus {} s where
  gives _ := Iff.rfl
  root_lt r hr := (hroots r hr).1
  added _ hx := by simp at hx
  distinct := by simp
  out _ hp := by simp at hp
  held _ hp := by simp [hs.primary] at hp
  idle r hr _ x hx := by simp [(hroots r hr).2] at hx

/-- Failures that are made elsewhere change nothing. -/
theorem of_extends (h : Traced c₀ l s) {k : Heap} (hk : s.heap.Extends k) :
    Traced c₀ l { s with heap := k } where
  gives := h.gives
  root_lt r hr := Nat.lt_of_lt_of_le (h.root_lt r hr) hk.size_le
  added x hx := ⟨Nat.lt_of_lt_of_le (h.added x hx).1 hk.size_le, (h.added x hx).2⟩
  distinct := h.distinct
  out p hp := by
    obtain ⟨hlt, hfrom⟩ := h.out p hp
    refine ⟨Nat.lt_of_lt_of_le hlt hk.size_le, ?_⟩
    rw [hk.suppressed_eq hlt]
    exact hfrom
  held p hp := by
    have hheld := h.held p hp
    have hsup := hk.suppressed_eq hheld.lt_size
    refine ⟨Nat.lt_of_lt_of_le hheld.lt_size hk.size_le, hheld.not_earlier, ?_, hheld.root, ?_⟩
    · rw [hsup]
      exact hheld.gathers
    · rw [hsup]
      exact hheld.sources
  idle r hr hne := by
    rw [hk.suppressed_eq (h.root_lt r hr)]
    exact h.idle r hr hne

/-- A new failure is counted to the round. -/
theorem enlist (h : Traced c₀ l s) (hf : f < s.heap.size) (hroot : ¬ c₀.Gives f)
    (hnew : f ∉ l.earlier ++ l.round) {t : Scene Collector} (hheap : t.heap = s.heap)
    (hprimary : t.focus.primary = s.focus.primary)
    (hgives : ∀ r, t.focus.Gives r ↔ s.focus.Gives r) : Traced c₀ (l.enlist f) t where
  gives r := (hgives r).trans (h.gives r)
  root_lt r hr := hheap ▸ h.root_lt r hr
  added x hx := by
    rw [hheap]
    simp only [Ledger.enlist, ← List.append_assoc, List.mem_append, List.mem_singleton] at hx
    rcases hx with hx | rfl
    · exact h.added x (List.mem_append.mpr hx)
    · exact ⟨hf, hroot⟩
  distinct := by
    simp only [Ledger.enlist, ← List.append_assoc]
    rw [List.nodup_append]
    refine ⟨h.distinct, by simp, ?_⟩
    rintro x hx y hy rfl
    exact hnew (List.mem_singleton.mp hy ▸ hx)
  out p hp := hheap ▸ h.out p hp
  held p hp := by
    have hheld := h.held p (hprimary ▸ hp)
    rw [hheap]
    refine ⟨hheld.lt_size, hheld.not_earlier, ?_, hheld.root, fun x hx => ?_⟩
    · exact hheld.gathers.imp_left fun hp => List.mem_append_left _ hp
    · exact (hheld.sources x hx).imp_left fun hx => List.mem_append_left _ hx
  idle r hr hne := by
    rw [hheap]
    exact h.idle r hr (hprimary ▸ hne)

/-- A failure of the round that suppresses nothing becomes the primary one. -/
theorem install (h : Traced c₀ l s) (hf : f ∈ l.round) (hchildless : s.heap.suppressed f = [])
    (hp : s.focus.primary = none) {t : Scene Collector} (hheap : t.heap = s.heap)
    (hprimary : t.focus.primary = some f)
    (hgives : ∀ r, t.focus.Gives r ↔ s.focus.Gives r) : Traced c₀ l t where
  gives r := (hgives r).trans (h.gives r)
  root_lt r hr := hheap ▸ h.root_lt r hr
  added x hx := hheap ▸ h.added x hx
  distinct := h.distinct
  out p hp := hheap ▸ h.out p hp
  held p hp := by
    obtain rfl : f = p := by simpa [hprimary] using hp
    have hearlier : f ∉ l.earlier := fun hmem =>
      (List.nodup_append.mp h.distinct).2.2 f hmem f hf rfl
    rw [hheap]
    refine ⟨(h.added f (List.mem_append_right _ hf)).1, hearlier, .inl hf, fun hout => ?_, ?_⟩
    · -- what was handed out was added before or suppresses something
      rcases (h.out f hout).2 with hmem | ⟨x, hx, -⟩
      · exact absurd hmem hearlier
      · simp [hchildless] at hx
    · simp [hchildless]
  idle r hr _ := by
    rw [hheap]
    exact h.idle r hr (by simp [hp])

/-- A failure of the round is attached to the primary one, or to one that
becomes the primary one: a root, or a failure that has just been made. -/
theorem attach (h : Traced c₀ l s) (hf : f ∈ l.round) (hp : p < s.heap.size) (hne : p ≠ f)
    (hnow : s.focus.primary = some p ∨ s.focus.primary = none ∧ p ∉ l.earlier ∧
      (p ∈ l.out → c₀.Gives p) ∧ ∀ x ∈ s.heap.suppressed p, x ∈ l.earlier ∧ p ∈ l.out)
    {t : Scene Collector} (hheap : t.heap = s.heap.attach p f)
    (hprimary : t.focus.primary = some p)
    (hgives : ∀ r, t.focus.Gives r ↔ s.focus.Gives r) : Traced c₀ l t := by
  have hsup : ∀ g, t.heap.suppressed g =
      if g = p then s.heap.suppressed g ++ [f] else s.heap.suppressed g := by
    intro g
    rw [hheap, Heap.suppressed_attach hp hne]
  have hsize : t.heap.size = s.heap.size := by rw [hheap, Heap.size_attach]
  refine ⟨fun r => (hgives r).trans (h.gives r), fun r hr => hsize ▸ h.root_lt r hr,
    fun x hx => hsize ▸ h.added x hx, h.distinct, fun q hq => ?_, fun q hq => ?_,
    fun r hr hrp => ?_⟩
  · obtain ⟨hlt, hfrom⟩ := h.out q hq
    refine ⟨hsize ▸ hlt, hfrom.imp_right fun ⟨x, hx, hearlier⟩ => ⟨x, ?_, hearlier⟩⟩
    rw [hsup]
    split
    · exact List.mem_append_left _ hx
    · exact hx
  · obtain rfl : p = q := by simpa [hprimary] using hq
    have hsources : ∀ x ∈ s.heap.suppressed p, x ∈ l.round ∨ x ∈ l.earlier ∧ p ∈ l.out := by
      rcases hnow with hnow | ⟨-, -, -, hidle⟩
      · exact (h.held p hnow).sources
      · exact fun x hx => .inr (hidle x hx)
    have hcame : p ∉ l.earlier ∧ (p ∈ l.out → c₀.Gives p) := by
      rcases hnow with hnow | ⟨-, hearlier, hout, -⟩
      · exact ⟨(h.held p hnow).not_earlier, (h.held p hnow).root⟩
      · exact ⟨hearlier, hout⟩
    refine ⟨hsize ▸ hp, hcame.1, .inr ?_, hcame.2, fun x hx => ?_⟩
    · rw [hsup, if_pos rfl]
      simp
    · rw [hsup, if_pos rfl] at hx
      rcases List.mem_append.mp hx with hx | hx
      · exact hsources x hx
      · exact .inl (List.mem_singleton.mp hx ▸ hf)
  · have hrp : r ≠ p := fun heq => hrp (heq ▸ hprimary)
    rw [hsup, if_neg hrp]
    refine h.idle r hr fun hr' => ?_
    rcases hnow with hnow | ⟨hnone, -⟩
    · exact hrp (by simpa [hnow] using hr'.symm)
    · simp [hnone] at hr'

/-- The round is over. -/
theorem turn (h : Traced c₀ l s) {t : Scene Collector} (hheap : t.heap = s.heap)
    (hprimary : t.focus.primary = none) (hgives : ∀ r, t.focus.Gives r ↔ s.focus.Gives r) :
    Traced c₀ (l.turn s.focus.primary) t where
  gives r := (hgives r).trans (h.gives r)
  root_lt r hr := hheap ▸ h.root_lt r hr
  added x hx := hheap ▸ h.added x (by simpa [Ledger.turn] using hx)
  distinct := by simpa [Ledger.turn] using h.distinct
  out p hp := by
    rw [hheap]
    simp only [Ledger.turn, List.mem_append, Option.mem_toList] at hp ⊢
    rcases hp with hp | hp
    · obtain ⟨hlt, hfrom⟩ := h.out p hp
      exact ⟨hlt, hfrom.imp .inl fun ⟨x, hx, hearlier⟩ => ⟨x, hx, .inl hearlier⟩⟩
    · have hheld := h.held p hp
      refine ⟨hheld.lt_size, ?_⟩
      rcases hheld.gathers with hround | hne
      · exact .inl (.inr hround)
      · obtain ⟨x, hx⟩ := List.exists_mem_of_ne_nil _ hne
        exact .inr ⟨x, hx, (hheld.sources x hx).symm.imp_left And.left⟩
  held p hp := by simp [hprimary] at hp
  idle r hr _ x hx := by
    rw [hheap] at hx
    simp only [Ledger.turn, List.mem_append, Option.mem_toList]
    by_cases hrp : s.focus.primary = some r
    · exact ⟨((h.held r hrp).sources x hx).symm.imp_left And.left, .inr hrp⟩
    · obtain ⟨hearlier, hout⟩ := h.idle r hr hrp x hx
      exact ⟨.inl hearlier, .inl hout⟩

/-- **What adding a new failure preserves.** -/
theorem add (h : Traced c₀ l s) (hf : f < s.heap.size) (hchildless : s.heap.suppressed f = [])
    (hroot : ¬ c₀.Gives f) (hnew : f ∉ l.earlier ++ l.round) :
    Traced c₀ (l.enlist f) ((Collector.add f).after s) := by
  have hlimit : s.heap.limit s.focus.limit f = (f, s.heap) :=
    Heap.limit_of_le (by simp [hchildless])
  have hmem : f ∈ (l.enlist f).round := by simp [Ledger.enlist]
  have hsame : ∀ r, s.focus.counted.Gives r ↔ s.focus.Gives r := gives_of_eq rfl
  have hcounted := h.enlist (t := { s with focus := s.focus.counted }) hf hroot hnew rfl rfl hsame
  refine after_of_added f s (P := Traced c₀ (l.enlist f)) fun r hr => ?_
  cases hr with
  | rejected hc heap hh =>
    have hheap : heap = s.heap := by
      rcases hh with rfl | rfl
      · rfl
      · rw [hlimit]
    exact h.enlist hf hroot hnew hheap rfl hsame
  | dropped hc ho => exact h.enlist hf hroot hnew rfl rfl hsame
  | again hc ho hp =>
    refine h.enlist hf hroot hnew ?_ rfl hsame
    show (s.heap.limit s.focus.limit f).2 = s.heap
    rw [hlimit]
  | attached hc ho primary hp hne limited hl =>
    rw [hlimit] at hl
    subst hl
    exact hcounted.attach hmem (h.held primary hp).lt_size hne (.inl hp) rfl hp fun _ => Iff.rfl
  | recorded hc ho hp hs limited hl =>
    rw [hlimit] at hl
    subst hl
    exact hcounted.install hmem hchildless hp rfl rfl fun r => gives_of_eq rfl r
  | supplied hc ho hp supplier hs limited hl root heap hr =>
    rw [hlimit] at hl
    subst hl
    have hcalled : ∀ r, Gives { s.focus.counted with
        primary := some root, supplier := some supplier.called } r ↔ s.focus.counted.Gives r :=
      fun r => gives_called hs rfl r
    -- a root that is made for the round is in no ledger yet
    have hmade : ∀ x : Failure, x.suppressed = [] → (root, heap) = s.heap.alloc x →
        Traced c₀ (l.enlist f) { s with
          heap := heap.attach root f
          log := s.log.push (.rootSupplied (heap.message root) (s.heap.message f))
          focus := { s.focus.counted with
            primary := some root, supplier := some supplier.called } } := by
      intro x hx hxr
      obtain ⟨rfl, rfl⟩ := Prod.mk.inj hxr
      have hgrown := hcounted.of_extends (Heap.extends_alloc s.heap x)
      have hlt : s.heap.size < (s.heap.alloc x).2.size := by simp [Heap.size_alloc]
      have hsup : (s.heap.alloc x).2.suppressed s.heap.size = [] := by
        rw [Heap.suppressed_alloc, if_pos rfl, hx]
      have hearlier : s.heap.size ∉ l.earlier := fun hmem =>
        Nat.lt_irrefl _ (h.added _ (List.mem_append_left _ hmem)).1
      have hout : s.heap.size ∉ l.out := fun hmem => Nat.lt_irrefl _ (h.out _ hmem).1
      refine hgrown.attach hmem hlt (Nat.ne_of_gt hf)
        (.inr ⟨hp, hearlier, fun hmem => absurd hmem hout, fun y hy => ?_⟩) rfl rfl hcalled
      have hy : y ∈ (s.heap.alloc x).2.suppressed s.heap.size := hy
      simp [hsup] at hy
    cases ha : supplier.answer supplier.calls with
    | root r =>
      simp only [ha, Supply.rootIn, Except.ok.injEq, Prod.mk.injEq] at hr
      obtain ⟨rfl, rfl⟩ := hr
      have hgiven : c₀.Gives r := (h.gives r).mp ⟨supplier, _, hs, ha⟩
      have hne : r ≠ f := fun heq => hroot (heq ▸ hgiven)
      have hearlier : r ∉ l.earlier := fun hmem =>
        (h.added r (List.mem_append_left _ hmem)).2 hgiven
      exact hcounted.attach hmem (h.root_lt r hgiven) hne
        (.inr ⟨hp, hearlier, fun _ => hgiven, h.idle r hgiven (by simp [hp])⟩) rfl rfl hcalled
    | fresh message =>
      simp only [ha, Supply.rootIn, Except.ok.injEq] at hr
      exact hmade _ rfl hr.symm
    | nothing =>
      simp only [ha, Supply.rootIn, Except.ok.injEq] at hr
      exact hmade _ rfl hr.symm
    | panics message => simp [ha, Supply.rootIn] at hr
  | unsupplied hc ho hp supplier hs message hr =>
    refine h.enlist hf hroot hnew ?_ rfl fun r => gives_called hs rfl r
    show (s.heap.limit s.focus.limit f).2 = s.heap
    rw [hlimit]

/-- What a drain preserves. -/
theorem drain {op : Operation} (hd : op.Drains) (h : Traced c₀ l s) :
    Traced c₀ (l.record ⟨op, s⟩) (⟨op, s⟩ : Moment).after := by
  have hrecord : l.record ⟨op, s⟩ =
      if s.focus.closed then l else l.turn (⟨op, s⟩ : Moment).delivered := by
    cases op <;> simp [Operation.Drains] at hd <;> rfl
  rw [hrecord]
  cases hc : s.focus.closed with
  | true =>
    rw [(Operation.after_of_closed hd hc).1]
    exact h
  | false =>
    obtain ⟨hdelivered, hfocus, hheap⟩ := Operation.run_of_open hd hc
    rw [hdelivered]
    refine h.turn hheap ?_ ?_
    · rw [hfocus, Operation.drained_primary]
    · rw [hfocus]
      exact gives_of_eq (op.drained_supplier s.focus)

/-- **What every operation preserves.** -/
theorem step (h : Traced c₀ l s) (op : Operation) (hnew : Moment.IsNew ⟨op, s⟩)
    (honce : ∀ f, (⟨op, s⟩ : Moment).offered = some f → f ∉ l.earlier ++ l.round) :
    Traced c₀ (l.record ⟨op, s⟩) (⟨op, s⟩ : Moment).after := by
  cases op with
  | add offer =>
    have ho := hnew offer rfl
    rw [after_add]
    exact (h.of_extends ho.extends_heap).add ho.lt_size ho.childless
      (fun hg => ho.not_root ((h.gives _).mpr hg)) (honce _ rfl)
  | peek => exact h
  | panicKeeping =>
    rw [after_panicKeeping]
    cases s.focus.primary with
    | none => exact h
    | some f => exact ⟨h.gives, h.root_lt, h.added, h.distinct, h.out, h.held, h.idle⟩
  | take => exact h.drain trivial
  | takeAsError => exact h.drain trivial
  | takeAndPanic => exact h.drain trivial
  | close => exact h.drain trivial

end Traced

/-! ### Whole runs -/

theorem momentsIn_cons (s : Scene Collector) (op : Operation) (ops : List Operation) :
    momentsIn s (op :: ops) = ⟨op, s⟩ :: momentsIn (⟨op, s⟩ : Moment).after ops := by
  simp only [momentsIn, List.map_cons, momentsOf, Use.moments, after_operation]
  rfl

theorem afterAll_cons (s : Scene Collector) (op : Operation) (ops : List Operation) :
    afterAll s (op :: ops) = afterAll (⟨op, s⟩ : Moment).after ops := by
  simp only [afterAll, List.map_cons, after_playAll_cons, after_operation]
  rfl

/-- What is recorded of a moment: a failure that is added is counted to its round. -/
theorem Ledger.added_record (l : Ledger) (m : Moment) :
    (l.record m).earlier ++ (l.record m).round =
      l.earlier ++ l.round ++ m.offered.toList := by
  obtain ⟨op, s⟩ := m
  cases op <;> simp [Ledger.record, Ledger.enlist, Ledger.turn, Moment.offered] <;>
    split <;> simp

/-- A run of operations keeps the ledger, if what they add is new and nothing is
added twice. -/
theorem Traced.run {c₀ : Collector} : ∀ (ops : List Operation) {l : Ledger} {s : Scene Collector},
    Traced c₀ l s → (∀ m ∈ momentsIn s ops, m.IsNew) →
    (l.earlier ++ l.round ++ (momentsIn s ops).filterMap Moment.offered).Nodup →
    Traced c₀ ((momentsIn s ops).foldl Ledger.record l) (afterAll s ops)
  | [], _, _, h, _, _ => h
  | op :: ops, l, s, h, hnew, honce => by
    rw [momentsIn_cons] at hnew honce ⊢
    rw [afterAll_cons, List.foldl_cons]
    have hstep : Traced c₀ (l.record ⟨op, s⟩) (⟨op, s⟩ : Moment).after := by
      refine h.step op (hnew _ (List.mem_cons_self ..)) fun f hf hmem => ?_
      rw [List.filterMap_cons_some hf] at honce
      exact (List.nodup_append.mp honce).2.2 f hmem f (List.mem_cons_self ..) rfl
    refine hstep.run ops (fun m hm => hnew m (List.mem_cons_of_mem _ hm)) ?_
    rw [Ledger.added_record]
    cases hf : (⟨op, s⟩ : Moment).offered with
    | none =>
      rw [List.filterMap_cons_none hf] at honce
      simpa using honce
    | some f =>
      rw [List.filterMap_cons_some hf] at honce
      simpa using honce

/-! ### Failures that are made as they are added -/

/-- Adding a failure makes failures and loses none. -/
theorem size_le_after_add (f : FailureId) (s : Scene Collector) :
    s.heap.size ≤ ((Collector.add f).after s).heap.size := by
  have hlimit := (Heap.extends_limit s.heap s.focus.limit f).size_le
  refine after_of_added f s (P := fun t => s.heap.size ≤ t.heap.size) fun r hr => ?_
  cases hr with
  | rejected hc heap hh =>
    rcases hh with rfl | rfl
    · exact Nat.le_refl _
    · exact hlimit
  | dropped => exact Nat.le_refl _
  | again => exact hlimit
  | attached hc ho primary hp hne limited hl =>
    subst hl
    rw [Heap.size_attach]
    exact hlimit
  | recorded hc ho hp hs limited hl =>
    subst hl
    exact hlimit
  | supplied hc ho hp supplier hs limited hl root heap hr =>
    subst hl
    rw [Heap.size_attach]
    exact Nat.le_trans hlimit (extends_rootIn hr).size_le
  | unsupplied => exact hlimit

/-- Adding a failure leaves the roots that the supplier gives. -/
theorem gives_after_add (f : FailureId) (s : Scene Collector) (r : FailureId) :
    ((Collector.add f).after s).focus.Gives r ↔ s.focus.Gives r := by
  refine after_of_added f s (P := fun t => t.focus.Gives r ↔ s.focus.Gives r) fun _ hr => ?_
  cases hr with
  | supplied hc ho hp supplier hs => exact gives_called hs rfl r
  | unsupplied hc ho hp supplier hs => exact gives_called hs rfl r
  | _ => exact gives_of_eq rfl r

/-- An operation that adds, if anything, a failure that it makes for this and
that suppresses nothing. -/
def Operation.AddsNew : Operation → Prop
  | .add offer =>
      ∃ x : Heap → Failure, (∀ h, (x h).suppressed = []) ∧ offer = fun h => h.alloc (x h)
  | _ => True

/-- An operation that adds nothing changes neither the heap nor the roots. -/
theorem Moment.after_of_not_offered {m : Moment} (hm : m.offered = none) :
    m.after.heap = m.before.heap ∧ m.after.focus.supplier = m.before.focus.supplier := by
  obtain ⟨op, s⟩ := m
  have hdrain : op.Drains → (⟨op, s⟩ : Moment).after.heap = s.heap ∧
      (⟨op, s⟩ : Moment).after.focus.supplier = s.focus.supplier := by
    intro hd
    cases hc : s.focus.closed with
    | true =>
      rw [(Operation.after_of_closed hd hc).1]
      exact ⟨rfl, rfl⟩
    | false =>
      obtain ⟨-, hfocus, hheap⟩ := Operation.run_of_open hd hc
      rw [hfocus]
      exact ⟨hheap, op.drained_supplier s.focus⟩
  cases op with
  | add offer => simp [Moment.offered] at hm
  | peek => exact ⟨rfl, rfl⟩
  | panicKeeping => rw [after_panicKeeping]; cases s.focus.primary <;> exact ⟨rfl, rfl⟩
  | take => exact hdrain trivial
  | takeAsError => exact hdrain trivial
  | takeAndPanic => exact hdrain trivial
  | close => exact hdrain trivial

/-- A failure that is made as it is added is new, if the roots exist. -/
theorem Moment.isNew_of_addsNew {m : Moment} (hm : m.operation.AddsNew)
    (hroots : ∀ r, m.before.focus.Gives r → r < m.before.heap.size) : m.IsNew := by
  obtain ⟨op, s⟩ := m
  rintro offer hop
  cases hop
  obtain ⟨x, hx, rfl⟩ := hm
  refine ⟨Heap.extends_alloc _ _, ?_, ?_, fun hg => Nat.lt_irrefl _ (hroots _ hg)⟩
  · simp [Heap.alloc, Heap.size]
  · exact (Heap.suppressed_alloc _ _ _).trans ((if_pos rfl).trans (hx _))

/-- It has the next identity, and the operation leaves the roots. -/
theorem Moment.after_of_addsNew {m : Moment} (hm : m.operation.AddsNew) :
    m.before.heap.size ≤ m.after.heap.size ∧
      (∀ f, m.offered = some f → f = m.before.heap.size ∧ f < m.after.heap.size) ∧
      ∀ r, m.after.focus.Gives r ↔ m.before.focus.Gives r := by
  cases hf : m.offered with
  | none =>
    obtain ⟨hheap, hsupplier⟩ := Moment.after_of_not_offered hf
    exact ⟨Nat.le_of_eq (hheap ▸ rfl), by simp, gives_of_eq hsupplier⟩
  | some f =>
    obtain ⟨op, s⟩ := m
    obtain ⟨offer, rfl⟩ : ∃ offer, op = .add offer := by
      cases op <;> simp [Moment.offered] at hf ⊢
    obtain ⟨x, -, rfl⟩ := hm
    obtain rfl : s.heap.size = f := by simpa [Moment.offered, Heap.alloc] using hf
    rw [after_add]
    have hsize := size_le_after_add s.heap.size { s with heap := (s.heap.alloc (x s.heap)).2 }
    rw [show Heap.size _ = s.heap.size + 1 from Heap.size_alloc s.heap _] at hsize
    refine ⟨Nat.le_of_succ_le hsize, ?_, fun r => gives_after_add _ _ r⟩
    rintro f ⟨⟩
    exact ⟨rfl, hsize⟩

/-- What is made as it is added is new, and nothing is added twice: identities are
given out in order. -/
theorem isNew_of_addsNew : ∀ (ops : List Operation) (s : Scene Collector),
    (∀ op ∈ ops, op.AddsNew) → (∀ r, s.focus.Gives r → r < s.heap.size) →
    (∀ m ∈ momentsIn s ops, m.IsNew) ∧
      ((momentsIn s ops).filterMap Moment.offered).Nodup ∧
      ∀ f ∈ (momentsIn s ops).filterMap Moment.offered, s.heap.size ≤ f
  | [], _, _, _ => by simp [momentsIn, momentsOf]
  | op :: ops, s, hops, hroots => by
    have hop : (⟨op, s⟩ : Moment).operation.AddsNew := hops op (List.mem_cons_self ..)
    obtain ⟨hsize, hoffered, hgives⟩ := Moment.after_of_addsNew hop
    obtain ⟨hnew, honce, hge⟩ := isNew_of_addsNew ops (⟨op, s⟩ : Moment).after
      (fun op hop => hops op (List.mem_cons_of_mem _ hop))
      fun r hr => Nat.lt_of_lt_of_le (hroots r ((hgives r).mp hr)) hsize
    rw [momentsIn_cons]
    refine ⟨fun m hm => ?_, ?_⟩
    · rcases List.mem_cons.mp hm with rfl | hm
      · exact Moment.isNew_of_addsNew hop hroots
      · exact hnew m hm
    · cases hf : (⟨op, s⟩ : Moment).offered with
      | none =>
        rw [List.filterMap_cons_none hf]
        exact ⟨honce, fun f hf => Nat.le_trans hsize (hge f hf)⟩
      | some f =>
        -- all that is added later comes after `f`
        obtain ⟨rfl, hlt⟩ := hoffered f hf
        rw [List.filterMap_cons_some hf]
        refine ⟨List.nodup_cons.mpr ⟨fun hmem => ?_, honce⟩, fun g hg => ?_⟩
        · exact Nat.lt_irrefl _ (Nat.lt_of_lt_of_le hlt (hge _ hmem))
        · rcases List.mem_cons.mp hg with rfl | hg
          · exact Nat.le_refl _
          · exact Nat.le_trans hsize (hge g hg)

/-- **What leaks, and when.** A collector starts a round; the roots that its
supplier gives, if it has one, exist and suppress nothing. In a run of
operations new failures are added, none of them twice. When a drain then hands
out a failure, each failure that it suppresses was added in the current round,
or in an earlier one if it was handed out before. So all of them were added in
the current round exactly if it was not handed out before; and only a root that
the supplier gives is handed out again. -/
theorem leaks_iff_handed_out_before (s : Scene Collector) (hs : s.focus.StartsRound)
    (hroots : ∀ r, s.focus.Gives r → r < s.heap.size ∧ s.heap.suppressed r = [])
    (ops : List Operation) (hnew : ∀ m ∈ momentsIn s ops, m.IsNew)
    (honce : ((momentsIn s ops).filterMap Moment.offered).Nodup) :
    let ledger := ledgerOf s ops
    ∀ drain p, drain.Drains → (⟨drain, afterAll s ops⟩ : Moment).delivered = some p →
      let suppressed := (⟨drain, afterAll s ops⟩ : Moment).after.heap.suppressed p
      (∀ x ∈ suppressed, x ∈ ledger.round ∨ x ∈ ledger.earlier ∧ p ∈ ledger.out) ∧
      ((∀ x ∈ suppressed, x ∈ ledger.round) ↔ p ∉ ledger.out) ∧
      (p ∈ ledger.out → s.focus.Gives p) := by
  intro ledger drain p hd hdelivered suppressed
  have h : Traced s.focus ledger (afterAll s ops) :=
    Traced.run ops (Traced.start hs hroots) hnew (by simpa using honce)
  -- a drain that hands something out leaves the heap as it is
  have hopen : (afterAll s ops).focus.closed = false := by
    refine Bool.eq_false_iff.mpr fun hc => ?_
    simp [(Operation.after_of_closed hd hc).2] at hdelivered
  obtain ⟨hheld, -, hheap⟩ := Operation.run_of_open hd hopen
  have hp : Held s.focus ledger (afterAll s ops).heap p := h.held p (hheld ▸ hdelivered)
  have hsuppressed : suppressed = (afterAll s ops).heap.suppressed p := by
    show Heap.suppressed _ p = _
    rw [hheap]
  rw [hsuppressed]
  refine ⟨hp.sources, ⟨fun hall hout => ?_, fun hout x hx => ?_⟩, hp.root⟩
  · rcases (h.out p hout).2 with hearlier | ⟨x, hx, hearlier⟩
    · exact hp.not_earlier hearlier
    · exact (List.nodup_append.mp h.distinct).2.2 x hearlier x (hall x hx) rfl
  · rcases hp.sources x hx with hround | ⟨-, hmem⟩
    · exact hround
    · exact absurd hmem hout

/-- Adds a failure with a message and nothing else. -/
def addFresh (message : String) : Operation := .add (·.alloc { message })

theorem addsNew_addFresh (message : String) : (addFresh message).AddsNew :=
  ⟨fun _ => { message }, fun _ => rfl, rfl⟩

/-- A new collector beside two failures, which its supplier gives in turn. -/
def alternating : Scene Collector where
  heap := ⟨#[{ message := "p" }, { message := "q" }]⟩
  focus := withSupplier fun n => .root (n % 2)

theorem alternating_gives {r : FailureId} (hr : alternating.focus.Gives r) :
    r < alternating.heap.size ∧ alternating.heap.suppressed r = [] := by
  obtain ⟨supplier, n, hs, ha⟩ := hr
  cases hs
  cases ha
  rcases Nat.mod_two_eq_zero_or_one n with h | h <;> rw [h] <;> decide

/-- Three rounds. -/
def threeRounds : List Operation :=
  [addFresh "a", .take, addFresh "b", .takeAsError, addFresh "c"]

/-- The third round has the first one's root, and what the first one attached. -/
theorem leaks_alternating :
    (⟨.close, afterAll alternating threeRounds⟩ : Moment).delivered = some 0 ∧
      ledgerOf alternating threeRounds = { earlier := [2, 3], round := [4], out := [0, 1] } ∧
      (⟨.close, afterAll alternating threeRounds⟩ : Moment).after.heap.suppressed 0 = [2, 4] ∧
      (∀ x ∈ [2, 4], x ∈ [4] ∨ x ∈ [2, 3] ∧ 0 ∈ [0, 1]) ∧ alternating.focus.Gives 0 := by
  have hops : ∀ op ∈ threeRounds, op.AddsNew := by
    rw [threeRounds]
    simp only [List.forall_mem_cons]
    exact ⟨addsNew_addFresh _, trivial, addsNew_addFresh _, trivial, addsNew_addFresh _, by simp⟩
  obtain ⟨hnew, honce, -⟩ := isNew_of_addsNew threeRounds alternating hops fun r hr =>
    (alternating_gives hr).1
  have hdelivered : (⟨.close, afterAll alternating threeRounds⟩ : Moment).delivered = some 0 := by
    decide +kernel
  have hledger : ledgerOf alternating threeRounds =
      { earlier := [2, 3], round := [4], out := [0, 1] } := by
    decide +kernel
  have hsuppressed :
      (⟨.close, afterAll alternating threeRounds⟩ : Moment).after.heap.suppressed 0 = [2, 4] := by
    decide +kernel
  have hleak := leaks_iff_handed_out_before alternating (startsRound_withSupplier _)
    (fun r hr => alternating_gives hr) threeRounds hnew honce .close 0 trivial hdelivered
  simp only [hledger, hsuppressed] at hleak
  obtain ⟨hsources, -, hgives⟩ := hleak
  exact ⟨hdelivered, hledger, hsuppressed, hsources, hgives (by decide)⟩

/-- A new collector beside a failure, which its supplier gives in every round. -/
def faithful : Scene Collector where
  heap := ⟨#[{ message := "root" }]⟩
  focus := withSupplier fun _ => .root 0

/-- Of two rounds of one failure each, the second hands out both. -/
theorem first_round_leaks :
    let ops := [addFresh "a", .take, addFresh "b"]
    let drain : Moment := ⟨.take, afterAll faithful ops⟩
    faithful.focus.StartsRound ∧ faithful.heap.suppressed 0 = [] ∧
      (ledgerOf faithful ops).earlier = [1] ∧ (ledgerOf faithful ops).round = [2] ∧
      drain.delivered = some 0 ∧ drain.after.heap.suppressed 0 = [1, 2] :=
  ⟨startsRound_withSupplier _, by decide +kernel⟩

end Collector
end Teardown
