/-
# What becomes of accepted failures

A failure is accepted when adding it returns. The number of a failure within its
round is counted before a supplier is asked for the round's root, so a supplier
that panics uses up a number and leaves no primary failure; the next failure
within the limit asks it again, but one beyond the limit is dropped without a
look at the primary failure. So a round holds a failure exactly when one of the
first ones added to it, as many as the limit allows, was accepted
(`holds_iff_accepted_within_limit`): if the supplier panics at each of these,
all that is accepted later is lost.

Key definitions: `Collector.roundOf`, `Collector.MayPanic`, `Collector.Accepts`,
`Collector.Tallied`.
Key theorems: `Collector.accepts_of_open`, `Collector.Tallied.step`,
`Collector.holds_iff_accepted_within_limit`.
-/
import Teardown.Proofs.Collector.Following

namespace Teardown
namespace Collector

/-- Whether an operation ended well. -/
def Moment.returned (m : Moment) : Bool :=
  match m.outcome with
  | .ok _ => true
  | .error _ => false

/-- What a moment adds to the record of its round, which says of each failure
offered to the round whether it was accepted. A drain begins the next round. -/
def Moment.tally (round : List Bool) (m : Moment) : List Bool :=
  match m.operation with
  | .add _ => round ++ [m.returned]
  | .peek | .panicKeeping => round
  | .take | .takeAsError | .takeAndPanic | .close => if m.before.focus.closed then round else []

/-- The record of the round that the moments end in. -/
def roundOf (ms : List Moment) : List Bool := ms.foldl Moment.tally []

/-- Whether the collector's supplier panics at some call. -/
def MayPanic (c : Collector) : Prop :=
  ∃ supplier n message, c.supplier = some supplier ∧ supplier.answer n = .panics message

theorem mayPanic_of_rootIn {c : Collector} {supplier : Supplier} {h : Heap} {message : String}
    (hs : c.supplier = some supplier)
    (hr : (supplier.answer supplier.calls).rootIn h = .error message) : c.MayPanic := by
  refine ⟨supplier, supplier.calls, message, hs, ?_⟩
  cases ha : supplier.answer supplier.calls <;> simp [ha, Supply.rootIn] at hr ⊢
  exact hr

/-! ### What an open collector does with a failure -/

/-- What an open collector does with a failure `f`, told by how full its round is and by
what it holds. -/
structure Accepts (f : FailureId) (s t : Scene Collector) : Prop where
  /-- The round is over its limit. -/
  dropped : s.focus.limit ≤ s.focus.observed →
    t.heap = s.heap ∧ t.focus = { s.focus.counted with dropped := s.focus.dropped + 1 }
  /-- `f` is the primary failure. Limiting it may have made copies of it. -/
  ignored : s.focus.observed < s.focus.limit → s.focus.primary = some f →
    t.heap = (s.heap.limit s.focus.limit f).2 ∧ t.log = s.log ∧ t.focus = s.focus.counted
  /-- There is another primary failure. -/
  attached : s.focus.observed < s.focus.limit → ∀ p, s.focus.primary = some p → p ≠ f →
    t.heap = (s.heap.limit s.focus.limit f).2.attach p (s.heap.limit s.focus.limit f).1 ∧
      t.focus = s.focus.counted
  /-- There is no primary failure, and no supplier. -/
  installed : s.focus.observed < s.focus.limit → s.focus.primary = none →
    s.focus.supplier = none →
    t.heap = (s.heap.limit s.focus.limit f).2 ∧
      t.focus = { s.focus.counted with primary := some (s.heap.limit s.focus.limit f).1 }
  /-- There is no primary failure, and the supplier gives the root that becomes it. -/
  rooted : s.focus.observed < s.focus.limit → s.focus.primary = none →
    ∀ supplier, s.focus.supplier = some supplier →
    ∃ root heap,
      (supplier.answer supplier.calls).rootIn (s.heap.limit s.focus.limit f).2 =
        .ok (root, heap) ∧
      t.heap = heap.attach root (s.heap.limit s.focus.limit f).1 ∧
      t.focus =
        { s.focus.counted with primary := some root, supplier := some supplier.called }

/-- **An open collector accepts a failure**, unless its supplier panics. -/
theorem accepts_of_open {s : Scene Collector} (hc : s.focus.closed = false)
    (hsup : ¬ s.focus.MayPanic) (f : FailureId) :
    ∃ t, (add f).run s = .ok () t ∧ Accepts f s t := by
  generalize hrun : (add f).run s = r
  have ha : Added f s r := hrun ▸ added f s
  cases ha with
  | rejected hc' => simp [hc] at hc'
  | unsupplied _ _ _ supplier hs message hr => exact absurd (mayPanic_of_rootIn hs hr) hsup
  | dropped _ ho =>
    have hfull : ¬ s.focus.observed < s.focus.limit := Nat.not_lt_of_le ho
    exact ⟨_, rfl, fun _ => ⟨rfl, rfl⟩, fun hlt => absurd hlt hfull, fun hlt => absurd hlt hfull,
      fun hlt => absurd hlt hfull, fun hlt => absurd hlt hfull⟩
  | again _ ho hp =>
    have hroom : ¬ s.focus.limit ≤ s.focus.observed := Nat.not_le_of_lt ho
    refine ⟨_, rfl, fun hle => absurd hle hroom, fun _ _ => ⟨rfl, rfl, rfl⟩,
      fun _ p hp' hne => ?_, fun _ hnone => ?_, fun _ hnone => ?_⟩
    · exact absurd (Option.some.inj (hp'.symm.trans hp)) hne
    · simp [hp] at hnone
    · simp [hp] at hnone
  | attached _ ho p hp hne limited hl =>
    have hroom : ¬ s.focus.limit ≤ s.focus.observed := Nat.not_le_of_lt ho
    subst hl
    refine ⟨_, rfl, fun hle => absurd hle hroom, fun _ hp' => ?_, fun _ p' hp' _ => ?_,
      fun _ hnone => ?_, fun _ hnone => ?_⟩
    · exact absurd (Option.some.inj (hp.symm.trans hp')) hne
    · obtain rfl : p = p' := Option.some.inj (hp.symm.trans hp')
      exact ⟨rfl, rfl⟩
    · simp [hp] at hnone
    · simp [hp] at hnone
  | recorded _ ho hp hs limited hl =>
    have hroom : ¬ s.focus.limit ≤ s.focus.observed := Nat.not_le_of_lt ho
    subst hl
    refine ⟨_, rfl, fun hle => absurd hle hroom, fun _ hp' => ?_, fun _ p hp' => ?_,
      fun _ _ _ => ⟨rfl, rfl⟩, fun _ _ supplier hs' => ?_⟩
    · simp [hp] at hp'
    · simp [hp] at hp'
    · simp [hs] at hs'
  | supplied _ ho hp supplier hs limited hl root heap hr =>
    have hroom : ¬ s.focus.limit ≤ s.focus.observed := Nat.not_le_of_lt ho
    subst hl
    refine ⟨_, rfl, fun hle => absurd hle hroom, fun _ hp' => ?_, fun _ p hp' => ?_,
      fun _ _ hnone => ?_, fun _ _ supplier' hs' => ?_⟩
    · simp [hp] at hp'
    · simp [hp] at hp'
    · simp [hs] at hnone
    · obtain rfl : supplier = supplier' := Option.some.inj (hs.symm.trans hs')
      exact ⟨root, heap, hr, rfl, rfl⟩

/-! ### What a round has accepted -/

/-- A collector whose limit and supplier are those of `c₀`, with the record of
its round: while it is open it has counted what is on the record, it holds a
failure if one within the limit was accepted, and one was not accepted only
because of the supplier. A closed collector holds nothing. -/
structure Tallied (c₀ : Collector) (round : List Bool) (c : Collector) : Prop where
  limit : c.limit = c₀.limit
  mayPanic : c.MayPanic ↔ c₀.MayPanic
  observed : c.closed = false → c.observed = round.length
  holds : c.closed = false → (c.primary.isSome ↔ true ∈ round.take c₀.limit)
  refused : c.closed = false → false ∈ round → c₀.MayPanic
  closed : c.closed = true → c.primary = none

namespace Tallied

variable {c₀ c : Collector} {round : List Bool}

theorem start {c : Collector} (hc : c.StartsRound) : Tallied c [] c where
  limit := rfl
  mayPanic := Iff.rfl
  observed _ := hc.observed
  holds _ := by simp [hc.primary]
  refused _ h := by simp at h
  closed h := by simp [hc.isOpen] at h

/-- One more failure within the limit: it is on record at the end. -/
theorem mem_take_of_lt {b : Bool} {limit : Nat} (h : round.length < limit) :
    true ∈ (round ++ [b]).take limit ↔ true ∈ round.take limit ∨ b = true := by
  have hlen : (round ++ [b]).length ≤ limit := by simp; omega
  rw [List.take_of_length_le hlen, List.take_of_length_le (Nat.le_of_lt h)]
  simp [eq_comm]

/-- One more failure beyond the limit. -/
theorem take_of_le {b : Bool} {limit : Nat} (h : limit ≤ round.length) :
    (round ++ [b]).take limit = round.take limit := by
  rw [List.take_append_of_le_length h]

/-- A failure within the limit that is accepted leaves the collector with a
primary failure. -/
theorem accept (h : Tallied c₀ round c) (hc : c.closed = false) (ho : c.observed < c.limit)
    {d : Collector} (hd : d.closed = false) (hl : d.limit = c.limit)
    (hm : d.MayPanic ↔ c.MayPanic) (hobs : d.observed = c.observed + 1)
    (hp : d.primary.isSome) : Tallied c₀ (round ++ [true]) d where
  limit := hl.trans h.limit
  mayPanic := hm.trans h.mayPanic
  observed _ := by simp [hobs, h.observed hc]
  holds _ := by
    have hlt : round.length < c₀.limit := by
      rw [← h.limit, ← h.observed hc]
      exact ho
    simp [mem_take_of_lt hlt, hp]
  refused _ hf := h.refused hc (by simpa using hf)
  closed hcl := by simp [hd] at hcl

theorem mayPanic_called {c d : Collector} {supplier : Supplier} (hs : c.supplier = some supplier)
    (hd : d.supplier = some supplier.called) : d.MayPanic ↔ c.MayPanic := by
  simp [MayPanic, hs, hd, Supplier.called]

/-- What adding preserves. -/
theorem add {offer : Heap → FailureId × Heap} {s : Scene Collector}
    (h : Tallied c₀ round s.focus) :
    Tallied c₀ (Moment.tally round ⟨.add offer, s⟩) (⟨.add offer, s⟩ : Moment).after.focus := by
  have hrun := Operation.run_add offer s
  have hadd := added (offer s.heap).1 { s with heap := (offer s.heap).2 }
  simp only [Moment.tally, Moment.returned, Moment.outcome, Moment.after, Act.after, hrun]
  generalize (Collector.add (offer s.heap).1).run { s with heap := (offer s.heap).2 } = r at hadd
  cases hadd with
  | rejected hc heap hh =>
    have hc : s.focus.closed = true := hc
    exact ⟨h.limit, h.mayPanic, by simp [counted, hc], by simp [counted, hc],
      by simp [counted, hc], fun _ => h.closed hc⟩
  | dropped hc ho =>
    have hc : s.focus.closed = false := hc
    have hle : c₀.limit ≤ round.length := by
      rw [← h.limit, ← h.observed hc]
      exact ho
    refine ⟨h.limit, h.mayPanic, fun _ => ?_, fun _ => ?_, fun _ hf => ?_, by simp [counted, hc]⟩
    · simp [counted, h.observed hc]
    · rw [take_of_le hle]
      exact h.holds hc
    · exact h.refused hc (by simpa using hf)
  | again hc ho hp =>
    exact h.accept hc ho hc rfl Iff.rfl rfl (by simpa [counted] using Option.isSome_of_eq_some hp)
  | attached hc ho primary hp =>
    exact h.accept hc ho hc rfl Iff.rfl rfl (by simpa [counted] using Option.isSome_of_eq_some hp)
  | recorded hc ho hp hs => exact h.accept hc ho hc rfl Iff.rfl rfl rfl
  | supplied hc ho hp supplier hs =>
    exact h.accept hc ho hc rfl (mayPanic_called hs rfl) rfl rfl
  | unsupplied hc ho hp supplier hs message hr =>
    -- the supplier panics: a number is used up, and there is no primary failure
    have hc : s.focus.closed = false := hc
    have hp : s.focus.primary = none := hp
    have hlt : round.length < c₀.limit := by
      rw [← h.limit, ← h.observed hc]
      exact ho
    have hpanic : s.focus.MayPanic := mayPanic_of_rootIn hs hr
    refine ⟨h.limit, (mayPanic_called hs rfl).trans h.mayPanic, fun _ => ?_, fun _ => ?_,
      fun _ _ => h.mayPanic.mp hpanic, by simp [counted, hc]⟩
    · simp [counted, h.observed hc]
    · have hnone := h.holds hc
      simp only [hp] at hnone
      simp [mem_take_of_lt hlt, counted, hp, ← hnone]

/-- What a drain preserves: an open collector begins a round or is closed. -/
theorem drain {op : Operation} {s : Scene Collector} (hd : op.Drains)
    (h : Tallied c₀ round s.focus) :
    Tallied c₀ (Moment.tally round ⟨op, s⟩) (⟨op, s⟩ : Moment).after.focus := by
  have htally : Moment.tally round ⟨op, s⟩ = if s.focus.closed then round else [] := by
    cases op <;> simp [Operation.Drains] at hd <;> rfl
  rw [htally]
  cases hc : s.focus.closed with
  | true =>
    rw [(Operation.after_of_closed hd hc).1]
    exact h
  | false =>
    obtain ⟨-, hafter, -⟩ := Operation.run_of_open hd hc
    rw [hafter]
    exact ⟨(op.drained_limit s.focus).trans h.limit, by simpa [MayPanic] using h.mayPanic,
      fun hopen => (op.startsRound_drained hopen).observed, fun _ => by simp,
      fun _ hf => by simp at hf, fun _ => op.drained_primary s.focus⟩

/-- **What every operation preserves.** -/
theorem step (round : List Bool) (m : Moment) (h : Tallied c₀ round m.before.focus) :
    Tallied c₀ (m.tally round) m.after.focus := by
  obtain ⟨op, s⟩ := m
  cases op with
  | add offer => exact h.add
  | peek => exact h
  | panicKeeping =>
    have hafter : (⟨.panicKeeping, s⟩ : Moment).after.focus = s.focus := by
      simp only [Moment.after, Act.after, Operation.run_panicKeeping]
      cases s.focus.primary <;> rfl
    rw [hafter]
    exact h
  | take => exact h.drain trivial
  | takeAsError => exact h.drain trivial
  | takeAndPanic => exact h.drain trivial
  | close => exact h.drain trivial

end Tallied

/-- A run keeps the record of its round. -/
theorem tallied_playAll {s : Scene Collector} (hs : s.focus.StartsRound) (uses : List Use) :
    Tallied s.focus (roundOf (momentsOf uses s)) ((playAll uses).after s).focus :=
  (linked_momentsOf uses s).fold (P := fun round c => Tallied s.focus round c.1) Tallied.step
    (Tallied.start hs)

/-- **What is accepted is held, but for a supplier that panics.** In a run from
the start of a round, let the collector be open and a failure have been accepted
since the last drain. If one within the limit was accepted, the collector holds
a failure and the next drain hands one out. Otherwise it holds none, every drain
reports success, and the supplier is one that panics. -/
theorem holds_iff_accepted_within_limit (s : Scene Collector) (hs : s.focus.StartsRound)
    (uses : List Use) :
    let t := (playAll uses).after s
    let round := roundOf (momentsOf uses s)
    t.focus.closed = false → true ∈ round →
      (true ∈ round.take s.focus.limit →
        t.focus.primary.isSome ∧
          ∀ op : Operation, op.Drains → (⟨op, t⟩ : Moment).delivered.isSome) ∧
      (true ∉ round.take s.focus.limit →
        t.focus.primary = none ∧
          (∀ op : Operation, op.Drains → (⟨op, t⟩ : Moment).delivered = none) ∧
          s.focus.MayPanic) := by
  intro t round ho ha
  have h : Tallied s.focus round t.focus := tallied_playAll hs uses
  have hdelivers : ∀ op : Operation, op.Drains → (⟨op, t⟩ : Moment).delivered = t.focus.primary :=
    fun op hd => (Operation.run_of_open hd ho).1
  refine ⟨fun hin => ?_, fun hout => ?_⟩
  · have hsome := (h.holds ho).mpr hin
    exact ⟨hsome, fun op hd => by rw [hdelivers op hd]; exact hsome⟩
  · have hnone : t.focus.primary = none := by
      simpa using mt (h.holds ho).mp hout
    refine ⟨hnone, fun op hd => (hdelivers op hd).trans hnone, h.refused ho ?_⟩
    -- the first failures of the round, of which there is one, were all refused
    have hne : round.take s.focus.limit ≠ [] := by
      have := s.focus.limit_pos
      rw [Ne, List.take_eq_nil_iff]
      rintro (h0 | hnil)
      · omega
      · simp [hnil] at ha
    obtain ⟨b, hb⟩ := List.exists_mem_of_ne_nil _ hne
    cases b with
    | true => exact absurd hb hout
    | false => exact List.mem_of_mem_take hb

/-- A new collector that keeps so many failures and whose supplier panics when
it is first asked. -/
def faltering (limit : Nat) : Scene Collector where
  focus := (withSupplier fun n => if n = 0 then .panics "no root" else .nothing).withLimit limit

/-- Adds a new failure. -/
def addNew (message : String) : Use := .operation (.add (·.alloc { message }))

/-- With a limit of two the second failure is held, though the supplier panicked
at the first. -/
theorem holds_after_faltering :
    let t := (playAll [addNew "a", addNew "b"]).after (faltering 2)
    t.focus.closed = false ∧
      roundOf (momentsOf [addNew "a", addNew "b"] (faltering 2)) = [false, true] ∧
      t.focus.primary.isSome ∧ (⟨.close, t⟩ : Moment).delivered.isSome := by
  have hs : (faltering 2).focus.StartsRound := (startsRound_withSupplier _).withLimit 2
  have ho : ((playAll [addNew "a", addNew "b"]).after (faltering 2)).focus.closed = false := by
    decide +kernel
  have hround : roundOf (momentsOf [addNew "a", addNew "b"] (faltering 2)) = [false, true] := by
    decide +kernel
  have h := holds_iff_accepted_within_limit (faltering 2) hs [addNew "a", addNew "b"]
  simp only [hround] at h
  obtain ⟨hin, -⟩ := h ho (by decide)
  obtain ⟨hheld, hdelivered⟩ := hin (by decide)
  exact ⟨ho, hround, hheld, hdelivered .close trivial⟩

/-- With a limit of one it is lost: it is accepted, and no one learns of it. -/
theorem accepted_failure_lost :
    let uses := [addNew "a", addNew "b"]
    let t := (playAll uses).after (faltering 1)
    (faltering 1).focus.StartsRound ∧ t.focus.closed = false ∧
      roundOf (momentsOf uses (faltering 1)) = [false, true] ∧
      t.focus.primary = none ∧
      (⟨.take, t⟩ : Moment).delivered = none ∧
      (⟨.close, t⟩ : Moment).returned = true ∧ (⟨.close, t⟩ : Moment).delivered = none :=
  ⟨(startsRound_withSupplier _).withLimit 1, by decide +kernel⟩

end Collector
end Teardown
