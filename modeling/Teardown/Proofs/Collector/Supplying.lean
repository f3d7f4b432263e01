/-
# When a supplier is asked, and what becomes of its root

A supplier is asked for the root of a round at the first failure that is offered in
it, and not again. From then on the round is gathered as any other is, with the root
for its primary failure: what stands for the first failure is attached to it, unless
that is the root itself, and then what stands for those that follow. The root is the
object that the supplier gave. What it suppressed before, in an earlier round for
instance, stays in front of what is attached in this one, and none of it is cut down
to the limit (`Collector.asked_once_per_round`).

Key definitions: `Collector.offersIn`, `Collector.busy`, `Collector.HoldsRoot`,
`Collector.Rooted`.
Key theorems: `Collector.busy_enter`, `Collector.add_first`, `Collector.Rooted.step`,
`Collector.asked_once_per_round`.
-/
import Teardown.Proofs.Collector.Counting
import Teardown.Proofs.Collector.Gathering

namespace Teardown

/-! ### What a supplier answers -/

/-- A supplier that is asked gives a root that exists, or a new one, or has none. -/
def Supply.Answers (h : Heap) : Supply → Prop
  | .root r => r < h.size
  | .fresh _ => True
  | .nothing => True
  | .panics _ => False

instance (h : Heap) : DecidablePred (Supply.Answers h)
  | .root r => inferInstanceAs (Decidable (r < h.size))
  | .fresh _ => isTrue trivial
  | .nothing => isTrue trivial
  | .panics _ => isFalse id

/-- A supplier that answers leaves a root, in whatever the heap has become. -/
theorem Supply.Answers.exists_rootIn {h k : Heap} (hle : h.size ≤ k.size) :
    ∀ {supply : Supply}, supply.Answers h →
      ∃ root k', supply.rootIn k = .ok (root, k') ∧ root < k'.size
  | .root r, hr => ⟨r, k, rfl, Nat.lt_of_lt_of_le hr hle⟩
  | .fresh _, _ => ⟨_, _, rfl, by simp [Heap.size]⟩
  | .nothing, _ => ⟨_, _, rfl, by simp [Heap.size]⟩

/-- A supplier that has no root gets one that is new. -/
theorem Supply.rootIn_nothing {h k : Heap} {root : FailureId}
    (hr : Supply.rootIn h .nothing = .ok (root, k)) :
    root = h.size ∧ k.get? root = some { kind := .missingRoot, message := missingRootMessage } := by
  cases hr
  exact ⟨rfl, (h.get?_alloc _ _).trans (if_pos rfl)⟩

namespace Collector

/-- How often the supplier has been asked. -/
def timesAsked (c : Collector) : Nat :=
  match c.supplier with
  | some supplier => supplier.calls
  | none => 0

/-! ### What is offered in a round -/

/-- The failure that is offered at a moment, with the heap that then holds it, if one is
and the collector is open. -/
def Moment.offer? (m : Moment) : Option (FailureId × Heap) :=
  match m.operation with
  | .add offer => if m.before.focus.closed then none else some (offer m.before.heap)
  | _ => none

theorem Moment.isSome_offer? (m : Moment) : m.offer?.isSome = m.offers := by
  obtain ⟨op, s⟩ := m
  cases op with
  | add offer => cases hc : s.focus.closed <;> simp [offer?, offers, Operation.adds, hc]
  | _ => rfl

/-- The failures that are offered in a round. -/
def offersIn (round : List Moment) : List (FailureId × Heap) := round.filterMap Moment.offer?

theorem offersIn_concat (round : List Moment) (m : Moment) :
    offersIn (round ++ [m]) = offersIn round ++ m.offer?.toList := by
  rw [offersIn, List.filterMap_append, offersIn]
  cases h : m.offer? <;> simp [h]

theorem offersIn_eq_nil (round : List Moment) :
    offersIn round = [] ↔ round.any (·.offers) = false := by
  simp [offersIn, ← Moment.isSome_offer?]

/-- How many rounds have something offered in them. -/
def busy (rounds : List (List Moment)) : Nat := rounds.countP fun round => round.any (·.offers)

theorem busy_concat (rounds : List (List Moment)) (round : List Moment) :
    busy (rounds ++ [round]) = busy rounds + if round.any (·.offers) then 1 else 0 := by
  rw [busy, List.countP_append, List.countP_singleton]
  rfl

theorem offers_of_endsRound {m : Moment} (h : m.endsRound = true) : m.offers = false := by
  obtain ⟨op, s⟩ := m
  cases op with
  | add => cases h
  | _ => rfl

/-- The first failure that is offered in a round makes it count. -/
theorem busy_enter (r : Rounds) (m : Moment) :
    busy (r.enter m).all = busy r.all + if m.offers ∧ offersIn r.current = [] then 1 else 0 := by
  have hany : (r.current ++ [m]).any (·.offers) = (r.current.any (·.offers) || m.offers) := by
    simp
  simp only [offersIn_eq_nil]
  unfold Rounds.enter Rounds.all
  cases hends : m.endsRound with
  | true =>
    rw [if_pos rfl, busy_concat, busy_concat, busy_concat, hany, offers_of_endsRound hends]
    simp
  | false =>
    rw [if_neg Bool.false_ne_true, busy_concat, busy_concat, hany]
    cases r.current.any (·.offers) <;> cases m.offers <;> simp

/-! ### What a round holds -/

/-- Whatever changes beside the collector leaves what it holds as it is. -/
def Rule.sparing : Rule where
  allows s heap := ∀ p x, s.focus.primary = some p → s.heap.get? p = some x →
    heap.get? p = some x
  ofError s e p x _ hx := s.heap.extends_ofError e p x hx

/-- If the supplier is asked at a moment, it answers. -/
def Moment.Answered (m : Moment) : Prop :=
  ∀ offer ∈ m.offer?, m.before.focus.primary = none →
    ∀ supplier ∈ m.before.focus.supplier, (supplier.answer supplier.calls).Answers offer.2

instance (m : Moment) : Decidable m.Answered :=
  inferInstanceAs (Decidable (∀ offer ∈ m.offer?, m.before.focus.primary = none →
    ∀ supplier ∈ m.before.focus.supplier, (supplier.answer supplier.calls).Answers offer.2))

/-- What a collector holds in the last of the rounds `r`, with a supplier that had been
asked `supplier.calls` times before the first of them. The heap `k` is the one in which
the supplier gave the root. -/
structure HoldsRoot (supplier : Supplier) (limit : Nat) (r : Rounds) (s : Scene Collector) :
    Prop where
  empty : offersIn r.current = [] → s.focus.primary = none
  root : ∀ f h later, offersIn r.current = (f, h) :: later →
    let answer := supplier.answer (supplier.calls + busy r.past)
    let limited := h.limit limit f
    ∃ root k, answer.rootIn limited.2 = .ok (root, k) ∧
      (∀ given, answer = .root given → root = given) ∧
      (answer = .nothing → h.size ≤ root ∧ s.heap.kind root = .missingRoot) ∧
      s.focus.primary = some root ∧
      s.heap.suppressed root = k.suppressed root ++
        (if limited.1 = root then [] else [limited.1]) ++
          standIns root limit (later.take (limit - 1))

/-- A collector with a supplier, after the rounds `r`. -/
structure Rooted (supplier : Supplier) (limit : Nat) (r : Rounds) (s : Scene Collector) :
    Prop where
  limit_eq : s.focus.limit = limit
  supplier_eq : s.focus.supplier = some { supplier with calls := supplier.calls + busy r.all }
  empty : s.focus.closed = false → offersIn r.current = [] →
    s.focus.primary = none ∧ s.focus.observed = 0
  opened : s.focus.closed = false → ∀ f h later, offersIn r.current = (f, h) :: later →
    ∃ root k x,
      (supplier.answer (supplier.calls + busy r.past)).rootIn (h.limit limit f).2 = .ok (root, k) ∧
        k.get? root = some x ∧
        Opened root { x with suppressed := x.suppressed ++
          if (h.limit limit f).1 = root then [] else [(h.limit limit f).1] } later s

/-- The first failure that is offered in a round of a collector with a supplier. -/
theorem add_first {s : Scene Collector} (hc : s.focus.closed = false)
    (hp : s.focus.primary = none) (ho : s.focus.observed = 0) {supplier : Supplier}
    (hs : s.focus.supplier = some supplier) {f root : FailureId} {k : Heap}
    (hr : (supplier.answer supplier.calls).rootIn (s.heap.limit s.focus.limit f).2 = .ok (root, k))
    (hroot : root < k.size) :
    ∃ t x, (add f).run s = .ok () t ∧ t.focus.limit = s.focus.limit ∧
      t.focus.supplier = some supplier.called ∧ k.get? root = some x ∧
      Opened root { x with suppressed := x.suppressed ++
        if (s.heap.limit s.focus.limit f).1 = root then []
        else [(s.heap.limit s.focus.limit f).1] } [] t := by
  have hpos := s.focus.limit_pos
  generalize hrun : (add f).run s = r
  have ha : Added f s r := hrun ▸ added f s
  cases ha with
  | supplied _ _ _ supplier' hs' limited hl root' heap hr' =>
    obtain rfl : supplier = supplier' := Option.some.inj (hs.symm.trans hs')
    subst hl
    obtain ⟨rfl, rfl⟩ := Prod.mk.inj (Except.ok.inj (hr.symm.trans hr'))
    obtain ⟨x, hx⟩ := Heap.exists_get? hroot
    refine ⟨_, x, rfl, rfl, rfl, hx, .start hc rfl (by simp [counted, ho]) ?_⟩
    simp only [Heap.get?_attach, hx, Option.map_some, true_and]
    by_cases hself : (s.heap.limit s.focus.limit f).1 = root
    · simp [hself]
    · simp [hself, Ne.symm hself]
  | unsupplied _ _ _ supplier' hs' message hr' =>
    obtain rfl : supplier = supplier' := Option.some.inj (hs.symm.trans hs')
    rw [hr] at hr'
    cases hr'
  | dropped _ ho' =>
    rw [ho] at ho'
    omega
  | rejected hc' => simp [hc] at hc'
  | again _ _ hp' => simp [hp] at hp'
  | attached _ _ p hp' => simp [hp] at hp'
  | recorded _ _ _ hs' => simp [hs] at hs'

namespace Rooted

variable {supplier : Supplier} {limit : Nat} {r : Rounds} {s : Scene Collector} {m : Moment}

theorem start (hs : s.focus.StartsRound) (hsup : s.focus.supplier = some supplier) :
    Rooted supplier s.focus.limit {} s where
  limit_eq := rfl
  supplier_eq := hsup
  empty _ _ := ⟨hs.primary, hs.observed⟩
  opened _ f h later heq := by cases heq

/-- Failures may change elsewhere, but for what is held. -/
theorem elsewhere (h : Rooted supplier limit r s) {heap : Heap}
    (ha : Rule.sparing.allows s heap) : Rooted supplier limit r { s with heap } where
  limit_eq := h.limit_eq
  supplier_eq := h.supplier_eq
  empty := h.empty
  opened hc f k later heq :=
    let ⟨root, k, x, hr, hx, ho⟩ := h.opened hc f k later heq
    ⟨root, k, x, hr, hx, ho.of_get? rfl fun y hy => ha root y ho.primary hy⟩

/-- A moment at which nothing is offered and no round ends changes nothing of the round,
unless it closes the collector. -/
theorem idle (h : Rooted supplier limit r m.before) (hoffers : m.offers = false)
    (hends : m.endsRound = false) (hlimit : m.after.focus.limit = m.before.focus.limit)
    (hsupplier : m.after.focus.supplier = m.before.focus.supplier)
    (hsame : m.after.focus.closed = false →
      m.after.focus = m.before.focus ∧ m.after.heap = m.before.heap) :
    Rooted supplier limit (r.enter m) m.after := by
  have hnone : m.offer? = none := by
    rw [← Option.not_isSome_iff_eq_none, Moment.isSome_offer?, hoffers]
    exact Bool.false_ne_true
  have hbusy := busy_enter r m
  rw [hoffers, if_neg fun hm => Bool.false_ne_true hm.1, Nat.add_zero] at hbusy
  have henter : r.enter m = { r with current := r.current ++ [m] } := by
    simp [Rounds.enter, hends]
  have hcurrent : offersIn (r.enter m).current = offersIn r.current := by
    simp [henter, offersIn_concat, hnone]
  refine ⟨hlimit.trans h.limit_eq, ?_, fun hc heq => ?_, fun hc f k later heq => ?_⟩
  · rw [hsupplier, h.supplier_eq, hbusy]
  · obtain ⟨hfocus, -⟩ := hsame hc
    rw [hcurrent] at heq
    rw [hfocus] at hc ⊢
    exact h.empty hc heq
  · obtain ⟨hfocus, hheap⟩ := hsame hc
    rw [hcurrent] at heq
    rw [hfocus] at hc
    obtain ⟨root, k, x, hr, hx, ho⟩ := h.opened hc f k later heq
    refine ⟨root, k, x, ?_, hx, ho.of_get? hfocus fun y hy => ?_⟩
    · rw [henter]
      exact hr
    · rw [hheap]
      exact hy

/-- A drain starts a round. -/
theorem drain (h : Rooted supplier limit r m.before) (hends : m.endsRound = true) :
    Rooted supplier limit (r.enter m) m.after := by
  have hbusy := busy_enter r m
  rw [offers_of_endsRound hends, if_neg fun hm => Bool.false_ne_true hm.1, Nat.add_zero] at hbusy
  have hcurrent : offersIn (r.enter m).current = [] := by simp [Rounds.enter, hends, offersIn]
  obtain ⟨op, s⟩ := m
  have hdrains : op.Drains ∧ s.focus.closed = false ∧ (op.drained s.focus).closed = false := by
    cases op <;> simp_all [Moment.endsRound, Operation.Drains, Operation.drained]
  obtain ⟨hd, hc, hopen⟩ := hdrains
  have hstarts := op.startsRound_drained hopen
  obtain ⟨-, hafter, -⟩ := Operation.run_of_open hd hc
  refine ⟨?_, ?_, fun _ _ => ?_, fun _ f k later heq => ?_⟩
  · rw [hafter, Operation.drained_limit]
    exact h.limit_eq
  · rw [hafter, Operation.drained_supplier, hbusy]
    exact h.supplier_eq
  · rw [hafter]
    exact ⟨hstarts.primary, hstarts.observed⟩
  · rw [hcurrent] at heq
    cases heq

/-- One more failure is offered: the supplier is asked if it is the first one of the
round. -/
theorem add (h : Rooted supplier limit r s) (hc : s.focus.closed = false)
    {offer : Heap → FailureId × Heap} (ha : (⟨.add offer, s⟩ : Moment).Abides .sparing)
    (hanswered : (⟨.add offer, s⟩ : Moment).Answered) :
    Rooted supplier limit (r.enter ⟨.add offer, s⟩) (⟨.add offer, s⟩ : Moment).after := by
  have hoffer : (⟨.add offer, s⟩ : Moment).offer? = some (offer s.heap) := by
    simp [Moment.offer?, hc]
  have hoffers : (⟨.add offer, s⟩ : Moment).offers = true := by
    rw [← Moment.isSome_offer?, hoffer]
    rfl
  have hbusy := busy_enter r ⟨.add offer, s⟩
  have hcurrent : offersIn (r.enter ⟨.add offer, s⟩).current =
      offersIn r.current ++ [offer s.heap] := by
    show offersIn (r.current ++ [_]) = _
    rw [offersIn_concat, hoffer]
    rfl
  have hmade := h.elsewhere (ha offer rfl)
  rw [after_add]
  cases hround : offersIn r.current with
  | nil =>
    -- the supplier is asked
    have hpast : busy r.all = busy r.past := by
      rw [Rounds.all, busy_concat, (offersIn_eq_nil _).mp hround]
      rfl
    rw [hround, if_pos ⟨hoffers, rfl⟩] at hbusy
    obtain ⟨hp, ho⟩ := hmade.empty hc hround
    have hsupplier := hmade.supplier_eq
    rw [hpast] at hsupplier
    obtain ⟨root, k, hr, hroot⟩ := Supply.Answers.exists_rootIn
      (Heap.extends_limit (offer s.heap).2 limit (offer s.heap).1).size_le
      (hanswered _ hoffer hp _ hsupplier)
    obtain ⟨t, x, ht, hlimit, hcalled, hx, hopened⟩ :=
      add_first (s := { s with heap := (offer s.heap).2 }) hc hp ho hsupplier
        (by rw [hmade.limit_eq]; exact hr) hroot
    rw [hmade.limit_eq] at hlimit hopened
    rw [Act.after_of_ok ht]
    refine ⟨hlimit, ?_, fun _ heq => ?_, fun _ f k' later heq => ?_⟩
    · rw [hcalled, hbusy, hpast]
      rfl
    · rw [hcurrent, hround] at heq
      cases heq
    · rw [hcurrent, hround] at heq
      obtain ⟨hpair, rfl⟩ := List.cons.inj heq
      obtain rfl : (offer s.heap).1 = f := congrArg Prod.fst hpair
      obtain rfl : (offer s.heap).2 = k' := congrArg Prod.snd hpair
      exact ⟨root, k, x, hr, hx, hopened⟩
  | cons first later =>
    -- the root is there
    have hbegun : offersIn r.current ≠ [] := by simp [hround]
    rw [if_neg fun hm => hbegun hm.2, Nat.add_zero] at hbusy
    obtain ⟨root, k, x, hr, hx, ho⟩ := hmade.opened hc first.1 first.2 later hround
    obtain ⟨t, ht, ⟨dropped, hfocus⟩, -, ho'⟩ := ho.add (offer s.heap).1
    rw [Act.after_of_ok ht]
    refine ⟨?_, ?_, fun _ heq => ?_, fun _ f k' later' heq => ?_⟩
    · rw [hfocus]
      exact hmade.limit_eq
    · rw [hfocus, hbusy]
      exact hmade.supplier_eq
    · rw [hcurrent, hround] at heq
      cases heq
    · rw [hcurrent, hround] at heq
      obtain ⟨rfl, rfl⟩ := List.cons.inj heq
      exact ⟨root, k, x, hr, hx, ho'⟩

/-- What a drain does. -/
theorem drains (h : Rooted supplier limit r m.before) (hd : m.operation.Drains) :
    Rooted supplier limit (r.enter m) m.after := by
  cases hends : m.endsRound with
  | true => exact h.drain hends
  | false =>
    obtain ⟨op, s⟩ := m
    have hoffers : (⟨op, s⟩ : Moment).offers = false := by
      cases op with
      | add => cases hd
      | _ => rfl
    cases hc : s.focus.closed with
    | true =>
      have hafter : (⟨op, s⟩ : Moment).after = s := (Operation.after_of_closed hd hc).1
      refine h.idle hoffers hends ?_ ?_ fun _ => ?_ <;> rw [hafter]
      exact ⟨rfl, rfl⟩
    | false =>
      -- only a close ends no round
      obtain ⟨-, hafter, -⟩ := Operation.run_of_open hd hc
      have hclosed : (op.drained s.focus).closed = true := by
        cases op <;> simp_all [Moment.endsRound, Operation.Drains, Operation.drained]
      refine h.idle hoffers hends ?_ ?_ fun hopen => ?_
      · rw [hafter, Operation.drained_limit]
      · rw [hafter, Operation.drained_supplier]
      · rw [hafter, hclosed] at hopen
        cases hopen

/-- **What a moment does to a round.** -/
theorem step (h : Rooted supplier limit r m.before) (ha : m.Abides .sparing)
    (hanswered : m.Answered) :
    Rooted supplier limit (r.enter m) m.after := by
  obtain ⟨op, s⟩ := m
  cases op with
  | add offer =>
    cases hc : s.focus.closed with
    | false => exact h.add hc ha hanswered
    | true =>
      have hoffers : (⟨.add offer, s⟩ : Moment).offers = false := by
        simp [Moment.offers, hc]
      obtain ⟨heap, hrejects⟩ := rejects_of_closed hc offer
      have hafter : (⟨.add offer, s⟩ : Moment).after = { s with heap, focus := s.focus.counted } :=
        Act.after_of_error hrejects.run
      refine h.idle hoffers rfl ?_ ?_ fun hopen => ?_
      · rw [hafter]
        rfl
      · rw [hafter]
        rfl
      · rw [hafter, show s.focus.counted.closed = true from hc] at hopen
        cases hopen
  | peek => exact h.idle rfl rfl rfl rfl fun _ => ⟨rfl, rfl⟩
  | panicKeeping =>
    have hafter : (⟨.panicKeeping, s⟩ : Moment).after.focus = s.focus ∧
        (⟨.panicKeeping, s⟩ : Moment).after.heap = s.heap := by
      rw [after_panicKeeping]
      cases s.focus.primary <;> exact ⟨rfl, rfl⟩
    exact h.idle rfl rfl (by rw [hafter.1]) (by rw [hafter.1]) fun _ => hafter
  | take => exact h.drains trivial
  | takeAsError => exact h.drains trivial
  | takeAndPanic => exact h.drains trivial
  | close => exact h.drains trivial

theorem timesAsked (h : Rooted supplier limit r s) :
    s.focus.timesAsked = supplier.calls + busy r.all := by
  rw [Collector.timesAsked, h.supplier_eq]

/-- **What a round holds while the collector is open.** -/
theorem holdsRoot (h : Rooted supplier limit r s) (hc : s.focus.closed = false) :
    HoldsRoot supplier limit r s := by
  refine ⟨fun hnil => (h.empty hc hnil).1, fun f k later heq => ?_⟩
  obtain ⟨root, k, x, hr, hx, ho⟩ := h.opened hc f k later heq
  refine ⟨root, k, hr, fun given hgiven => ?_, fun hnothing => ?_, ho.primary, ?_⟩
  · rw [hgiven] at hr
    cases hr
    rfl
  · rw [hnothing] at hr
    obtain ⟨rfl, hnew⟩ := Supply.rootIn_nothing hr
    obtain rfl := Option.some.inj (hx.symm.trans hnew)
    refine ⟨(Heap.extends_limit _ _ _).size_le, ?_⟩
    rw [Heap.kind, ho.get?]
    rfl
  · have hsuppressed := ho.suppressed
    rw [h.limit_eq] at hsuppressed
    rw [hsuppressed, Heap.suppressed_of_get? hx]

end Rooted

/-- **A supplier is asked once per round.** In a run from the start of a round of a
collector with a supplier, let nothing beside the collector change what it holds, and
let the supplier answer whenever it is asked. At every moment it is asked just if a
failure is offered that is the first one of its round, so in all it is asked as often
as there are rounds with something offered in them. From that moment on, before and
after every other and at the end, the collector holds the root while it is open: the
one that was given, or a new one if there was none to give. What the root suppressed
then is followed by what stands for the first failure, unless that is the root itself,
and by what stands for those of the further ones within the limit that are not the
root. -/
theorem asked_once_per_round (s : Scene Collector) (hs : s.focus.StartsRound)
    (supplier : Supplier) (hsupplier : s.focus.supplier = some supplier) (uses : List Use)
    (habides : RunAbides .sparing uses s) (hanswered : ∀ m ∈ momentsOf uses s, m.Answered) :
    let limit := s.focus.limit
    let t := (playAll uses).after s
    let ms := momentsOf uses s
    (∀ before m after, ms = before ++ m :: after →
      let r := roundsOf before
      m.after.focus.timesAsked = m.before.focus.timesAsked +
        (if m.offers ∧ offersIn r.current = [] then 1 else 0) ∧
      (m.before.focus.closed = false → HoldsRoot supplier limit r m.before) ∧
      (m.after.focus.closed = false → HoldsRoot supplier limit (r.enter m) m.after)) ∧
    t.focus.timesAsked = supplier.calls + busy (roundsOf ms).all ∧
    (t.focus.closed = false → HoldsRoot supplier limit (roundsOf ms) t) := by
  intro limit t ms
  have hf : Follows .sparing s ms t := follows_playAll uses s habides
  have hrun : ∀ {ns u}, Follows .sparing s ns u → (∀ m ∈ ns, m.Answered) →
      Rooted supplier limit (roundsOf ns) u := fun hns hanswered =>
    hns.fold (P := Rooted supplier limit) (fun _ _ _ ha h => h.elsewhere ha)
      (fun _ m hm ha h => h.step ha (hanswered m hm)) (.start hs hsupplier)
  refine ⟨?_, (hrun hf hanswered).timesAsked, (hrun hf hanswered).holdsRoot⟩
  intro before m after hsplit r
  have hanswered : ∀ m' ∈ before ++ m :: after, m'.Answered := hsplit ▸ hanswered
  rw [hsplit] at hf
  obtain ⟨hbefore, ha, -⟩ := hf.split
  have hr : Rooted supplier limit r m.before :=
    hrun hbefore fun m' hm' => hanswered m' (List.mem_append_left _ hm')
  have hafter : Rooted supplier limit (r.enter m) m.after :=
    hr.step ha (hanswered m (List.mem_append_right _ (List.mem_cons_self ..)))
  refine ⟨?_, hr.holdsRoot, hafter.holdsRoot⟩
  rw [hafter.timesAsked, hr.timesAsked, busy_enter, Nat.add_assoc]

/-- A supplier that has no root at first and gives the same one after that. -/
def hesitant : Supplier where
  answer n := if n = 0 then .nothing else .root 1

/-- A collector that keeps two failures, with the failures of `tangled`, of which its
supplier gives one. -/
def provided : Scene Collector where
  heap := tangled.heap
  focus := (withSupplier hesitant.answer).withLimit 2

/-- Two rounds. In the second the root is added as well, and one failure too many. -/
def twoRoots : List Use :=
  [.closeSuppressing (some (.mk [] (.ok (.error (.message "d"))))), .operation .take,
    .operation (.add fun h => (0, h)), .operation (.add fun h => (1, h)),
    .operation (.add fun h => (2, h)), .operation .peek]

/-- The root that is given in the second round keeps what it suppressed before, and what
stands for the wide failure is attached to it. -/
theorem asked_once_twoRoots :
    provided.focus.StartsRound ∧ RunAbides .sparing twoRoots provided ∧
      (∀ m ∈ momentsOf twoRoots provided, m.Answered) ∧
      ((playAll twoRoots).after provided).focus.timesAsked = 2 ∧
      ((playAll twoRoots).after provided).focus.primary = some 1 ∧
      ((playAll twoRoots).after provided).heap.suppressed 1 = [0, 5] := by
  have hs : provided.focus.StartsRound := (startsRound_withSupplier _).withLimit 2
  have habides : RunAbides .sparing twoRoots provided := by
    refine ⟨fun _ => trivial, trivial, ?_, ?_, ?_, trivial, trivial⟩ <;> exact fun _ _ _ hx => hx
  have hanswered : ∀ m ∈ momentsOf twoRoots provided, m.Answered := by decide +kernel
  obtain ⟨-, hasked, hheld⟩ :=
    asked_once_per_round provided hs hesitant rfl twoRoots habides hanswered
  have hround : offersIn (roundsOf (momentsOf twoRoots provided)).current ≠ [] := by
    decide +kernel
  obtain ⟨root, k, hr, hgiven, -, hp, hsuppressed⟩ :=
    (hheld (by decide +kernel)).root _ _ _ (List.cons_head_tail hround).symm
  have hanswer : hesitant.answer
      (hesitant.calls + busy (roundsOf (momentsOf twoRoots provided)).past) = .root 1 := by
    decide +kernel
  obtain rfl : root = 1 := hgiven 1 hanswer
  rw [hanswer] at hr
  cases hr
  exact ⟨hs, habides, hanswered, hasked.trans (by decide +kernel), hp,
    hsuppressed.trans (by decide +kernel)⟩

end Collector
end Teardown
