/-
# What the counters and the log say of a run

A collector has two counters. One counts what is offered in a round, and a drain
sets it back; the other counts what is dropped over the limit, and nothing sets
it back. The one is advanced before it is known what becomes of a failure, the
other once it is dropped. Each moment accounts for itself
(`Collector.Moment.accounts`): what it counts as dropped is what it tells the log.
So the log of a run holds one event for each failure that was dropped, the first of
a round told apart from the others, and one for each primary failure
(`Collector.counted_in_full`).

Key definitions: `Event.says`, `Collector.Moment.told`, `Collector.Moment.Accounts`,
`Collector.Rounds`, `Collector.roundsOf`, `Collector.Numbered`, `Collector.Booked`.
Key theorems: `Collector.Moment.accounts`, `Collector.Linked.dropped_eq`,
`Collector.Booked.step`, `Collector.counted_in_full`.
-/
import Teardown.Proofs.Collector.Closing

namespace Teardown

/-- Whether an event has that level and that message. -/
def Event.says (level : Level) (message : String) (event : Event) : Bool :=
  event.level = level && event.message = message

namespace Collector

/-- Tells that a round has come to its limit. -/
def tellsLimit : Event → Bool :=
  Event.says .debug "suppressed failure limit reached, dropping further failures"

/-- Tells of a failure that is dropped after that. -/
def tellsOver : Event → Bool := Event.says .trace "dropping failure over limit"

/-- Tells of a primary failure. -/
def tellsPrimary (event : Event) : Bool :=
  event.says .trace "primary failure recorded" || event.says .trace "root failure supplied"

/-! ### Rounds -/

/-- Whether a failure is added, and the collector is open. -/
def Moment.offers (m : Moment) : Bool := m.operation.adds && !m.before.focus.closed

/-- Whether a drain ends the round, so that another begins. After a close none does. -/
def Moment.endsRound (m : Moment) : Bool :=
  match m.operation with
  | .take | .takeAsError | .takeAndPanic => !m.before.focus.closed
  | _ => false

/-- The moments of a run by rounds, each with the drain that ends it. -/
structure Rounds where
  past : List (List Moment) := []
  current : List Moment := []

namespace Rounds

def all (r : Rounds) : List (List Moment) := r.past ++ [r.current]

/-- One more moment. -/
def enter (r : Rounds) (m : Moment) : Rounds :=
  if m.endsRound then { past := r.past ++ [r.current ++ [m]] }
  else { r with current := r.current ++ [m] }

end Rounds

/-- The rounds of a run. -/
def roundsOf (ms : List Moment) : Rounds := ms.foldl Rounds.enter {}

/-- How many failures were offered over the limit. -/
def overBy (limit : Nat) (round : List Moment) : Nat := round.countP (·.offers) - limit

/-- How many failures were offered over the limit in all of the rounds. -/
def overByAll (limit : Nat) : List (List Moment) → Nat
  | [] => 0
  | round :: rounds => overBy limit round + overByAll limit rounds

theorem overByAll_concat (limit : Nat) (round : List Moment) : ∀ rounds : List (List Moment),
    overByAll limit (rounds ++ [round]) = overByAll limit rounds + overBy limit round
  | [] => Nat.add_comm _ _
  | first :: rounds => by
    show overBy limit first + overByAll limit (rounds ++ [round]) =
      overBy limit first + overByAll limit rounds + overBy limit round
    rw [overByAll_concat limit round rounds, Nat.add_assoc]

/-! ### What a moment tells -/

/-- What a moment tells the log. -/
def Moment.told (m : Moment) : List Event := m.after.log.toList.drop m.before.log.size

/-- Events that tell of failures dropped over the limit have their numbers among
all that were dropped, of which there were `n` before. -/
def Numbered (n : Nat) (events : List Event) : Prop :=
  ∀ before event after, events = before ++ event :: after → tellsOver event →
    ("dropped", .nat (n + before.countP tellsLimit + before.countP tellsOver + 1)) ∈ event.fields

/-- How a moment that tells of `events` accounts for itself. -/
structure Moment.Accounts (m : Moment) (events : List Event) : Prop where
  log : m.after.log.toList = m.before.log.toList ++ events
  limit : m.after.focus.limit = m.before.focus.limit
  closed : m.after.focus.closed = false → m.before.focus.closed = false
  observed : m.after.focus.observed =
    if m.endsRound then 0 else m.before.focus.observed + if m.operation.adds then 1 else 0
  beyond : m.after.focus.dropped = m.before.focus.dropped +
    if m.offers ∧ m.before.focus.limit ≤ m.before.focus.observed then 1 else 0
  reached : events.countP tellsLimit =
    if m.offers ∧ m.before.focus.observed = m.before.focus.limit then 1 else 0
  dropped : m.after.focus.dropped =
    m.before.focus.dropped + events.countP tellsLimit + events.countP tellsOver
  numbered : Numbered m.before.focus.dropped events
  installed : events.countP tellsPrimary = m.installed.toList.length

theorem numbered_nil (n : Nat) : Numbered n [] := by
  intro before event after h
  simp at h

theorem numbered_singleton {n : Nat} {event : Event}
    (h : tellsOver event → ("dropped", .nat (n + 1)) ∈ event.fields) : Numbered n [event] := by
  intro before event' after he hover
  obtain ⟨rfl, rfl, rfl⟩ : before = [] ∧ event' = event ∧ after = [] := by
    cases before <;> simp_all
  exact h hover

/-- An event that tells of nothing that is counted as dropped. -/
def Quiet (event : Event) : Prop := tellsLimit event = false ∧ tellsOver event = false

theorem countP_tells_of_quiet {events : List Event} (h : ∀ event ∈ events, Quiet event) :
    events.countP tellsLimit = 0 ∧ events.countP tellsOver = 0 :=
  ⟨List.countP_eq_zero.mpr fun event he => by simp [(h event he).1],
    List.countP_eq_zero.mpr fun event he => by simp [(h event he).2]⟩

/-- A moment at which no failure is dropped over the limit. -/
theorem Moment.accounts_of_quiet {m : Moment} {events : List Event}
    (hlog : m.after.log.toList = m.before.log.toList ++ events)
    (hlimit : m.after.focus.limit = m.before.focus.limit)
    (hclosed : m.after.focus.closed = false → m.before.focus.closed = false)
    (hobserved : m.after.focus.observed =
      if m.endsRound then 0 else m.before.focus.observed + if m.operation.adds then 1 else 0)
    (hdropped : m.after.focus.dropped = m.before.focus.dropped)
    (hwithin : m.offers → m.before.focus.observed < m.before.focus.limit)
    (hquiet : ∀ event ∈ events, Quiet event)
    (hinstalled : events.countP tellsPrimary = m.installed.toList.length) :
    m.Accounts events := by
  obtain ⟨hreached, hover⟩ := countP_tells_of_quiet hquiet
  refine ⟨hlog, hlimit, hclosed, hobserved, ?_, ?_, ?_, ?_, hinstalled⟩
  · rw [if_neg fun h => Nat.not_le_of_lt (hwithin h.1) h.2, hdropped, Nat.add_zero]
  · rw [if_neg fun h => Nat.ne_of_lt (hwithin h.1) h.2, hreached]
  · rw [hdropped, hreached, hover]
    rfl
  · intro before event after he htells
    have hmem : event ∈ events := he ▸ List.mem_append_right _ (List.mem_cons_self ..)
    rw [(hquiet event hmem).2] at htells
    cases htells

section

variable {offer : Heap → FailureId × Heap} {s t : Scene Collector} {events : List Event}

/-- An addition that drops nothing over the limit. -/
theorem Moment.accounts_of_kept {primary : Option FailureId} {supplier : Option Supplier}
    (hafter : (⟨.add offer, s⟩ : Moment).after = t)
    (hlog : t.log.toList = s.log.toList ++ events)
    (hfocus : t.focus = { s.focus.counted with primary, supplier })
    (hwithin : s.focus.closed = false → s.focus.observed < s.focus.limit)
    (hquiet : ∀ event ∈ events, Quiet event)
    (htold : events.countP tellsPrimary =
      if s.focus.primary.isNone then primary.toList.length else 0) :
    (⟨.add offer, s⟩ : Moment).Accounts events := by
  subst hafter
  refine accounts_of_quiet hlog ?_ ?_ ?_ ?_ ?_ hquiet ?_
  · rw [hfocus]
    rfl
  · rw [hfocus]
    exact id
  · rw [hfocus]
    rfl
  · rw [hfocus]
    rfl
  · intro h
    exact hwithin (by simpa [Moment.offers, Operation.adds] using h)
  · rw [htold]
    simp only [Moment.installed, hfocus]
    split <;> rfl

/-- An addition that drops a failure over the limit. -/
theorem Moment.accounts_of_dropped {event : Event} {message : String}
    (hafter : (⟨.add offer, s⟩ : Moment).after = t) (hlog : t.log = s.log.push event)
    (hevent : event = if s.focus.observed = s.focus.limit then .limitReached s.focus.limit
      else .overLimit (s.focus.dropped + 1) message)
    (hfocus : t.focus = { s.focus.counted with dropped := s.focus.dropped + 1 })
    (hc : s.focus.closed = false) (ho : s.focus.limit ≤ s.focus.observed) :
    (⟨.add offer, s⟩ : Moment).Accounts [event] := by
  subst hafter
  have hoffers : (⟨.add offer, s⟩ : Moment).offers = true := by
    simp [Moment.offers, Operation.adds, hc]
  have hinstalled : (⟨.add offer, s⟩ : Moment).installed = none := by
    simp only [Moment.installed, hfocus]
    cases hp : s.focus.primary <;> simp [counted, hp]
  have hover : (⟨.add offer, s⟩ : Moment).after.focus.dropped = s.focus.dropped + 1 := by
    rw [hfocus]
  refine ⟨?_, ?_, ?_, ?_, ?_, ?_, ?_, ?_, ?_⟩
  · rw [hlog, Array.toList_push]
  · rw [hfocus]
    rfl
  · rw [hfocus]
    exact id
  · rw [hfocus]
    rfl
  · rw [hover, if_pos ⟨hoffers, ho⟩]
  · rw [hevent]
    split <;> rename_i hfirst
    · rw [if_pos ⟨hoffers, hfirst⟩]
      rfl
    · rw [if_neg fun h => hfirst h.2]
      rfl
  · rw [hover, hevent]
    split <;> rfl
  · refine numbered_singleton fun htells => ?_
    rw [hevent] at htells ⊢
    split at htells <;> rename_i hfirst
    · cases htells
    · rw [if_neg hfirst]
      exact List.mem_cons_self ..
  · rw [hinstalled, hevent]
    split <;> rfl

end

theorem Moment.accounts_add (offer : Heap → FailureId × Heap) (s : Scene Collector) :
    ∃ events, (⟨.add offer, s⟩ : Moment).Accounts events := by
  have hafter := after_add offer s
  have hadd := added (offer s.heap).1 { s with heap := (offer s.heap).2 }
  unfold Act.after at hafter
  generalize (Collector.add (offer s.heap).1).run { s with heap := (offer s.heap).2 } = r
    at hadd hafter
  have hlogged : ∀ event, (s.log.push event).toList = s.log.toList ++ [event] :=
    fun event => Array.toList_push
  have hsilent : s.log.toList = s.log.toList ++ [] := (List.append_nil _).symm
  have hsame : 0 = if s.focus.primary.isNone then s.focus.primary.toList.length else 0 := by
    cases s.focus.primary <;> rfl
  have hfirst : ∀ p : FailureId, s.focus.primary = none →
      1 = if s.focus.primary.isNone then (some p).toList.length else 0 := by
    intro p hp
    rw [hp]
    rfl
  cases hadd with
  | rejected hc heap hh =>
    have hc : s.focus.closed = true := hc
    refine ⟨[], accounts_of_kept hafter hsilent rfl (fun h => ?_) (by simp) hsame⟩
    rw [hc] at h
    cases h
  | dropped hc ho => exact ⟨_, accounts_of_dropped hafter rfl rfl rfl hc ho⟩
  | again hc ho hp =>
    exact ⟨[], accounts_of_kept hafter hsilent rfl (fun _ => ho) (by simp) hsame⟩
  | attached hc ho primary hp hne limited hl =>
    refine ⟨_, accounts_of_kept hafter (hlogged _) rfl (fun _ => ho) ?_ hsame⟩
    exact fun event he => List.mem_singleton.mp he ▸ ⟨rfl, rfl⟩
  | recorded hc ho hp hs limited hl =>
    refine ⟨_, accounts_of_kept hafter (hlogged _) rfl (fun _ => ho) ?_ (hfirst _ hp)⟩
    exact fun event he => List.mem_singleton.mp he ▸ ⟨rfl, rfl⟩
  | supplied hc ho hp supplier hs limited hl root heap hr =>
    refine ⟨_, accounts_of_kept hafter (hlogged _) rfl (fun _ => ho) ?_ (hfirst _ hp)⟩
    exact fun event he => List.mem_singleton.mp he ▸ ⟨rfl, rfl⟩
  | unsupplied hc ho hp supplier hs message hr =>
    exact ⟨[], accounts_of_kept hafter hsilent rfl (fun _ => ho) (by simp) hsame⟩

/-- An operation that adds nothing tells of nothing that is counted. -/
theorem Moment.accounts_of_not_adds {m : Moment} {events : List Event}
    (hadds : m.operation.adds = false)
    (hlog : m.after.log.toList = m.before.log.toList ++ events)
    (hquiet : ∀ event ∈ events, Quiet event ∧ tellsPrimary event = false)
    (hlimit : m.after.focus.limit = m.before.focus.limit)
    (hclosed : m.after.focus.closed = false → m.before.focus.closed = false)
    (hobserved : m.after.focus.observed = if m.endsRound then 0 else m.before.focus.observed)
    (hdropped : m.after.focus.dropped = m.before.focus.dropped) : m.Accounts events := by
  have hinstalled : m.installed = none := by
    obtain ⟨op, s⟩ := m
    cases op with
    | add => cases hadds
    | _ => rfl
  refine accounts_of_quiet hlog hlimit hclosed ?_ hdropped ?_ (fun event he => (hquiet event he).1)
    ?_
  · rw [hobserved, hadds]
    rfl
  · simp [offers, hadds]
  · rw [hinstalled]
    exact List.countP_eq_zero.mpr fun event he => by simp [(hquiet event he).2]

/-- A drain tells at most that a failure is raised. -/
theorem log_after_drain {op : Operation} (hd : op.Drains) (s : Scene Collector) :
    ∃ events, (⟨op, s⟩ : Moment).after.log.toList = s.log.toList ++ events ∧
      ∀ event ∈ events, Quiet event ∧ tellsPrimary event = false := by
  cases hc : s.focus.closed with
  | true => exact ⟨[], by rw [(Operation.after_of_closed hd hc).1, List.append_nil], by simp⟩
  | false =>
    cases op with
    | take =>
      refine ⟨[], ?_, by simp⟩
      simp [Moment.after, Act.after, Operation.act, run_take, hc, -bind_pure_comp]
    | takeAsError =>
      refine ⟨[], ?_, by simp⟩
      simp [Moment.after, Act.after, Operation.act, run_take, hc, -bind_pure_comp]
    | takeAndPanic =>
      cases hp : s.focus.primary with
      | none =>
        refine ⟨[], ?_, by simp⟩
        simp [Moment.after, Act.after, Operation.act, run_takeAndPanic, hc, hp, -bind_pure_comp]
      | some f =>
        refine ⟨[.raisedAsPanic (s.heap.kind f) (s.heap.render f)], ?_,
          fun event he => List.mem_singleton.mp he ▸ ⟨⟨rfl, rfl⟩, rfl⟩⟩
        simp [Moment.after, Act.after, Operation.act, run_takeAndPanic, hc, hp, -bind_pure_comp]
    | close =>
      cases hp : s.focus.primary with
      | none =>
        refine ⟨[], ?_, by simp⟩
        simp [Moment.after, Act.after, Operation.act, run_close, hc, hp, -bind_pure_comp]
      | some f =>
        refine ⟨[.raisedOnClose (s.heap.message f) (s.heap.suppressed f).length], ?_,
          fun event he => List.mem_singleton.mp he ▸ ⟨⟨rfl, rfl⟩, rfl⟩⟩
        simp [Moment.after, Act.after, Operation.act, run_close, hc, hp, -bind_pure_comp]
    | add | peek | panicKeeping => cases hd

theorem Moment.accounts_drain (op : Operation) (hd : op.Drains) (s : Scene Collector) :
    ∃ events, (⟨op, s⟩ : Moment).Accounts events := by
  obtain ⟨events, hlog, hquiet⟩ := log_after_drain hd s
  have hadds : op.adds = false := by
    cases op with
    | add => cases hd
    | _ => rfl
  refine ⟨events, ?_⟩
  cases hc : s.focus.closed with
  | true =>
    have hafter := (Operation.after_of_closed hd hc).1
    refine accounts_of_not_adds hadds hlog hquiet ?_ ?_ ?_ ?_ <;> rw [hafter]
    · exact id
    · -- a closed collector begins no round
      have hends : (⟨op, s⟩ : Moment).endsRound = false := by
        cases op <;> simp [Moment.endsRound, hc]
      rw [hends]
      rfl
  | false =>
    have hafter := (Operation.run_of_open hd hc).2.1
    refine accounts_of_not_adds hadds hlog hquiet ?_ (fun _ => hc) ?_ ?_ <;> rw [hafter]
    · exact op.drained_limit s.focus
    · cases op <;> simp [Operation.drained, Moment.endsRound, hc] <;> cases hd
    · cases op <;> rfl

/-- Whatever is done accounts for itself. -/
theorem Moment.exists_accounts (m : Moment) : ∃ events, m.Accounts events := by
  obtain ⟨op, s⟩ := m
  cases op with
  | add offer => exact accounts_add offer s
  | take => exact accounts_drain .take trivial s
  | takeAsError => exact accounts_drain .takeAsError trivial s
  | takeAndPanic => exact accounts_drain .takeAndPanic trivial s
  | close => exact accounts_drain .close trivial s
  | peek =>
    exact ⟨[], accounts_of_not_adds rfl (List.append_nil _).symm (by simp) rfl id rfl rfl⟩
  | panicKeeping =>
    have hafter := after_panicKeeping s
    cases hp : s.focus.primary with
    | none =>
      rw [hp] at hafter
      refine ⟨[], accounts_of_not_adds rfl ?_ (by simp) ?_ ?_ ?_ ?_⟩ <;> rw [hafter]
      · exact (List.append_nil _).symm
      · exact id
      · rfl
    | some f =>
      rw [hp] at hafter
      refine ⟨[.raisedAsPanic (s.heap.kind f) (s.heap.render f)],
        accounts_of_not_adds rfl ?_ ?_ ?_ ?_ ?_ ?_⟩
      · rw [hafter, Array.toList_push]
      · exact fun event he => List.mem_singleton.mp he ▸ ⟨⟨rfl, rfl⟩, rfl⟩
      · rw [hafter]
      · rw [hafter]
        exact id
      · rw [hafter]
        rfl
      · rw [hafter]

/-- **What a moment adds to the counters is what it tells.** -/
theorem Moment.accounts (m : Moment) : m.Accounts m.told := by
  obtain ⟨events, h⟩ := m.exists_accounts
  have htold : m.told = events := by
    rw [told, h.log, ← Array.length_toList, List.drop_left]
  rw [htold]
  exact h

/-! ### What a run tells -/

/-- What the moments tell the log, one after the other. -/
def tellings (ms : List Moment) : List Event := ms.flatMap Moment.told

theorem tellings_append (ms ns : List Moment) :
    tellings (ms ++ ns) = tellings ms ++ tellings ns :=
  List.flatMap_append

theorem Numbered.append {n : Nat} {events more : List Event} (h : Numbered n events)
    (hmore : Numbered (n + events.countP tellsLimit + events.countP tellsOver) more) :
    Numbered n (events ++ more) := by
  intro before event after he htells
  rcases List.append_eq_append_iff.mp he with ⟨mid, rfl, hmid⟩ | ⟨mid, hmid, hrest⟩
  · -- the event is among those that come later
    have hnumber := hmore mid event after hmid htells
    have hcount : n + (events ++ mid).countP tellsLimit + (events ++ mid).countP tellsOver =
        n + events.countP tellsLimit + events.countP tellsOver + mid.countP tellsLimit +
          mid.countP tellsOver := by
      rw [List.countP_append, List.countP_append]
      omega
    rw [hcount]
    exact hnumber
  · cases mid with
    | nil =>
      rw [List.append_nil] at hmid
      subst hmid
      exact hmore [] event after hrest.symm htells
    | cons event' mid =>
      cases hrest
      exact h before event mid hmid htells

namespace Linked

variable {c d : Collector × Array Event} {ms : List Moment}

theorem log_eq (h : Linked c ms d) : d.2.toList = c.2.toList ++ tellings ms := by
  induction h with
  | nil => exact (List.append_nil _).symm
  | @cons m ms d rest ih =>
    have hlog : m.after.beside.2.toList = m.before.beside.2.toList ++ m.told := m.accounts.log
    rw [ih, hlog, List.append_assoc]
    rfl

/-- Each failure that is dropped over the limit has been told of. -/
theorem dropped_eq (h : Linked c ms d) : d.1.dropped =
    c.1.dropped + (tellings ms).countP tellsLimit + (tellings ms).countP tellsOver := by
  induction h with
  | nil => rfl
  | @cons m ms d rest ih =>
    have hdropped : m.after.beside.1.dropped = _ := m.accounts.dropped
    rw [ih, hdropped]
    show _ = m.before.focus.dropped + (m.told ++ tellings ms).countP tellsLimit +
      (m.told ++ tellings ms).countP tellsOver
    rw [List.countP_append, List.countP_append]
    omega

theorem numbered (h : Linked c ms d) : Numbered c.1.dropped (tellings ms) := by
  induction h with
  | nil => exact numbered_nil _
  | @cons m ms d rest ih =>
    have hdropped : m.after.beside.1.dropped = _ := m.accounts.dropped
    rw [hdropped] at ih
    exact m.accounts.numbered.append ih

end Linked

/-- Each primary failure is told of. -/
theorem countP_tellsPrimary : ∀ ms : List Moment,
    (tellings ms).countP tellsPrimary = (ms.filterMap Moment.installed).length
  | [] => rfl
  | m :: ms => by
    show (m.told ++ tellings ms).countP tellsPrimary = _
    rw [List.countP_append, m.accounts.installed, countP_tellsPrimary ms]
    cases h : m.installed <;> simp [h, Nat.add_comm]

/-! ### Round by round -/

theorem flatten_all_foldl : ∀ (ms : List Moment) (r : Rounds),
    (ms.foldl Rounds.enter r).all.flatten = r.all.flatten ++ ms
  | [], r => (List.append_nil _).symm
  | m :: ms, r => by
    rw [List.foldl_cons, flatten_all_foldl ms]
    unfold Rounds.enter Rounds.all
    split <;> simp

/-- The rounds of a run are its moments. -/
theorem flatten_roundsOf (ms : List Moment) : (roundsOf ms).all.flatten = ms :=
  flatten_all_foldl ms {}

/-- The counters of a collector are those of its rounds, and each round that has
come to the limit was told of once. -/
structure Booked (limit : Nat) (r : Rounds) (c : Collector) : Prop where
  limit_eq : c.limit = limit
  observed : c.observed = r.current.countP (·.operation.adds)
  offered : c.closed = false → c.observed = r.current.countP (·.offers)
  dropped : c.dropped = overByAll limit r.all
  told : ∀ round ∈ r.all, (tellings round).countP tellsLimit =
    if limit < round.countP (·.offers) then 1 else 0

theorem Booked.start {c : Collector} (hc : c.StartsRound) (hd : c.dropped = 0) :
    Booked c.limit {} c where
  limit_eq := rfl
  observed := hc.observed
  offered _ := hc.observed
  dropped := hd.trans (by simp [Rounds.all, overByAll, overBy])
  told round hr := by
    obtain rfl : round = [] := by simpa [Rounds.all] using hr
    rfl

theorem countP_offers_concat (round : List Moment) (m : Moment) :
    (round ++ [m]).countP (·.offers) = round.countP (·.offers) + if m.offers then 1 else 0 := by
  rw [List.countP_append, List.countP_singleton]

namespace Booked

variable {limit : Nat} {r : Rounds} {m : Moment}

/-- What is offered is numbered by the counter of the round. -/
theorem number (h : Booked limit r m.before.focus) (ho : m.offers) :
    m.before.focus.observed = r.current.countP (·.offers) :=
  h.offered (by simpa using (Bool.and_eq_true_iff.mp ho).2)

theorem dropped_after (h : Booked limit r m.before.focus) :
    m.after.focus.dropped = overByAll limit r.past + overBy limit (r.current ++ [m]) := by
  have hbefore : m.before.focus.dropped = overByAll limit r.past + overBy limit r.current := by
    rw [h.dropped, Rounds.all, overByAll_concat]
  rw [m.accounts.beyond, hbefore, h.limit_eq, overBy, overBy, countP_offers_concat]
  cases ho : m.offers with
  | false => simp
  | true =>
    rw [h.number ho]
    simp only [true_and, if_true]
    split <;> omega

theorem told_after (h : Booked limit r m.before.focus) :
    (tellings (r.current ++ [m])).countP tellsLimit =
      if limit < (r.current ++ [m]).countP (·.offers) then 1 else 0 := by
  have hcurrent : r.current ∈ r.all := List.mem_append_right _ (List.mem_singleton_self _)
  have hone : tellings [m] = m.told := List.flatMap_singleton ..
  rw [tellings_append, List.countP_append, h.told _ hcurrent, hone, m.accounts.reached, h.limit_eq,
    countP_offers_concat]
  cases ho : m.offers with
  | false => simp
  | true =>
    rw [h.number ho]
    simp only [true_and, if_true]
    split <;> split <;> split <;> omega

/-- **What every moment keeps in the books.** -/
theorem step (r : Rounds) (m : Moment) (h : Booked limit r m.before.focus) :
    Booked limit (r.enter m) m.after.focus := by
  have hm := m.accounts
  have hpast : ∀ round ∈ r.past, (tellings round).countP tellsLimit =
      if limit < round.countP (·.offers) then 1 else 0 :=
    fun round hr => h.told round (List.mem_append_left _ hr)
  unfold Rounds.enter
  cases hends : m.endsRound with
  | true =>
    have hobserved : m.after.focus.observed = 0 := by
      rw [hm.observed, hends]
      rfl
    refine ⟨hm.limit.trans h.limit_eq, hobserved, fun _ => hobserved, ?_, ?_⟩
    · rw [h.dropped_after, if_pos rfl, Rounds.all, overByAll_concat, overByAll_concat]
      simp [overBy]
    · simp only [Rounds.all, if_true, List.mem_append, List.mem_singleton]
      rintro round ((hr | rfl) | rfl)
      · exact hpast round hr
      · exact h.told_after
      · rfl
  | false =>
    have hobserved : m.after.focus.observed =
        m.before.focus.observed + if m.operation.adds then 1 else 0 := by
      rw [hm.observed, hends]
      rfl
    refine ⟨hm.limit.trans h.limit_eq, ?_, fun hc => ?_, ?_, ?_⟩
    · rw [hobserved, h.observed, if_neg Bool.false_ne_true, List.countP_append,
        List.countP_singleton]
    · have hopen := hm.closed hc
      have hoffers : m.offers = m.operation.adds := by simp [Moment.offers, hopen]
      rw [hobserved, h.offered hopen, if_neg Bool.false_ne_true, countP_offers_concat, hoffers]
    · rw [h.dropped_after, if_neg Bool.false_ne_true, Rounds.all, overByAll_concat]
    · simp only [Rounds.all, Bool.false_eq_true, if_false, List.mem_append, List.mem_singleton]
      rintro round (hr | rfl)
      · exact hpast round hr
      · exact h.told_after

end Booked

/-- **The counters and the log account for a whole run.** A run of a new collector
goes by in rounds. The number of failures observed is that of the additions since
the last drain, and the number of failures dropped is the sum, over all rounds, of
what was offered in the round before the collector was closed beyond the limit. Of
each round that went beyond the limit the log is told once that the limit was
reached, and of no other. Together with the events that tell of further failures
over the limit these are as many as the failures dropped, and each of the latter
carries its number among them. Each primary failure that is installed is told of
once, and nothing else is told of as one. -/
theorem counted_in_full (s : Scene Collector) (hs : s.focus.StartsRound)
    (hd : s.focus.dropped = 0) (uses : List Use) :
    let t := (playAll uses).after s
    let ms := momentsOf uses s
    let rounds := roundsOf ms
    rounds.all.flatten = ms ∧
      t.focus.stats.observed = rounds.current.countP (·.operation.adds) ∧
      t.focus.stats.dropped = overByAll s.focus.limit rounds.all ∧
      t.log.toList = s.log.toList ++ tellings ms ∧
      (∀ round ∈ rounds.all, (tellings round).countP tellsLimit =
        if s.focus.limit < round.countP (·.offers) then 1 else 0) ∧
      (tellings ms).countP tellsLimit + (tellings ms).countP tellsOver = t.focus.stats.dropped ∧
      Numbered 0 (tellings ms) ∧
      (∀ m ∈ ms, m.told.countP tellsPrimary = m.installed.toList.length) ∧
      (tellings ms).countP tellsPrimary = (ms.filterMap Moment.installed).length := by
  intro t ms rounds
  have hl : Linked s.beside ms t.beside := linked_momentsOf uses s
  have hnone : s.beside.1.dropped = 0 := hd
  have hbooked : Booked s.focus.limit rounds t.focus :=
    hl.fold (P := fun r c => Booked s.focus.limit r c.1) Booked.step (Booked.start hs hd)
  have hdropped := hl.dropped_eq
  have hnumbered := hl.numbered
  rw [hnone] at hnumbered
  rw [hnone, Nat.zero_add] at hdropped
  exact ⟨flatten_roundsOf ms, hbooked.observed, hbooked.dropped, hl.log_eq, hbooked.told,
    hdropped.symm, hnumbered, fun m _ => m.accounts.installed, countP_tellsPrimary ms⟩

/-- A run with a supplier that panics, two rounds that go beyond a limit of one, and
a resource that closes the collector. -/
def twiceOver : List Use :=
  [addNew "a", addNew "b", addNew "c", .operation .take, addNew "d", addNew "e",
    .closeSuppressing (some closer), addNew "f"]

/-- Three of the failures that are observed in the end were offered too late, and
each round was told once that its limit was reached. -/
theorem counted_in_full_twiceOver :
    let s := faltering 1
    let t := (playAll twiceOver).after s
    let ms := momentsOf twiceOver s
    s.focus.StartsRound ∧ s.focus.dropped = 0 ∧
      t.focus.stats.observed = 5 ∧ t.focus.stats.dropped = 3 ∧
      (roundsOf ms).all.map (fun round => (tellings round).countP tellsLimit) = [1, 1] ∧
      (tellings ms).countP tellsOver = 1 ∧ (tellings ms).countP tellsPrimary = 1 := by
  intro s t ms
  have hs : s.focus.StartsRound := (startsRound_withSupplier _).withLimit 1
  obtain ⟨-, hobserved, hdropped, -, htold, htotal, -, -, hprimary⟩ :=
    counted_in_full s hs rfl twiceOver
  have hthree : t.focus.stats.dropped = 3 := hdropped.trans (by decide +kernel)
  have hone : (tellings ms).countP tellsOver = 1 := by
    have hlimits : (tellings ms).countP tellsLimit = 2 := by decide +kernel
    rw [hlimits, hthree] at htotal
    exact Nat.add_left_cancel htotal
  refine ⟨hs, rfl, hobserved.trans ?_, hthree, (List.map_congr_left htold).trans ?_, hone,
    hprimary.trans ?_⟩ <;> decide +kernel

end Collector
end Teardown
