/-
# Taking turns

What a crowd does in one turn, case by case (`Crowd.turned`): a call takes its
number, or keeps its failure, or finds the collector open, or finds it closed and
panics, or counts its failure as dropped; or the collector is closed. What is kept
and dropped in a turn is told by the turn and the scene it is taken in, and so is
what is kept and dropped along many. No turn panics itself, and no call takes more
than three.

Key definitions: `Crowd.keeping`, `Crowd.dropping`, `Crowd.Turned`.
Key theorems: `Crowd.turned`, `Crowd.after_play_induction`, `Crowd.ended_of_three`.
-/
import Teardown.Collector.Crowd
import Teardown.Proofs.Collector.Adding

namespace Teardown

namespace Call

def ended : Call → Bool
  | .returned | .panicked _ => true
  | _ => false

/-- How many turns a call has left at most. -/
def turnsLeft : Call → Nat
  | .due _ => 3
  | .numbered _ _ => 2
  | .over _ _ => 1
  | .returned | .panicked _ => 0

end Call

namespace Crowd

open Collector

/-- The collector of a crowd, in its scene. -/
def alone (s : Scene Crowd) : Scene Collector := ⟨s.heap, s.log, s.focus.collector⟩

/-- The crowd once a call has come as far as `next` and left the collector in `t`. -/
def resumed (s : Scene Crowd) (i : Nat) (next : Call) (t : Scene Collector) : Scene Crowd :=
  ⟨t.heap, t.log,
    { s.focus with collector := t.focus, calls := s.focus.calls.setIfInBounds i next }⟩

/-- The failure that is kept in a turn. -/
def keptIn : Turn → Scene Crowd → List FailureId
  | .call i, s =>
      match s.focus.calls[i]? with
      | some (.numbered f number) =>
          if number ≤ s.focus.collector.limit ∧ s.focus.collector.closed = false then [f] else []
      | _ => []
  | .close, _ => []

/-- The failure that is dropped in a turn. -/
def droppedIn : Turn → Scene Crowd → List FailureId
  | .call i, s =>
      match s.focus.calls[i]? with
      | some (.over f _) => [f]
      | _ => []
  | .close, _ => []

/-- What is gathered along some turns, in order. -/
def along (gather : Turn → Scene Crowd → List FailureId) :
    List Turn → Scene Crowd → List FailureId
  | [], _ => []
  | x :: rest, s => gather x s ++ along gather rest ((turn x).after s)

/-- The failures that are kept in some turns, in order. -/
def keeping : List Turn → Scene Crowd → List FailureId := along keptIn

/-- The failures that are dropped in some turns, in order. -/
def dropping : List Turn → Scene Crowd → List FailureId := along droppedIn

/-- A call that has ended keeps nothing. -/
theorem keptIn_of_ended {s : Scene Crowd} {i : Nat}
    (hi : ∀ c, s.focus.calls[i]? = some c → c.ended = true) : keptIn (.call i) s = [] := by
  simp only [keptIn]
  split
  · rename_i hc
    cases hi _ hc
  · rfl

/-- A call that has ended drops nothing. -/
theorem droppedIn_of_ended {s : Scene Crowd} {i : Nat}
    (hi : ∀ c, s.focus.calls[i]? = some c → c.ended = true) : droppedIn (.call i) s = [] := by
  simp only [droppedIn]
  split
  · rename_i hc
    cases hi _ hc
  · rfl

/-! ### What one turn does -/

section

variable (s : Scene Crowd)

theorem run_collectorPlace {α : Type} (act : Act Collector α) :
    (collectorPlace.run act).run s =
      match act.run (alone s) with
      | .ok a t => .ok a ⟨t.heap, t.log, { s.focus with collector := t.focus }⟩
      | .error e t => .error e ⟨t.heap, t.log, { s.focus with collector := t.focus }⟩ := by
  have hat : (⟨s.heap, s.log, collectorPlace.get s.focus⟩ : Scene Collector) = alone s := rfl
  simp only [EStateM.run, Place.run, hat]
  cases act (alone s) <;> rfl

theorem run_turn_idle {i : Nat} (hi : s.focus.calls[i]? = none) :
    (turn (.call i)).run s = .ok () s := by
  rw [turn, EStateM.run_bind, EStateM.run_get]
  simp only [hi]
  rfl

theorem run_turn_call {i : Nat} {call : Call} (hi : s.focus.calls[i]? = some call) :
    (turn (.call i)).run s =
      match call.step.run (alone s) with
      | .ok next t => .ok () (resumed s i next t)
      | .error payload t => .ok () (resumed s i (.panicked payload) t) := by
  rw [turn, EStateM.run_bind, EStateM.run_get]
  simp only [hi, EStateM.run_bind, Act.run_caught]
  rw [run_collectorPlace]
  cases call.step.run (alone s) <;> rfl

theorem run_turn_close :
    (turn .close).run s =
      match Collector.close.run (alone s) with
      | .ok taken t => .ok () ⟨t.heap, t.log,
          { s.focus with collector := t.focus, closings := s.focus.closings ++ [.ok taken] }⟩
      | .error payload t => .ok () ⟨t.heap, t.log,
          { s.focus with
            collector := t.focus, closings := s.focus.closings ++ [.error payload] }⟩ := by
  rw [turn, EStateM.run_bind, Act.run_caught, run_collectorPlace]
  cases Collector.close.run (alone s) <;> rfl

/-- A turn never panics itself. -/
theorem run_turn (x : Turn) : (turn x).run s = .ok () ((turn x).after s) := by
  have hok : ∃ t, (turn x).run s = .ok () t := by
    cases x with
    | call i =>
      cases hi : s.focus.calls[i]? with
      | none => exact ⟨s, run_turn_idle s hi⟩
      | some call =>
        rw [run_turn_call s hi]
        cases call.step.run (alone s) <;> exact ⟨_, rfl⟩
    | close =>
      rw [run_turn_close]
      cases Collector.close.run (alone s) <;> exact ⟨_, rfl⟩
  obtain ⟨t, ht⟩ := hok
  rw [Act.after_of_ok ht, ht]

theorem run_play_cons (x : Turn) (rest : List Turn) :
    (play (x :: rest)).run s = (play rest).run ((turn x).after s) := by
  rw [play, EStateM.run_bind, run_turn]

theorem after_play_cons (x : Turn) (rest : List Turn) :
    (play (x :: rest)).after s = (play rest).after ((turn x).after s) := by
  simp only [Act.after, run_play_cons]

end

/-- Taking turns never panics itself. -/
theorem run_play (turns : List Turn) (s : Scene Crowd) :
    (play turns).run s = .ok () ((play turns).after s) := by
  induction turns generalizing s with
  | nil => rfl
  | cons x rest ih => rw [run_play_cons, after_play_cons, ih]

theorem after_play_append (before after : List Turn) (s : Scene Crowd) :
    (play (before ++ after)).after s = (play after).after ((play before).after s) := by
  induction before generalizing s with
  | nil => rfl
  | cons x rest ih => rw [List.cons_append, after_play_cons, after_play_cons, ih]

/-- The endings of a turn in the scene `s`, of a collector without a supplier. -/
inductive Turned (s : Scene Crowd) : Turn → Scene Crowd → Prop where
  /-- There is no such call, or it has ended. -/
  | idle {i : Nat} (hi : ∀ c, s.focus.calls[i]? = some c → c.ended = true) :
      Turned s (.call i) s
  /-- A call takes its number. -/
  | numbers {i : Nat} {f : FailureId} (hi : s.focus.calls[i]? = some (.due f)) :
      Turned s (.call i) (resumed s i (.numbered f (s.focus.collector.observed + 1))
        { alone s with focus := s.focus.collector.counted })
  /-- A call keeps its failure. -/
  | keeps {i : Nat} {f : FailureId} {number : Nat}
      (hi : s.focus.calls[i]? = some (.numbered f number))
      (hn : number ≤ s.focus.collector.limit) (ho : s.focus.collector.closed = false)
      (t : Scene Collector) (ht : (keep f).run (alone s) = .ok () t)
      (hfocus : t.focus = { s.focus.collector with primary := t.focus.primary }) :
      Turned s (.call i) (resumed s i .returned t)
  /-- A call over the limit finds the collector open. -/
  | passes {i : Nat} {f : FailureId} {number : Nat}
      (hi : s.focus.calls[i]? = some (.numbered f number))
      (hn : s.focus.collector.limit < number) (ho : s.focus.collector.closed = false) :
      Turned s (.call i) (resumed s i (.over f number) (alone s))
  /-- A call finds the collector closed. Limiting its failure may have made copies. -/
  | rejected {i : Nat} {f : FailureId} {number : Nat}
      (hi : s.focus.calls[i]? = some (.numbered f number))
      (hc : s.focus.collector.closed = true) (heap : Heap)
      (hh : heap = s.heap ∨ heap = (s.heap.limit s.focus.collector.limit f).2) :
      Turned s (.call i)
        (resumed s i (.panicked (.text closedMessage)) { alone s with heap })
  /-- A call counts its failure as dropped. -/
  | drops {i : Nat} {f : FailureId} {number : Nat}
      (hi : s.focus.calls[i]? = some (.over f number)) (log : Array Event) :
      Turned s (.call i) (resumed s i .returned { alone s with
        log, focus := { s.focus.collector with dropped := s.focus.collector.dropped + 1 } })
  /-- The collector is closed. -/
  | closes (ho : s.focus.collector.closed = false) (log : Array Event) :
      Turned s .close { s with log, focus := { s.focus with
        collector := { s.focus.collector with primary := none, closed := true }
        closings := s.focus.closings ++ [.ok s.focus.collector.primary] } }
  /-- The collector has been closed before. -/
  | closed (hc : s.focus.collector.closed = true) :
      Turned s .close { s with focus := { s.focus with
        closings := s.focus.closings ++ [.error (.text closedMessage)] } }

theorem resumed_self {s : Scene Crowd} {i : Nat} {c : Call} (hi : s.focus.calls[i]? = some c) :
    resumed s i c (alone s) = s := by
  have hset : s.focus.calls.setIfInBounds i c = s.focus.calls := by
    refine Array.ext_getElem? fun j => ?_
    rw [Array.getElem?_setIfInBounds]
    split
    · rename_i hij
      subst hij
      rw [hi, if_pos (Array.getElem?_eq_some_iff.mp hi).1]
    · rfl
  rw [resumed, hset]
  rfl

section

variable {s : Scene Collector} {f : FailureId} {number : Nat}

theorem run_close_of_open (ho : s.focus.closed = false) :
    ∃ log, Collector.close.run s =
      .ok s.focus.primary ⟨s.heap, log, { s.focus with primary := none, closed := true }⟩ := by
  rw [run_close, if_neg (by simp [ho])]
  cases s.focus.primary <;> exact ⟨_, rfl⟩

/-- A failure is limited before its call is refused. -/
theorem run_keep_of_closed (hc : s.focus.closed = true) :
    (keep f).run s = .error (.text closedMessage)
      { s with heap := (s.heap.limit s.focus.limit f).2 } := by
  simp [keep, hc]

/-- Without a supplier, keeping a failure changes nothing of the collector but what
its primary failure is. -/
theorem run_keep_of_open (ho : s.focus.closed = false) (hs : s.focus.supplier = none) :
    ∃ t, (keep f).run s = .ok () t ∧ t.focus = { s.focus with primary := t.focus.primary } := by
  cases hp : s.focus.primary with
  | none => simp [keep, ho, hs, hp]
  | some p =>
    have hfocus := (with_primary hp).symm
    by_cases hpf : p = f
    · subst hpf
      simpa [keep, ho, hp, -bind_pure_comp] using hfocus
    · simpa [keep, ho, hp, hpf, -bind_pure_comp] using hfocus

theorem run_step_within (hn : number ≤ s.focus.limit) :
    (Call.numbered f number).step.run s =
      match (keep f).run s with
      | .ok _ t => .ok .returned t
      | .error payload t => .error payload t := by
  rw [Call.step, EStateM.run_bind, EStateM.run_get]
  simp only [if_neg (Nat.not_lt_of_le hn), EStateM.run_bind]
  cases (keep f).run s <;> rfl

theorem run_step_beyond (hn : s.focus.limit < number) :
    (Call.numbered f number).step.run s =
      if s.focus.closed then .error (.text closedMessage) s else .ok (.over f number) s := by
  rw [Call.step, EStateM.run_bind, EStateM.run_get]
  simp only [if_pos hn, EStateM.run_bind, run_ensureOpen]
  cases s.focus.closed <;> rfl

end

section

variable {s : Scene Crowd} {i : Nat} {call : Call} {t : Scene Collector}

theorem after_turn_of_ok (hi : s.focus.calls[i]? = some call) {next : Call}
    (h : call.step.run (alone s) = .ok next t) :
    (turn (.call i)).after s = resumed s i next t :=
  Act.after_of_ok (by rw [run_turn_call s hi, h])

theorem after_turn_of_error (hi : s.focus.calls[i]? = some call) {payload : Payload}
    (h : call.step.run (alone s) = .error payload t) :
    (turn (.call i)).after s = resumed s i (.panicked payload) t :=
  Act.after_of_ok (by rw [run_turn_call s hi, h])

/-- A turn of a call that has ended changes nothing. -/
theorem turned_of_ended (hi : s.focus.calls[i]? = some call) (hended : call.ended = true)
    (h : call.step.run (alone s) = .ok call (alone s)) :
    Turned s (.call i) ((turn (.call i)).after s) := by
  rw [after_turn_of_ok hi h, resumed_self hi]
  refine .idle fun c hc => ?_
  cases hi.symm.trans hc
  exact hended

/-- A call that has its number, on a collector without a supplier. -/
theorem turned_numbered (hs : s.focus.collector.supplier = none) {f : FailureId} {number : Nat}
    (hi : s.focus.calls[i]? = some (.numbered f number)) :
    Turned s (.call i) ((turn (.call i)).after s) := by
  cases hc : s.focus.collector.closed with
  | true =>
    by_cases hn : number ≤ s.focus.collector.limit
    · have hstep := run_step_within (s := alone s) (f := f) hn
      rw [run_keep_of_closed (show (alone s).focus.closed = true from hc)] at hstep
      rw [after_turn_of_error hi hstep]
      exact .rejected hi hc _ (.inr rfl)
    · have hstep := run_step_beyond (s := alone s) (f := f) (Nat.lt_of_not_le hn)
      rw [if_pos (show (alone s).focus.closed = true from hc)] at hstep
      rw [after_turn_of_error hi hstep]
      exact .rejected hi hc _ (.inl rfl)
  | false =>
    have ho : (alone s).focus.closed = false := hc
    by_cases hn : number ≤ s.focus.collector.limit
    · have hstep := run_step_within (s := alone s) (f := f) hn
      obtain ⟨t, ht, hfocus⟩ := run_keep_of_open (f := f) ho hs
      rw [ht] at hstep
      rw [after_turn_of_ok hi hstep]
      exact .keeps hi hn hc t ht hfocus
    · have hlt : s.focus.collector.limit < number := Nat.lt_of_not_le hn
      have hstep := run_step_beyond (s := alone s) (f := f) hlt
      rw [if_neg (by simp [ho])] at hstep
      rw [after_turn_of_ok hi hstep]
      exact .passes hi hlt hc

/-- **A turn has no other endings.** -/
theorem turned (hs : s.focus.collector.supplier = none) (x : Turn) :
    Turned s x ((turn x).after s) := by
  cases x with
  | close =>
    cases hc : s.focus.collector.closed with
    | true =>
      have hrun : Collector.close.run (alone s) = .error (.text closedMessage) (alone s) := by
        rw [run_close]
        exact if_pos hc
      rw [Act.after_of_ok (by rw [run_turn_close, hrun])]
      exact .closed hc
    | false =>
      obtain ⟨log, hrun⟩ := run_close_of_open (s := alone s) hc
      rw [Act.after_of_ok (by rw [run_turn_close, hrun])]
      exact .closes hc log
  | call i =>
    cases hi : s.focus.calls[i]? with
    | none =>
      rw [Act.after_of_ok (run_turn_idle s hi)]
      exact .idle (by simp [hi])
    | some call =>
      match call, hi with
      | .due f, hi =>
        rw [after_turn_of_ok hi rfl]
        exact .numbers hi
      | .numbered f number, hi => exact turned_numbered hs hi
      | .over f number, hi =>
        rw [after_turn_of_ok hi rfl]
        exact .drops hi _
      | .returned, hi => exact turned_of_ended hi rfl rfl
      | .panicked payload, hi => exact turned_of_ended hi rfl rfl

end

/-! ### What many turns do -/

/-- What every turn preserves, beside what has been kept and dropped so far, holds
after some turns. -/
theorem after_play_induction {P : List FailureId → List FailureId → Scene Crowd → Prop}
    (turns : List Turn)
    (hstep : ∀ x ∈ turns, ∀ kept dropped s, P kept dropped s →
      P (kept ++ keptIn x s) (dropped ++ droppedIn x s) ((turn x).after s)) :
    ∀ {kept dropped : List FailureId} {s : Scene Crowd}, P kept dropped s →
      P (kept ++ keeping turns s) (dropped ++ dropping turns s) ((play turns).after s) := by
  induction turns with
  | nil =>
    intro kept dropped s hs
    rw [keeping, dropping, along, along, List.append_nil, List.append_nil]
    exact hs
  | cons x rest ih =>
    intro kept dropped s hs
    have hrest := ih (fun y hy => hstep y (List.mem_cons_of_mem x hy))
      (hstep x List.mem_cons_self kept dropped s hs)
    rw [after_play_cons, keeping, dropping, along, along, ← List.append_assoc, ← List.append_assoc]
    exact hrest

theorem along_append (gather : Turn → Scene Crowd → List FailureId) (before after : List Turn)
    (s : Scene Crowd) :
    along gather (before ++ after) s =
      along gather before s ++ along gather after ((play before).after s) := by
  induction before generalizing s with
  | nil => rfl
  | cons x rest ih =>
    rw [List.cons_append, along, along, ih, after_play_cons, List.append_assoc]

/-! ### Calls end -/

/-- How many turns a call has left at most. -/
def left (s : Scene Crowd) (i : Nat) : Nat := (s.focus.calls[i]?.map Call.turnsLeft).getD 0

/-- A step brings a call closer to its end. -/
theorem turnsLeft_step (call : Call) (s : Scene Collector) :
    match call.step.run s with
    | .ok next _ => next.turnsLeft ≤ call.turnsLeft - 1
    | .error _ _ => True := by
  cases call with
  | numbered f number =>
    rcases Nat.lt_or_ge s.focus.limit number with hn | hn
    · rw [run_step_beyond hn]
      cases s.focus.closed <;> simp [Call.turnsLeft]
    · rw [run_step_within hn]
      cases (keep f).run s <;> simp [Call.turnsLeft]
  | _ => exact Nat.le_refl _

theorem left_resumed {s : Scene Crowd} {i : Nat} {c : Call} (hi : s.focus.calls[i]? = some c)
    (next : Call) (t : Scene Collector) (j : Nat) :
    left (resumed s i next t) j = if j = i then next.turnsLeft else left s j := by
  simp only [left, resumed, Array.getElem?_setIfInBounds]
  by_cases hij : i = j
  · subst hij
    simp [(Array.getElem?_eq_some_iff.mp hi).1]
  · simp [hij, Ne.symm hij]

/-- A turn of a call brings it closer to its end, and no other call farther away. -/
theorem left_turn (x : Turn) (s : Scene Crowd) (j : Nat) :
    left ((turn x).after s) j ≤ left s j - [x].count (.call j) := by
  cases x with
  | close =>
    have hcalls : ((turn .close).after s).focus.calls = s.focus.calls := by
      have hrun := run_turn_close s
      generalize Collector.close.run (alone s) = r at hrun
      cases r <;> rw [Act.after_of_ok hrun]
    simp [left, hcalls]
  | call i =>
    cases hi : s.focus.calls[i]? with
    | none =>
      rw [Act.after_of_ok (run_turn_idle s hi)]
      by_cases hij : i = j
      · subst hij
        simp [left, hi]
      · simp [hij]
    | some call =>
      have hleft : left s i = call.turnsLeft := by simp [left, hi]
      have hstep := turnsLeft_step call (alone s)
      cases hrun : call.step.run (alone s) with
      | ok next t =>
        rw [hrun] at hstep
        rw [after_turn_of_ok hi hrun, left_resumed hi]
        by_cases hij : j = i
        · subst hij
          simpa [hleft] using hstep
        · simp [hij, Ne.symm hij]
      | error payload t =>
        rw [after_turn_of_error hi hrun, left_resumed hi]
        by_cases hij : j = i
        · simp [hij, Call.turnsLeft]
        · simp [hij, Ne.symm hij]

theorem left_play (turns : List Turn) (s : Scene Crowd) (i : Nat) :
    left ((play turns).after s) i ≤ left s i - turns.count (.call i) := by
  induction turns generalizing s with
  | nil => exact Nat.le_refl _
  | cons x rest ih =>
    have hx := left_turn x s i
    have hrest := ih ((turn x).after s)
    have hcount : (x :: rest).count (.call i) = [x].count (.call i) + rest.count (.call i) := by
      rw [← List.singleton_append, List.count_append]
    rw [after_play_cons, hcount]
    omega

/-- **Three turns end a call**, whatever comes between them. -/
theorem ended_of_three {turns : List Turn} {s : Scene Crowd} {i : Nat}
    (hthree : 3 ≤ turns.count (.call i)) {c : Call}
    (hc : ((play turns).after s).focus.calls[i]? = some c) : c.ended = true := by
  have hleft := left_play turns s i
  have hthree' : left s i ≤ 3 := by
    unfold left
    cases s.focus.calls[i]? with
    | none => exact Nat.zero_le _
    | some call => cases call <;> simp [Call.turnsLeft]
  have hzero : c.turnsLeft = 0 := by
    have : left ((play turns).after s) i = c.turnsLeft := by simp [left, hc]
    omega
  cases c <;> simp [Call.turnsLeft, Call.ended] at hzero ⊢

end Crowd
end Teardown
