/-
# Crowds

Several callers may add failures to one collector at once. A call then goes on
in steps that others come between: it gets its number; within the limit its
failure is kept; over the limit the collector is found open, and then the
failure is counted as dropped. Taken without a break the steps of a call are
those of `Collector.add`.

Key definitions: `Call`, `Call.step`, `Crowd`, `Crowd.play`, `Crowd.inTurn`.
-/
import Teardown.Collector.Basic

namespace Teardown

/-- How far a call that adds a failure has come. -/
inductive Call where
  /-- It is about to begin. -/
  | due (f : FailureId)
  /-- It has its number in the round. -/
  | numbered (f : FailureId) (number : Nat)
  /-- Its number is over the limit and the collector was open. -/
  | over (f : FailureId) (number : Nat)
  | returned
  | panicked (payload : Payload)
  deriving DecidableEq, Repr

/-- Takes a call one step on. -/
def Call.step : Call → Act Collector Call
  | .due f => do return .numbered f (← Collector.offer)
  | .numbered f number => do
      if (← get).focus.limit < number then
        Collector.ensureOpen
        return .over f number
      else
        Collector.keep f
        return .returned
  | .over f number => do
      Collector.countDropped f number
      return .returned
  | .returned => return .returned
  | .panicked payload => return .panicked payload

/-- A collector and the calls that are made on it. -/
structure Crowd where
  collector : Collector
  calls : Array Call := #[]
  /-- What each closing of the collector gave. -/
  closings : List (Except Payload (Option FailureId)) := []

/-- Whose turn it is. -/
inductive Turn where
  /-- The `i`th call takes a step. -/
  | call (i : Nat)
  /-- The collector is closed. -/
  | close
  deriving DecidableEq, Repr

namespace Crowd

/-- The collector of a crowd. -/
def collectorPlace : Place Crowd Collector := ⟨collector, fun s c => { s with collector := c }⟩

/-- What is done in a turn. -/
def turn : Turn → Act Crowd Unit
  | .call i => do
      match (← get).focus.calls[i]? with
      | none => return ()
      | some call =>
          let next ←
            match ← Act.caught (collectorPlace.run call.step) with
            | .ok next => pure next
            | .error payload => pure (.panicked payload)
          modify fun s => { s with focus := { s.focus with
            calls := s.focus.calls.setIfInBounds i next } }
  | .close => do
      let taken ← Act.caught (collectorPlace.run Collector.close)
      modify fun s => { s with focus := { s.focus with closings := s.focus.closings ++ [taken] } }

/-- Takes turns in a given order. -/
def play : List Turn → Act Crowd Unit
  | [] => return ()
  | t :: rest => do
      turn t
      play rest

/-- An order in which each of `n` calls ends before the next begins. -/
def inTurn (n : Nat) : List Turn :=
  (List.range n).flatMap fun i => List.replicate 3 (.call i)

/-- What came of a crowd: the counters, the failures that were kept and whether
closing the collector gave a failure. -/
structure Outcome where
  stats : Stats
  kept : Nat
  raised : Bool
  deriving DecidableEq, Repr

/-- What came of a crowd whose collector has been closed. -/
def outcome (s : Scene Crowd) : Outcome :=
  match s.focus.closings with
  | .ok (some f) :: _ =>
      { stats := s.focus.collector.stats, kept := (s.heap.suppressed f).length + 1, raised := true }
  | _ => { stats := s.focus.collector.stats, kept := 0, raised := false }

/-- A scene with a new collector and `n` calls, each about to add a failure of
its own. -/
def start (limit n : Nat) : Scene Crowd :=
  let heap := (List.range n).foldl (fun h i => (h.alloc { message := toString i }).2) {}
  { heap, focus := {
    collector := Collector.withLimit {} limit
    calls := (Array.range n).map .due } }

/-- What comes of `n` calls one after the other, with the collector closed at
the end. -/
def outcomeInTurn (limit n : Nat) : Outcome :=
  match play (inTurn n ++ [.close]) (start limit n) with
  | .ok _ s => outcome s
  | .error _ s => outcome s

end Crowd
end Teardown
