/-
# Groups of resources

A group is a named set of resources that are released together; groups nest.
Release goes by polls. A leaf finishes at the poll after its pending ones; a
group finishes at the poll in which its last member does, and a group without
members at its first. A member's error is recorded in the group's collector,
under a root that names the group.

A poll of a group polls each of its unfinished members once, in order. In a
wide group it takes them from the front of a queue instead and puts those that
stay pending at its end; it stops when two in a row, or the only one left, stay
pending, and the next poll goes on from there.

When a member panics, the poll ends there and everything unfinished is
dropped: what the member itself holds first, then its unfinished siblings in
order, or those in a queue from its end, then the group around them.

Key definitions: `Resource`, `Task`, `Task.poll`, `Task.drop`, `Resource.release`.
-/
import Teardown.Collector.Scope

namespace Teardown

/-- How a leaf's release ends, with failures referred to by `φ`. -/
inductive EndingOf (φ : Type) where
  | succeeds
  | fails (e : ErrorOf φ)
  | panics (message : String)
  deriving DecidableEq, Repr

/-- How a leaf's release ends in a running program. -/
abbrev Ending := EndingOf FailureId

/-- A resource that is released by polls, with failures referred to by `φ`. -/
inductive ResourceOf (φ : Type) where
  /-- A resource that is pending for the first `pending` polls. -/
  | leaf (name : String) (pending : Nat) (ending : EndingOf φ)
  | group (name : String) (limit : Nat) (members : List (ResourceOf φ))
  deriving Repr

/-- A resource of a running program. -/
abbrev Resource := ResourceOf FailureId

/-- Replaces the references in how a leaf ends. -/
def EndingOf.traverse {φ ψ ε : Type} (g : φ → Except ε ψ) : EndingOf φ → Except ε (EndingOf ψ)
  | .succeeds => .ok .succeeds
  | .fails e => do return .fails (← e.traverse g)
  | .panics message => .ok (.panics message)

namespace ResourceOf

variable {φ ψ ε : Type}

/-- The number of a group's direct members. -/
def size : ResourceOf φ → Nat
  | leaf _ _ _ => 0
  | group _ _ members => members.length

mutual

/-- Replaces every reference in a resource, in order. -/
def traverse (g : φ → Except ε ψ) : ResourceOf φ → Except ε (ResourceOf ψ)
  | .leaf name pending ending => do return .leaf name pending (← ending.traverse g)
  | .group name limit members => do return .group name limit (← traverseAll g members)

/-- Replaces every reference in a list of resources, in order. -/
def traverseAll (g : φ → Except ε ψ) : List (ResourceOf φ) → Except ε (List (ResourceOf ψ))
  | [] => .ok []
  | m :: rest => do
      let m ← m.traverse g
      return m :: (← traverseAll g rest)

end

end ResourceOf

/-! ### Releases under way -/

/-- A release under way, at its place among the members of the group around it. -/
inductive Task where
  | leaf (index : Nat) (name : String) (pending : Nat) (ending : Ending)
  /-- A group of `size` members, of which `members` are unfinished. -/
  | group (index : Nat) (name : String) (size : Nat) (started : Bool) (collector : Collector)
      (members : List Task)

/-- What a poll finds. -/
inductive Polled where
  | pending (rest : Task)
  | finished (result : Except ErrorValue Unit)

/-- The names of the leaves that finished, in order. -/
abbrev Finished := Array String

/-- The message of a group's root failure. -/
def groupMessage (name : String) (size : Nat) : String :=
  "failed to release resources in group '" ++ name ++ "' (" ++ toString size ++ " members)"

/-- The collector of a group. -/
def groupCollector (name : String) (size limit : Nat) : Collector :=
  (Collector.withSupplier fun _ => .fresh (groupMessage name size)).withLimit limit

mutual

/-- The release of a resource before its first poll. -/
def Task.ofResource (index : Nat) : Resource → Task
  | .leaf name pending ending => .leaf index name pending ending
  | .group name limit members =>
      .group index name members.length false (groupCollector name members.length limit)
        (Task.ofMembers 0 members)

/-- The releases of a group's members, the first of which is the `index`th. -/
def Task.ofMembers (index : Nat) : List Resource → List Task
  | [] => []
  | m :: rest => Task.ofResource index m :: Task.ofMembers (index + 1) rest

end

/-- Which groups are wide, by the number of their members. -/
abbrev Width := Nat → Bool

/-- A group of more than thirty members is wide. -/
def overThirty : Width := fun size => 30 < size

namespace Task

def index : Task → Nat
  | leaf index _ _ _ => index
  | group index _ _ _ _ _ => index

def name : Task → String
  | leaf _ name _ _ => name
  | group _ name _ _ _ _ => name

mutual

/-- What is left to do: a bound on the polls that a release takes, each of which
does something in it. -/
def work : Task → Nat
  | .leaf _ _ pending _ => pending + 1
  | .group _ _ _ _ _ members => workAll members + 1

/-- What is left to do in several releases. -/
def workAll : List Task → Nat
  | [] => 0
  | t :: rest => t.work + workAll rest

end

/-- Runs an act on a collector that is at hand. -/
def withCollector {α : Type} (c : Collector) (act : Act Collector α) : Act Finished (α × Collector) :=
  fun s =>
    match act { heap := s.heap, log := s.log, focus := c } with
    | .ok a t => .ok (a, t.focus) { s with heap := t.heap, log := t.log }
    | .error e t => .error e { s with heap := t.heap, log := t.log }

mutual

/-- Drops a release under way: what its members hold before what it holds itself. -/
def drop (wide : Width) : Task → Act Finished Unit
  | .leaf _ _ _ _ => return ()
  | .group _ _ size _ collector members => do
      if wide size then dropFromEnd wide members else dropInOrder wide members
      let _ ← withCollector collector Collector.drop

/-- Drops releases under way in order. -/
def dropInOrder (wide : Width) : List Task → Act Finished Unit
  | [] => return ()
  | t :: rest => do
      t.drop wide
      dropInOrder wide rest

/-- Drops releases under way, the last one first. -/
def dropFromEnd (wide : Width) : List Task → Act Finished Unit
  | [] => return ()
  | t :: rest => do
      dropFromEnd wide rest
      t.drop wide

end

/-- Takes note of a finished member. -/
def settle (group : String) (collector : Collector) (member : Task) :
    Except ErrorValue Unit → Act Finished Collector
  | .ok () => do
      Act.emit (.memberReleased group member.name)
      return collector
  | .error e => do
      Act.emit (.memberFailed group member.index member.name (← Act.ask (e.display ·)))
      let (_, collector) ← withCollector collector (Collector.addError e)
      return collector

/-- Ends the release of a group whose members are all finished. -/
def conclude (name : String) (collector : Collector) : Act Finished (Except ErrorValue Unit) := do
  match ← withCollector collector Collector.close with
  | (none, _) =>
      Act.emit (.groupReleased name)
      return .ok ()
  | (some f, _) =>
      let failures ← Act.ask fun h => (h.suppressed f).length
      Act.emit (.groupFailed name failures (← Act.ask (·.message f)))
      return .error (.failure f)

/-- Goes on with a group of which some members remain to be polled again, or ends
its release. -/
def remain (index : Nat) (name : String) (size : Nat) (collector : Collector)
    (members : List Task) : Act Finished Polled := do
  if members.isEmpty then return .finished (← conclude name collector)
  else return .pending (.group index name size true collector members)

/-- Drops a collector, after everything that was to be dropped before it, and
lets a panic go on. -/
def giveUp {α : Type} (collector : Collector) (before : Act Finished Unit) (payload : Payload) :
    Act Finished α := do
  before
  let _ ← withCollector collector Collector.drop
  throw payload

/-- Polls the members of a wide group from the front of its queue, each by `poll`
and at most `fuel` times. `waited` says that the last one stayed pending. Gives
the queue that is left. -/
def pollQueue (wide : Width) (poll : Task → Act Finished Polled) (name : String) :
    (fuel : Nat) → Collector → (waited : Bool) → List Task → Act Finished (Collector × List Task)
  | 0, collector, _, queue => return (collector, queue)
  | _ + 1, collector, _, [] => return (collector, [])
  | fuel + 1, collector, waited, t :: rest => do
      match ← Act.caught (poll t) with
      | .error payload => giveUp collector (dropFromEnd wide rest) payload
      | .ok (.pending t) =>
          if waited || rest.isEmpty then return (collector, rest ++ [t])
          else pollQueue wide poll name fuel collector true (rest ++ [t])
      | .ok (.finished result) =>
          let collector ← settle name collector t result
          pollQueue wide poll name fuel collector false rest

mutual

/-- Polls a release, where members of wide groups are polled by `deeper`. -/
def pollWith (wide : Width) (deeper : Task → Act Finished Polled) : Task → Act Finished Polled
  | .leaf index name (pending + 1) ending => return .pending (.leaf index name pending ending)
  | .leaf _ name 0 ending => do
      modify fun s => { s with focus := s.focus.push name }
      match ending with
      | .succeeds => return .finished (.ok ())
      | .fails e => return .finished (.error e)
      | .panics message => throw (.text message)
  | .group index name size started collector members => do
      if started = false then Act.emit (.groupStarted name size)
      let (collector, members) ←
        if wide size then pollQueue wide deeper name (workAll members) collector false members
        else pollMembers wide deeper name collector [] members
      remain index name size collector members

/-- Polls the members of a group in order, those in `before` (last first) having
been polled already. Gives the members that are left. -/
def pollMembers (wide : Width) (deeper : Task → Act Finished Polled) (name : String)
    (collector : Collector) (before : List Task) :
    List Task → Act Finished (Collector × List Task)
  | [] => return (collector, before.reverse)
  | t :: rest => do
      match ← Act.caught (t.pollWith wide deeper) with
      | .error payload => giveUp collector (dropInOrder wide (before.reverse ++ rest)) payload
      | .ok (.pending t) => pollMembers wide deeper name collector (t :: before) rest
      | .ok (.finished result) =>
          let collector ← settle name collector t result
          pollMembers wide deeper name collector before rest

end

/-- Polls a release in which wide groups nest at most `depth` levels deep. -/
def poll (wide : Width) : (depth : Nat) → Task → Act Finished Polled
  | 0, t => t.pollWith wide fun t => return .pending t
  | depth + 1, t => t.pollWith wide (poll wide depth)

/-- Polls a release until it finishes, at most `fuel` times. -/
def finish (wide : Width) (depth : Nat) : (fuel : Nat) → Task → Act Finished (Except ErrorValue Unit)
  | 0, _ => return .ok ()
  | fuel + 1, t => do
      match ← t.poll wide depth with
      | .finished result => return result
      | .pending t => finish wide depth fuel t

/-! ### How the acts run -/

section

variable (s : Scene Finished)

theorem run_withCollector {α : Type} (c : Collector) (act : Act Collector α) :
    (withCollector c act).run s =
      match act.run { heap := s.heap, log := s.log, focus := c } with
      | .ok a t => .ok (a, t.focus) { s with heap := t.heap, log := t.log }
      | .error e t => .error e { s with heap := t.heap, log := t.log } := rfl

theorem run_settle_ok (group : String) (c : Collector) (member : Task) :
    (settle group c member (.ok ())).run s =
      .ok c { s with log := s.log.push (.memberReleased group member.name) } := rfl

theorem run_settle_error (group : String) (c : Collector) (member : Task) (e : ErrorValue) :
    (settle group c member (.error e)).run s =
      let event := .memberFailed group member.index member.name (e.display s.heap)
      match (Collector.addError e).run { heap := s.heap, log := s.log.push event, focus := c } with
      | .ok _ t => .ok t.focus { s with heap := t.heap, log := t.log }
      | .error payload t => .error payload { s with heap := t.heap, log := t.log } := by
  simp only [settle, EStateM.run_bind, Act.run_ask, Act.run_emit, run_withCollector]
  cases (Collector.addError e).run _ <;> rfl

theorem run_conclude (name : String) {c : Collector} (hc : c.closed = false) :
    (conclude name c).run s =
      match c.primary with
      | some f => .ok (.error (.failure f)) { s with
          log := (s.log.push (.raisedOnClose (s.heap.message f) (s.heap.suppressed f).length)).push
            (.groupFailed name (s.heap.suppressed f).length (s.heap.message f)) }
      | none => .ok (.ok ()) { s with log := s.log.push (.groupReleased name) } := by
  cases hp : c.primary <;>
    simp [conclude, run_withCollector, Collector.run_close, hc, hp, -bind_pure_comp]

theorem run_remain_nil (index : Nat) (name : String) (size : Nat) (c : Collector) :
    (remain index name size c []).run s =
      match (conclude name c).run s with
      | .ok result t => .ok (.finished result) t
      | .error payload t => .error payload t := by
  simp only [remain, List.isEmpty_nil, if_true, EStateM.run_bind]
  cases (conclude name c).run s <;> rfl

theorem run_remain_cons (index : Nat) (name : String) (size : Nat) (c : Collector) (t : Task)
    (ts : List Task) :
    (remain index name size c (t :: ts)).run s =
      .ok (.pending (.group index name size true c (t :: ts))) s := rfl

variable (wide : Width) (deeper : Task → Act Finished Polled)

theorem run_pollMembers_nil (name : String) (c : Collector) (before : List Task) :
    (pollMembers wide deeper name c before []).run s = .ok (c, before.reverse) s := by
  rw [pollMembers]
  rfl

theorem run_pollMembers_cons (name : String) (c : Collector) (before rest : List Task) (t : Task) :
    (pollMembers wide deeper name c before (t :: rest)).run s =
      match (t.pollWith wide deeper).run s with
      | .error payload u =>
          (giveUp c (dropInOrder wide (before.reverse ++ rest)) payload).run u
      | .ok (.pending t) u => (pollMembers wide deeper name c (t :: before) rest).run u
      | .ok (.finished result) u =>
          match (settle name c t result).run u with
          | .ok c u => (pollMembers wide deeper name c before rest).run u
          | .error payload u => .error payload u := by
  rw [pollMembers, EStateM.run_bind, Act.run_caught]
  cases (t.pollWith wide deeper).run s with
  | error payload u => rfl
  | ok polled u =>
    cases polled with
    | pending t => rfl
    | finished result =>
      simp only [EStateM.run_bind]
      cases (settle name c t result).run u <;> rfl

theorem run_poll_pending (index : Nat) (name : String) (pending : Nat) (ending : Ending) :
    (pollWith wide deeper (.leaf index name (pending + 1) ending)).run s =
      .ok (.pending (.leaf index name pending ending)) s := by
  rw [pollWith]
  rfl

theorem run_poll_finished (index : Nat) (name : String) (ending : Ending) :
    (pollWith wide deeper (.leaf index name 0 ending)).run s =
      let t := { s with focus := s.focus.push name }
      match ending with
      | .succeeds => .ok (.finished (.ok ())) t
      | .fails e => .ok (.finished (.error e)) t
      | .panics message => .error (.text message) t := by
  cases ending with
  | succeeds => simp [pollWith, -bind_pure_comp]
  | fails e => simp [pollWith, -bind_pure_comp]
  | panics message =>
    simp only [pollWith, EStateM.run_bind]
    rfl

theorem run_poll_group (index : Nat) (name : String) (size : Nat) (hsize : wide size = false)
    (started : Bool) (c : Collector) (members : List Task) :
    (pollWith wide deeper (.group index name size started c members)).run s =
      match (pollMembers wide deeper name c [] members).run
          (if started then s else { s with log := s.log.push (.groupStarted name size) }) with
      | .ok left t => (remain index name size left.1 left.2).run t
      | .error payload t => .error payload t := by
  rw [pollWith]
  cases started with
  | false =>
    simp only [hsize, if_true, if_false, EStateM.run_bind, Act.run_emit, Bool.false_eq_true]
    cases (pollMembers wide deeper name c [] members).run
      { s with log := s.log.push (.groupStarted name size) } <;> rfl
  | true =>
    simp only [hsize, if_true, if_false, EStateM.run_bind, reduceCtorEq, Bool.false_eq_true]
    cases (pollMembers wide deeper name c [] members).run s <;> rfl

end

end Task

/-- Releases a resource and gives its failure, if it fails. -/
def ResourceOf.releaseBy (wide : Width) (r : Resource) : Act Finished (Except FailureId Unit) := do
  let task := Task.ofResource 0 r
  match ← task.finish wide task.work task.work with
  | .ok () => return .ok ()
  | .error e => return .error (← Act.onHeap (·.ofError e))

/-- Releases a resource, with groups of more than thirty members as wide ones. -/
def ResourceOf.release (r : Resource) : Act Finished (Except FailureId Unit) :=
  r.releaseBy overThirty

end Teardown
