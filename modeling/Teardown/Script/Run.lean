/-
# Running scripts

What each step does. Names are resolved before a step does anything, except
that the error of a resource is made when its release fails.

Key definitions: `Script.Action.play`, `Script.Step.play`, `Script.run`.
-/
import Teardown.Failure.Graph
import Teardown.Script.Session

namespace Teardown
namespace Script

/-! ### Failures -/

/-- What a script panics with, resolved. -/
def Thrown.traverse {ε : Type} (g : Name → Except ε FailureId) : Thrown → Except ε Payload
  | .plain payload => payload.traverse g
  | .error e => do
      let _ ← e.traverse g
      return .other

/-- How an offer becomes a failure. -/
def Offer.conversion {ε : Type} (g : Name → Except ε FailureId) :
    Offer → Except ε (Heap → FailureId × Heap)
  | .failure name => do
      let f ← g name
      return fun h => (f, h)
  | .fresh message => .ok (·.alloc { message })
  | .error e => do
      let e ← e.traverse g
      return (·.ofError e)
  | .panic thrown => do
      let payload ← thrown.traverse g
      return (·.ofPanic payload)

mutual

/-- Builds a tree of failures. -/
def TreeOf.build (h : Heap) : TreeOf FailureId → FailureId × Heap
  | .ref f => (f, h)
  | .node message children =>
      let (f, h) := h.alloc { message }
      (f, TreeOf.buildAll f h children)

/-- Builds trees and attaches them to `f` in order. -/
def TreeOf.buildAll (f : FailureId) (h : Heap) : List (TreeOf FailureId) → Heap
  | [] => h
  | t :: rest =>
      let (child, h) := t.build h
      TreeOf.buildAll f (h.attach f child) rest

end

/-- Makes the `i`th failure of a chain, which holds the next one as suppressed,
and `more` further ones. -/
def buildChain (stem : String) (h : Heap) (i : Nat) : (more : Nat) → FailureId × Heap
  | 0 => h.alloc { message := stem ++ toString i }
  | more + 1 =>
      let (next, h) := buildChain stem h (i + 1) more
      h.alloc { message := stem ++ toString i, suppressed := [next] }

/-- Makes a failure and, one on top of the other, `depth` more that it causes. -/
def buildCauses (stem : String) (h : Heap) : (depth : Nat) → FailureId × Heap
  | 0 => h.alloc { message := stem ++ "0" }
  | depth + 1 =>
      let (cause, h) := buildCauses stem h depth
      h.causedBy (stem ++ toString (depth + 1)) (.failure cause)

/-- Attaches `count` new failures to `f`. -/
def buildFan (stem : String) (f : FailureId) (count : Nat) (h : Heap) : Heap :=
  (List.range count).foldl (fun h i =>
    let (child, h) := h.alloc { message := stem ++ toString i }
    h.attach f child) h

/-- What is found in the error that a failure comes from. -/
def foundIn (f : FailureId) : Sought → Play Reply
  | .io => do
      match ← Act.ask (·.find? Found.io? f) with
      | some e => return .text e.kind.name
      | none => return .nothing
  | .login => do
      match ← Act.ask (·.find? Found.login? f) with
      | some e => return .text e.display
      | none => return .nothing
  | .failure => do
      match ← Act.ask (·.find? Found.failure? f) with
      | some g => return .failure (← shown g)
      | none => return .nothing
  | .text => do
      match ← Act.ask (·.find? Found.text? f) with
      | some s => return .text s
      | none => return .nothing

/-- A description on one line or over several. -/
def described (spread : Bool) (d : Described) : Reply :=
  .text (if spread then d.spread "" else d.line)

/-! ### Collectors -/

/-- What a supplier does at its `n`th call: its last entry counts for all calls
beyond. -/
def supplyAt (entries : List Supply) (n : Nat) : Supply :=
  (entries[n]?.or entries.getLast?).getD .nothing

/-- Makes a collector. -/
def Setup.collector (setup : Setup) : Play Collector := do
  let c ←
    match setup.roots, setup.settings with
    | some entries, _ => do
        let entries ← resolve fun g => entries.mapM (SupplyOf.traverse g)
        pure (Collector.withSupplier (supplyAt entries))
    | none, some settings => pure (Collector.ofSettings settings)
    | none, none => pure {}
  match setup.limit with
  | some limit => return c.withLimit limit
  | none => return c

/-- Turns an offer into a failure. -/
def failureOfOffer (offer : Offer) : Play FailureId := do
  let g ← resolve offer.conversion
  Act.onHeap g

section

variable {σ : Type}

/-- A failure as a reply. -/
def replied (f : FailureId) : Act σ Given := return .ok (.failure (← shown f))

/-- A failure or nothing as a reply. -/
def repliedOptional : Option FailureId → Act σ Given
  | some f => replied f
  | none => return .ok .nothing

/-- A failure that is returned as an error, or nothing. -/
def returned : Option FailureId → Act σ Given
  | some f => return .error f
  | none => return .ok .nothing

/-- Does a step on the collector at `p` of the session at `q`. -/
def CollectorStep.play (p : Place σ Collector) (q : Place σ Session) : CollectorStep → Act σ Given
  | .add offer => do
      p.run (Collector.add (← q.run (failureOfOffer offer)))
      return .ok (.stats (p.get (← get).focus).stats)
  | .addMany count stem => do
      (List.range count).forM fun i => do
        p.run (Collector.add (← Act.onHeap (·.alloc { message := stem ++ toString i })))
      return .ok (.stats (p.get (← get).focus).stats)
  | .peek => do repliedOptional (p.get (← get).focus).primary
  | .take => do repliedOptional (← p.run Collector.take)
  | .takeAsError => do returned (← p.run Collector.take)
  | .takeAndPanic => do
      p.run Collector.takeAndPanic
      return .ok .nothing
  | .panicKeeping => do
      p.run Collector.panicKeeping
      return .ok .nothing
  | .close => do returned (← p.run Collector.close)
  | .hasFailure => return .ok (.flag (p.get (← get).focus).primary.isSome)
  | .isClosed => return .ok (.flag (p.get (← get).focus).closed)
  | .stats => return .ok (.stats (p.get (← get).focus).stats)
  | .limit => return .ok (.number (p.get (← get).focus).limit)
  | .describe spread => do
      let c := p.get (← get).focus
      return .ok (described spread (← Act.ask (c.describe ·)))

end

/-- What a step of a scope's body does. -/
def ScopeAction.play : ScopeAction → Act (Collector × Session) Given
  | .collector step => step.play Place.first Place.second
  | .panic thrown => do throw (← Place.second.run (resolve thrown.traverse))

/-- Does the steps of a scope's body. A name that stands for nothing is there a
panic like any other. -/
def playBody : List ScopeStep → Act (Collector × Session) Unit
  | [] => return ()
  | step :: rest => do
      let answer ← answering Place.second step.marks
        (Act.ensuring step.action.play (Place.second.run overlook))
      Place.second.run (nest step.marks answer)
      playBody rest

/-! ### Groups -/

/-- Releases a group, whatever comes of it. -/
def runGroup (group : Resource) (finished : Finished) :
    Play (Except Payload (Except FailureId Unit) × Finished) := fun s =>
  match Act.caught group.release { heap := s.heap, log := s.log, focus := finished } with
  | .ok a t => .ok (a, t.focus) { s with heap := t.heap, log := t.log }
  | .error e t => .error e { s with heap := t.heap, log := t.log }

/-- Releases a group so many times, binding each failure to `binds`. -/
def runGroups (binds : Option Name) (group : Resource) :
    (times : Nat) → Finished → Play (List Run × Finished)
  | 0, finished => return ([], finished)
  | times + 1, finished => do
      let (result, finished) ← runGroup group finished
      let run ←
        match result with
        | .ok (.ok ()) => pure Run.succeeded
        | .ok (.error f) => do
            bind binds f
            pure (Run.failed (← shown f))
        | .error payload => do
            let f ← Act.onHeap (·.ofPanic payload)
            bind binds f
            pure (Run.panicked (← shown f))
      let (runs, finished) ← runGroups binds group times finished
      return (run :: runs, finished)

/-! ### Steps -/

/-- What a step that runs no other steps does. -/
def Action.play (marks : Marks) : Action → Play Given
  | .make kind message => do replied (← Act.onHeap (·.alloc { kind, message }))
  | .causedBy message e => do
      let e ← resolve e.traverse
      replied (← Act.onHeap (·.causedBy message e))
  | .wrap e => do
      let e ← resolve e.traverse
      replied (← Act.onHeap (·.wrap e))
  | .convert offer => do replied (← failureOfOffer offer)
  | .ofPanic thrown => do
      let payload ← resolve thrown.traverse
      replied (← Act.onHeap (·.ofPanic payload))
  | .tree spec => do
      let spec ← resolve spec.traverse
      replied (← Act.onHeap spec.build)
  | .chain depth stem => do replied (← Act.onHeap (buildChain stem · 0 depth))
  | .causeChain depth stem => do replied (← Act.onHeap (buildCauses stem · depth))
  | .fan f count stem => do
      let f ← failureOf f
      Act.onHeap fun h => ((), buildFan stem f count h)
      replied f
  | .attach f g => do
      let f ← failureOf f
      let g ← failureOf g
      Act.attach f g
      replied f
  | .look f => do replied (← failureOf f)
  | .text f full => do
      let f ← failureOf f
      return .ok (.text (← Act.ask fun h => if full then h.render f else h.message f))
  | .describe f spread => do
      let f ← failureOf f
      return .ok (described spread (← Act.ask (·.describe f)))
  | .report f => do
      let f ← failureOf f
      return .ok (.text (← Act.ask fun h => (h.report f).encode))
  | .causes f => do
      let f ← failureOf f
      return .ok (.texts (← Act.ask (·.causes f)))
  | .graph f => do
      let f ← failureOf f
      return .ok (.graph (← Act.ask fun h =>
        (h.reachable f).map fun g => ⟨g, h.kind g, h.message g, h.suppressed g⟩))
  | .child f index => do
      let f ← failureOf f
      repliedOptional (← Act.ask fun h => (h.suppressed f)[index]?)
  | .find f sought => do
      let f ← failureOf f
      return .ok (← foundIn f sought)
  | .same f g => do
      let f ← failureOf f
      let g ← failureOf g
      return .ok (.flag (f = g))
  | .raise f => do Act.raise (← failureOf f)
  | .setup name spec => do
      let c ← spec.collector
      let before := (← get).focus.names.lookup name
      modify fun s => { s with focus := { s.focus with
        collectors := s.focus.collectors.push c
        names := (name, s.focus.collectors.size) :: s.focus.names.filter (·.1 ≠ name) } }
      match before with
      | some k => release k
      | none => pure ()
      return .ok (.number c.limit)
  | .collector name step => do
      let k ← collectorOf name
      step.play (collectorAt k) Place.whole
  | .drop name => do
      let k ← collectorOf name
      forget name
      release k
      return .ok .nothing
  | .scope spec body value => do
      let c ← spec.collector
      match ← Collector.scope c (playBody body) with
      | .ok () => return .ok (.value value)
      | .error f => return .error f
  | .group spec times => do
      let spec ← resolve spec.traverse
      let (runs, finished) ← runGroups marks.binds spec times #[]
      return .ok (.runs runs spec.size finished.toList)

/-- How a resource's release ends. -/
def ReleaseEnding.play : ReleaseEnding → Play (Except ErrorValue Unit)
  | .succeeds => return .ok ()
  | .fails e => return .error (← resolve e.traverse)
  | .panics thrown => do throw (← resolve thrown.traverse)

/-- Works for the `k`th collector, which is not dropped before that. -/
def holding {α : Type} (k : Nat) (act : Play α) : Play α := do
  let before := (← get).focus.inUse
  modify fun s => { s with focus := { s.focus with inUse := k :: before } }
  Act.ensuring act do
    modify fun s => { s with focus := { s.focus with inUse := before } }
    if (← get).focus.names.any (·.2 = k) then return () else release k

/-- Takes note that a resource is being released. -/
def noteReleased (index : Nat) : Play Unit :=
  modify fun s => { s with focus := { s.focus with
    released := s.focus.released.map (·.push index) } }

mutual

/-- Releases a resource: its steps, then its ending. -/
def Releasable.play : Releasable → Play (Except ErrorValue Unit)
  | .mk steps ending => do
      playNested steps
      ending.play

/-- Releases of resources, the first of which is the `index`th. -/
def Releasable.plays (index : Nat) :
    List Releasable → List (Play (Except ErrorValue Unit))
  | [] => []
  | r :: rest => (do noteReleased index; r.play) :: Releasable.plays (index + 1) rest

/-- Does a step and gives its answer. -/
def Step.play : Step → Play Answer
  | .plain marks action => answering Place.whole marks (action.play marks)
  | .closeSuppressing marks name none =>
      answering Place.whole marks do
        let k ← collectorOf name
        Collector.closeSuppressing (collectorAt k) none
        return .ok (.stats ((collectorAt k).get (← get).focus).stats)
  | .closeSuppressing marks name (some r) =>
      answering Place.whole marks do
        let k ← collectorOf name
        holding k (Collector.closeSuppressing (collectorAt k) (some r.play))
        return .ok (.stats ((collectorAt k).get (← get).focus).stats)
  | .releaseAll marks resources =>
      answering Place.whole marks do
        modify fun s => { s with focus := { s.focus with released := some #[] } }
        match ← Teardown.releaseAll (Releasable.plays 0 resources) with
        | .ok () => return .ok .nothing
        | .error f => return .error f

/-- Does steps within the step at hand, up to a panic that goes on. -/
def playNested : List Step → Play Unit
  | [] => return ()
  | step :: rest => do
      nest step.marks (← step.play)
      playNested rest

end

/-- Does the steps of a script and gives their answers. -/
def playAll : List Step → Play (List Answer)
  | [] => return []
  | step :: rest => do
      let answer ← step.play
      return answer :: (← playAll rest)

/-- Drops every collector that a name still holds, by name. -/
def leave : Play Unit := do
  let names := ((← get).focus.names.map (·.1)).mergeSort (· ≤ ·)
  names.forM fun name => do
    let k ← collectorOf name
    forget name
    release k

/-- Runs a script in an empty scene. Gives the answers and everything the log
was told, including the end of the session. -/
def run (steps : List Step) : List Answer × Array Event :=
  let start : Scene Session := { focus := {} }
  match (do let answers ← playAll steps; leave; return answers : Play (List Answer)) start with
  | .ok answers s => (answers, s.log)
  | .error _ s => ([], s.log)

end Script
end Teardown
