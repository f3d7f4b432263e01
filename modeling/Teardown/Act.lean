/-
# Acts

What the library does happens in a scene: a heap of failures, a log of events,
and a focus, whatever else the act at hand works on. An act ends with a value
or with a panic; either way the scene is left as the act made it.

Acts on a part of a larger focus run through a `Place`.

Key definitions: `Scene`, `Payload`, `Act`, `Place`, `Act.raise`.
-/
import Teardown.Event
import Teardown.Failure.Limit
import Teardown.Failure.Render

namespace Teardown

/-- The state that acts work on. -/
structure Scene (σ : Type) where
  heap : Heap := {}
  log : Array Event := #[]
  focus : σ

/-- What a panic carries, with failures referred to by `φ`. -/
inductive PayloadOf (φ : Type) where
  | text (s : String)
  | failure (f : φ)
  /-- A value that is neither text nor a failure. -/
  | other
  deriving DecidableEq, Repr

/-- What a panic of a running program carries. -/
abbrev Payload := PayloadOf FailureId

/-- Replaces the reference in a payload. -/
def PayloadOf.traverse {φ ψ ε : Type} (g : φ → Except ε ψ) : PayloadOf φ → Except ε (PayloadOf ψ)
  | .text s => .ok (.text s)
  | .failure f => do return .failure (← g f)
  | .other => .ok .other

/-- The message of a panic that carries neither text nor a failure. -/
def otherPayloadMessage : String := "panic with a non-string payload"

/-- The failure of a panic: the one it carries, or a new one with its text. -/
def Heap.ofPanic (h : Heap) : Payload → FailureId × Heap
  | .failure f => (f, h)
  | .text s => h.alloc { kind := .panic, message := s }
  | .other => h.alloc { kind := .panic, message := otherPayloadMessage }

/-- Something done in a scene with focus `σ`, ending with an `α` or a panic. -/
abbrev Act (σ : Type) := EStateM Payload (Scene σ)

namespace Act

variable {σ τ α : Type}

/-- Does something to the heap. -/
def onHeap (g : Heap → α × Heap) : Act σ α := fun s =>
  let (a, heap) := g s.heap
  .ok a { s with heap }

/-- Asks the heap. -/
def ask (g : Heap → α) : Act σ α := fun s => .ok (g s.heap) s

/-- Tells the log. -/
def emit (event : Event) : Act σ Unit := fun s => .ok () { s with log := s.log.push event }

/-- Attaches `child` to `parent`. -/
def attach (parent child : FailureId) : Act σ Unit := fun s =>
  .ok () { s with heap := s.heap.attach parent child }

/-- Panics with a failure, after showing it in full to the log. -/
def raise (f : FailureId) : Act σ α := fun s =>
  .error (.failure f)
    { s with log := s.log.push (.raisedAsPanic (s.heap.kind f) (s.heap.render f)) }

/-- Runs an act; however it ends, `after` is done next. -/
def ensuring (act : Act σ α) (after : Act σ Unit) : Act σ α := fun s =>
  match act s with
  | .ok a s => (after.map fun _ => a) s
  | .error p s =>
      match after s with
      | .ok _ s => .error p s
      | .error p s => .error p s

/-- Runs an act and gives how it ended, so that nothing leaves it. -/
def caught (act : Act σ α) : Act σ (Except Payload α) := fun s =>
  match act s with
  | .ok a s => .ok (.ok a) s
  | .error p s => .ok (.error p) s

/-- The scene that an act leaves, however it ends. -/
def after (act : Act σ α) (s : Scene σ) : Scene σ :=
  match act.run s with
  | .ok _ t => t
  | .error _ t => t

/-! ### How acts run -/

@[simp] theorem run_onHeap (g : Heap → α × Heap) (s : Scene σ) :
    (onHeap g).run s = .ok (g s.heap).1 { s with heap := (g s.heap).2 } := rfl

@[simp] theorem run_ask (g : Heap → α) (s : Scene σ) : (ask g).run s = .ok (g s.heap) s := rfl

@[simp] theorem run_emit (event : Event) (s : Scene σ) :
    (emit event).run s = .ok () { s with log := s.log.push event } := rfl

@[simp] theorem run_attach (parent child : FailureId) (s : Scene σ) :
    (attach parent child).run s = .ok () { s with heap := s.heap.attach parent child } := rfl

@[simp] theorem run_raise (f : FailureId) (s : Scene σ) :
    (raise f : Act σ α).run s = .error (.failure f)
      { s with log := s.log.push (.raisedAsPanic (s.heap.kind f) (s.heap.render f)) } := rfl

theorem run_caught (act : Act σ α) (s : Scene σ) :
    (caught act).run s =
      match act.run s with
      | .ok a t => .ok (.ok a) t
      | .error p t => .ok (.error p) t := rfl

theorem after_of_ok {act : Act σ α} {s t : Scene σ} {a : α} (h : act.run s = .ok a t) :
    act.after s = t := by
  simp [after, h]

theorem after_of_error {act : Act σ α} {s t : Scene σ} {p : Payload}
    (h : act.run s = .error p t) : act.after s = t := by
  simp [after, h]

end Act

/-- A `τ` within a `σ`. -/
structure Place (σ τ : Type) where
  get : σ → τ
  set : σ → τ → σ

namespace Place

variable {σ τ α : Type}

/-- All of it. -/
def whole : Place σ σ := ⟨id, fun _ a => a⟩

/-- The first of two. -/
def first : Place (σ × τ) σ := ⟨Prod.fst, fun s a => (a, s.2)⟩

/-- The second of two. -/
def second : Place (σ × τ) τ := ⟨Prod.snd, fun s b => (s.1, b)⟩

/-- Runs an act at a place. -/
def run (p : Place σ τ) (act : Act τ α) : Act σ α := fun s =>
  match act { heap := s.heap, log := s.log, focus := p.get s.focus } with
  | .ok a t => .ok a { heap := t.heap, log := t.log, focus := p.set s.focus t.focus }
  | .error e t => .error e { heap := t.heap, log := t.log, focus := p.set s.focus t.focus }

end Place
end Teardown
