/-
# Runs among other changes to the heap

Between the operations of a run the heap changes: things happen to failures
elsewhere, and what is offered is turned into a failure first. A rule says, for the
scene that such a change happens in, which heaps may come of it. A run abides by the
rule if every change in it does. Then a run leads from moment to moment with nothing
but such changes in between (`Collector.follows_playAll`), and what the moments and
the rule preserve holds at every moment and at the end (`Collector.Follows.fold`,
`Collector.Follows.split`). Of a run that no rule is given for it can still be said
that its moments are linked (`Collector.linked_momentsOf`).

Key definitions: `Collector.Rule`, `Collector.RunAbides`, `Collector.Follows`.
Key theorems: `Collector.follows_playAll`, `Collector.Follows.fold`,
`Collector.Follows.split`, `Collector.linked_momentsOf`.
-/
import Teardown.Proofs.Collector.Run

namespace Teardown
namespace Collector

/-- Which heaps may come of a change beside the collector. Turning an error into a
failure is always such a change. -/
structure Rule where
  allows : Scene Collector → Heap → Prop
  ofError : ∀ s e, allows s (s.heap.ofError e).2

mutual

/-- Whatever the uses of a resource change beside the collector abides by the rule. -/
def Client.Abides (R : Rule) : Client → Scene Collector → Prop
  | .mk uses _, s => RunAbides R uses s

/-- Whatever a use changes beside the collector abides by the rule. A resource is only
released for an open collector. -/
def Use.Abides (R : Rule) : Use → Scene Collector → Prop
  | .operation (.add offer), s => R.allows s (offer s.heap).2
  | .operation _, _ => True
  | .closeSuppressing none, _ => True
  | .closeSuppressing (some client), s => s.focus.closed = false → client.Abides R s
  | .elsewhere change, s => R.allows s (change s.heap)

/-- Whatever changes beside the collector in a run abides by the rule. -/
def RunAbides (R : Rule) : List Use → Scene Collector → Prop
  | [], _ => True
  | use :: rest, s => use.Abides R s ∧ RunAbides R rest (use.act.after s)

end

/-- What is offered at a moment comes of a change that abides by the rule. -/
def Moment.Abides (R : Rule) (m : Moment) : Prop :=
  ∀ offer, m.operation = .add offer → R.allows m.before (offer m.before.heap).2

/-- The moments lead from one scene to another, and so do the changes in between, which
abide by the rule. -/
inductive Follows (R : Rule) : Scene Collector → List Moment → Scene Collector → Prop where
  | nil (s : Scene Collector) : Follows R s [] s
  | elsewhere {s t : Scene Collector} {ms : List Moment} {heap : Heap} (h : R.allows s heap)
      (rest : Follows R { s with heap } ms t) : Follows R s ms t
  | moment {m : Moment} {ms : List Moment} {t : Scene Collector} (h : m.Abides R)
      (rest : Follows R m.after ms t) : Follows R m.before (m :: ms) t

namespace Follows

variable {R : Rule} {s t u : Scene Collector} {ms ns : List Moment}

theorem append (h₁ : Follows R s ms t) (h₂ : Follows R t ns u) : Follows R s (ms ++ ns) u := by
  induction h₁ with
  | nil => exact h₂
  | elsewhere h _ ih => exact .elsewhere h (ih h₂)
  | moment h _ ih => exact .moment h (ih h₂)

/-- **What holds of a run.** What the changes preserve, and every moment, beside what
is gathered from the moments, holds at the end. -/
theorem fold {γ : Type} {gather : γ → Moment → γ} {P : γ → Scene Collector → Prop}
    (helsewhere : ∀ g s heap, R.allows s heap → P g s → P g { s with heap })
    (h : Follows R s ms t)
    (hstep : ∀ g, ∀ m ∈ ms, m.Abides R → P g m.before → P (gather g m) m.after) :
    ∀ {g : γ}, P g s → P (ms.foldl gather g) t := by
  induction h with
  | nil => exact fun hg => hg
  | elsewhere ha _ ih => exact fun hg => ih hstep (helsewhere _ _ _ ha hg)
  | @moment m ms t ha _ ih =>
    intro g hg
    have hm := hstep g m (List.mem_cons_self ..) ha hg
    exact ih (fun g m' hm' => hstep g m' (List.mem_cons_of_mem _ hm')) hm

/-- A run up to one of its moments, and from there on. -/
theorem split {m : Moment} {before after : List Moment}
    (h : Follows R s (before ++ m :: after) t) :
    Follows R s before m.before ∧ m.Abides R ∧ Follows R m.after after t := by
  generalize hms : before ++ m :: after = ms at h
  induction h generalizing before with
  | nil => simp at hms
  | elsewhere ha _ ih =>
    obtain ⟨hbefore, hm, hafter⟩ := ih hms
    exact ⟨.elsewhere ha hbefore, hm, hafter⟩
  | moment ha rest ih =>
    cases before with
    | nil =>
      obtain ⟨rfl, rfl⟩ := List.cons.inj hms
      exact ⟨.nil _, ha, rest⟩
    | cons m' before =>
      obtain ⟨rfl, hrest⟩ := List.cons.inj hms
      obtain ⟨hbefore, hm, hafter⟩ := ih hrest
      exact ⟨.moment ha hbefore, hm, hafter⟩

end Follows

section

variable {R : Rule}

theorem Follows.single {m : Moment} (h : m.Abides R) : Follows R m.before [m] m.after :=
  .moment h (.nil _)

/-- The error of a resource abides by the rule when it is recorded. -/
theorem abides_addError (e : ErrorValue) (s : Scene Collector) :
    (⟨.add (·.ofError e), s⟩ : Moment).Abides R := by
  rintro offer ⟨⟩
  exact R.ofError s e

mutual

theorem follows_client : ∀ (client : Client) (s : Scene Collector), s.focus.closed = false →
    client.Abides R s →
    Follows R s (client.moments s) ((Use.closeSuppressing (some client)).act.after s)
  | .mk uses ending, s, hc, ha => by
    have hl := follows_playAll uses s ha
    have hafter := after_closeSuppressing hc uses ending
    match ending with
    | .ok (.error e) =>
      rw [hafter]
      show Follows R _ _ ((addError e).after _)
      rw [after_addError]
      exact hl.append (Follows.single (abides_addError e ((playAll uses).after s)))
    | .ok (.ok ()) =>
      rw [hafter]
      show Follows R _ (momentsOf uses s ++ []) _
      rw [List.append_nil]
      exact hl
    | .error payload =>
      rw [hafter]
      show Follows R _ (momentsOf uses s ++ []) _
      rw [List.append_nil]
      exact hl

theorem follows_use : ∀ (use : Use) (s : Scene Collector), use.Abides R s →
    Follows R s (use.moments s) (use.act.after s)
  | .operation op, s, ha => by
    rw [after_operation]
    refine Follows.single (m := ⟨op, s⟩) ?_
    rintro offer rfl
    exact ha
  | .closeSuppressing none, s, _ => by
    have hafter : ((Use.closeSuppressing none).act.after s) = s := by
      cases hc : s.focus.closed <;>
        simp [Use.act, Collector.closeSuppressing, Place.run_whole, Act.after, hc]
    rw [hafter]
    exact .nil _
  | .closeSuppressing (some client), s, ha => by
    rw [Use.moments]
    cases hc : s.focus.closed with
    | true =>
      rw [after_closeSuppressing_of_closed hc]
      exact .nil _
    | false => exact follows_client client s hc (ha hc)
  | .elsewhere change, s, ha => .elsewhere ha (.nil _)

/-- **A run leads from moment to moment with changes that abide by the rule.** -/
theorem follows_playAll : ∀ (uses : List Use) (s : Scene Collector), RunAbides R uses s →
    Follows R s (momentsOf uses s) ((playAll uses).after s)
  | [], s, _ => .nil s
  | use :: rest, s, ⟨ha, hrest⟩ => by
    rw [momentsOf, after_playAll_cons]
    exact (follows_use use s ha).append (follows_playAll rest _ hrest)

end

end

/-! ### Without a rule -/

/-- Nothing is asked of the changes. -/
def Rule.any : Rule where
  allows _ _ := True
  ofError _ _ := trivial

mutual

theorem Client.abides_any : ∀ (client : Client) (s : Scene Collector), client.Abides .any s
  | .mk uses _, s => by
    rw [Client.Abides]
    exact runAbides_any uses s

theorem Use.abides_any : ∀ (use : Use) (s : Scene Collector), use.Abides .any s
  | .operation op, s => by cases op <;> trivial
  | .closeSuppressing none, _ => trivial
  | .closeSuppressing (some client), s => by
    rw [Use.Abides]
    exact fun _ => client.abides_any s
  | .elsewhere _, _ => trivial

theorem runAbides_any : ∀ (uses : List Use) (s : Scene Collector), RunAbides .any uses s
  | [], _ => trivial
  | use :: rest, s => ⟨use.abides_any s, runAbides_any rest _⟩

end

/-- What changes beside the collector is neither the collector nor the log. -/
theorem Follows.linked {R : Rule} {s t : Scene Collector} {ms : List Moment}
    (h : Follows R s ms t) : Linked s.beside ms t.beside := by
  induction h with
  | nil s => exact .nil _
  | elsewhere _ _ ih => exact ih
  | moment _ _ ih => exact .cons ih

/-- **A run leads from moment to moment.** -/
theorem linked_momentsOf (uses : List Use) (s : Scene Collector) :
    Linked s.beside (momentsOf uses s) ((playAll uses).after s).beside :=
  (follows_playAll uses s (runAbides_any uses s)).linked

end Collector
end Teardown
