/-
# The causes of every failure that a script can reach

Whatever a script does, it leaves a heap that has only grown. So origins refer
to older failures, the walk along the sources of any failure ends, a new failure
shows what it was made of, and nothing that is done later changes what a failure
shows (`causes_settled`).

Key definitions: `Script.heapAfter`, `Heap.SourcesSettled`, `Heap.ChainShown`.
Key theorems: `Script.grows_heapAfter`, `Script.causes_settled`.
-/
import Teardown.Proofs.Failure.Causes
import Teardown.Proofs.Script.Growing

namespace Teardown

namespace Heap

/-- What is settled about the sources of a failure of `h`, for a heap `later` that
comes of `h`. -/
structure SourcesSettled (h later : Heap) (f : FailureId) : Prop where
  /-- The failure's origin refers to older failures only. -/
  older : (h.origin f).All (· < f)
  origin : later.origin f = h.origin f
  /-- The walk along the failure's sources ends and shows what a report shows. -/
  walk (lines : List String) : h.Walk (.ofFailure f) lines ↔ lines = (h.report f).causes
  causes : (later.report f).causes = (h.report f).causes
  /-- What stands for the failure under a limit shows the same. -/
  limited (limit : Nat) :
    ((h.limit limit f).2.report (h.limit limit f).1).causes = (h.report f).causes
  /-- All that limiting the failure makes are copies that show the same as their
  originals. -/
  copies (limit : Nat) (copy : FailureId) (hnew : h.size ≤ copy)
    (hlt : copy < (h.limit limit f).2.size) :
    ∃ original kept, original < h.size ∧
      (h.limit limit f).2.get? copy = some (h.truncatedCopy original kept) ∧
      ((h.limit limit f).2.report copy).causes = (h.report original).causes

/-- What failures that are made of an error show: its chain, which is what the
walk from it shows, or the rest of the chain. -/
structure ChainShown (h : Heap) (e : ErrorValue) : Prop where
  walk (lines : List String) : h.Walk (.reached e) lines ↔ lines = e.chain h
  causedBy (message : String) :
    ((h.causedBy message e).2.report (h.causedBy message e).1).causes = e.chain h
  wrap : ((h.wrap e).2.report (h.wrap e).1).causes = (e.chain h).tail

theorem Grows.sourcesSettled {h later : Heap} (hg : h.Grows later) (hh : h.Sound) {f : FailureId}
    (hf : f < h.size) : SourcesSettled h later f where
  older := hh.origin f
  origin := hg.origin_eq hf
  walk _ := walk_iff_causes hh
  causes := hg.causes_eq hh hf
  limited limit := causes_limit hh limit hf
  copies limit _ hnew hlt := causes_of_mem_limit hh limit hf hnew hlt

theorem Sound.chainShown {h : Heap} (hh : h.Sound) {e : ErrorValue} (he : e.All (· < h.size)) :
    ChainShown h e where
  walk _ := walk_iff_chain hh
  causedBy message := causes_causedBy hh message he
  wrap := causes_wrap hh he

end Heap

namespace Script

theorem after_playAll_cons (step : Step) (rest : List Step) (s : Scene Session) :
    (playAll (step :: rest)).after s =
      match step.play.run s with
      | .ok _ t => (playAll rest).after t
      | .error _ t => t := by
  simp only [Act.after, playAll, EStateM.run_bind]
  cases step.play.run s with
  | error p t => rfl
  | ok answer t =>
    simp only
    cases (playAll rest).run t <;> rfl

/-- A script goes on where another one has ended, if that did not break off. -/
theorem after_playAll_append (later : List Step) : ∀ (before : List Step) (s : Scene Session),
    (playAll (before ++ later)).after s = (playAll later).after ((playAll before).after s) ∨
      (playAll (before ++ later)).after s = (playAll before).after s
  | [], _ => .inl rfl
  | step :: before, s => by
    rw [List.cons_append, after_playAll_cons, after_playAll_cons]
    cases step.play.run s with
    | error p t => exact .inr rfl
    | ok answer t => exact after_playAll_append later before t

/-- The heap that a script leaves. -/
def heapAfter (steps : List Step) : Heap := ((playAll steps).after { focus := {} }).heap

theorem sound_heapAfter (steps : List Step) :
    (heapAfter steps).Sound ∧
      Session.known (heapAfter steps).size ((playAll steps).after { focus := {} }).focus := by
  obtain ⟨hgrown, hfocus⟩ := (grows_playAll steps).after (s := { focus := {} }) (Nat.zero_le _)
    Heap.sound_empty Session.known_new
  exact ⟨hgrown.sound Heap.sound_empty, hfocus⟩

/-- **What a script leaves grows as the script goes on.** -/
theorem grows_heapAfter (before later : List Step) :
    (heapAfter before).Grows (heapAfter (before ++ later)) := by
  obtain ⟨hsound, hfocus⟩ := sound_heapAfter before
  unfold heapAfter
  rcases after_playAll_append later before { focus := {} } with hafter | hafter
  · rw [hafter]
    exact ((grows_playAll later).after (Nat.zero_le _) hsound hfocus).1
  · rw [hafter]
    exact .refl

/-- **Causes are settled once a failure is made.** In the heap that any script
leaves, a failure's origin refers to older failures and never changes. So asking
for sources ends, with what a report gives as causes; and whatever the script
does next, they stay the same, as they do in all that limiting makes. A failure
that is made of an error shows the error's chain if the error is its source, and
the rest of the chain if it stands in for the error. -/
theorem causes_settled (before later : List Step) :
    (∀ f < (heapAfter before).size,
      (heapAfter before).SourcesSettled (heapAfter (before ++ later)) f) ∧
    ∀ e : ErrorValue, e.All (· < (heapAfter before).size) → (heapAfter before).ChainShown e := by
  obtain ⟨hsound, -⟩ := sound_heapAfter before
  exact ⟨fun f hf => (grows_heapAfter before later).sourcesSettled hsound hf,
    fun e he => hsound.chainShown he⟩

/-- A step whose failure is bound to a name. -/
def bound (name : Name) (action : Action) : Step := .plain { binds := some name } action

/-- A failure under a context, one that stands in for an I/O error which stands
for that, and a circle of suppressed failures. -/
def circle : List Step :=
  [bound "a" (.make .error "a"),
    bound "b" (.causedBy "b" (.context "while closing" (.failure "a"))),
    bound "c" (.wrap (.io ⟨.other, .failure "b"⟩)),
    bound "a" (.attach "a" "b"), bound "b" (.attach "b" "a")]

/-- The walk from the last failure goes through all of them, and still does after
they have been added to a collector. -/
theorem causes_settled_circle :
    let later := [.plain {} (.setup "d" { limit := some 1 }),
      .plain {} (.collector "d" (.add (.failure "c"))),
      .plain {} (.collector "d" (.add (.failure "a")))]
    2 < (heapAfter circle).size ∧
      (heapAfter circle).Walk (.ofFailure 2) ["while closing", "a"] ∧
      ((heapAfter (circle ++ later)).report 2).causes = ["while closing", "a"] ∧
      (heapAfter circle).Walk (.reached (.failure 2)) ["b", "while closing", "a"] := by
  intro later
  have hf : 2 < (heapAfter circle).size := by decide +kernel
  have hcauses : ((heapAfter circle).report 2).causes = ["while closing", "a"] := by
    decide +kernel
  have hchain : (ErrorOf.failure 2).chain (heapAfter circle) = ["b", "while closing", "a"] := by
    decide +kernel
  obtain ⟨hfailures, herrors⟩ := causes_settled circle later
  have hsettled := hfailures 2 hf
  refine ⟨hf, (hsettled.walk _).mpr hcauses.symm, hsettled.causes.trans hcauses, ?_⟩
  exact ((herrors (.failure 2) hf).walk _).mpr hchain.symm

end Script
end Teardown
