/-
# Collectors only grow the heap

What is known of a collector is that its primary failure and the roots that its
supplier gives exist. Every act on a collector keeps it, and so do a release on
a collector's behalf, a scope and the release of a sequence, if what they are
given to run does.

Key definitions: `Collector.known`.
Key theorems: `Collector.grows_add`, `Collector.grows_closeSuppressing`,
`Collector.grows_scope`, `grows_releaseAll`.
-/
import Teardown.Collector.Scope
import Teardown.Proofs.Act
import Teardown.Proofs.Collector.Adding

namespace Teardown

open Act

/-- What a supplier gives when it is asked for a root. -/
theorem Heap.yields_rootIn {h k : Heap} {supply : Supply} {root : FailureId}
    (hs : ∀ r, supply = .root r → r < h.size) (hr : supply.rootIn h = .ok (root, k)) :
    h.Yields (root, k) := by
  cases supply with
  | root r =>
    cases hr
    exact yields_self (hs _ rfl)
  | fresh message =>
    cases hr
    exact yields_new .error message
  | nothing =>
    cases hr
    exact yields_new .missingRoot missingRootMessage
  | panics message => simp [Supply.rootIn] at hr

namespace Collector

/-- The primary failure and the roots of the supplier exist. -/
def known : Upto Collector where
  holds n c := (∀ f, c.primary = some f → f < n) ∧ ∀ r, c.Gives r → r < n
  mono hmn h :=
    ⟨fun f hf => Nat.lt_of_lt_of_le (h.1 f hf) hmn, fun r hr => Nat.lt_of_lt_of_le (h.2 r hr) hmn⟩

variable {c d : Collector} {n : Nat} {f : FailureId}

/-- A collector with nothing in it and the same supplier. -/
theorem known_emptied (hc : known n c) (hp : d.primary = none) (hs : d.supplier = c.supplier) :
    known n d :=
  ⟨by simp [hp], fun r hr => hc.2 r ((gives_of_eq hs r).mp hr)⟩

/-- A collector with the same failure in it and the same supplier. -/
theorem known_of_eq (hc : known n c) (hp : d.primary = c.primary) (hs : d.supplier = c.supplier) :
    known n d :=
  ⟨hp ▸ hc.1, fun r hr => hc.2 r ((gives_of_eq hs r).mp hr)⟩

theorem known_new : known n {} := ⟨by simp, by simp [Gives]⟩

theorem known_withLimit (hc : known n c) (limit : Nat) : known n (c.withLimit limit) :=
  known_of_eq hc rfl rfl

theorem known_withSupplier {answer : Nat → Supply} (ha : ∀ k r, answer k = .root r → r < n) :
    known n (withSupplier answer) := by
  refine ⟨by simp [withSupplier], ?_⟩
  rintro r ⟨supplier, k, hs, hk⟩
  cases hs
  exact ha k r hk

/-! ### Acts on a collector -/

theorem grows_ensureOpen : Grows known n ensureOpen .any := by
  refine grows_of_run fun s _ _ hc => ?_
  rw [run_ensureOpen]
  cases s.focus.closed with
  | true => exact ⟨rfl, hc, trivial⟩
  | false => exact ⟨rfl, hc, trivial⟩

/-- **Adding a failure that exists.** -/
theorem grows_add (hf : f < n) : Grows known n (Collector.add f) .any := by
  intro s hn hh hc
  obtain ⟨hlimit, hlt⟩ := Heap.yields_limit hh s.focus.limit (Nat.lt_of_lt_of_le hf hn)
  have hcounted : known s.heap.size s.focus.counted := known_of_eq hc rfl rfl
  have hcalled : ∀ {supplier : Supplier}, s.focus.supplier = some supplier →
      ∀ k r, supplier.answer k = .root r → r < s.heap.size :=
    fun hs k r hk => hc.2 r ⟨_, k, hs, hk⟩
  have hadd := added f s
  generalize (Collector.add f).run s = r at hadd
  cases hadd with
  | rejected _ heap hh' =>
    rcases hh' with rfl | rfl
    · exact ⟨.refl, hcounted, trivial⟩
    · exact ⟨hlimit, known.mono hlimit.size_le hcounted, trivial⟩
  | dropped => exact ⟨.refl, known_of_eq hc rfl rfl, trivial⟩
  | again => exact ⟨hlimit, known.mono hlimit.size_le hcounted, trivial⟩
  | attached _ _ primary _ _ limited hl =>
    subst hl
    have hgrown := hlimit.attach primary hlt
    exact ⟨hgrown, known.mono hgrown.size_le hcounted, trivial⟩
  | recorded _ _ _ _ limited hl =>
    subst hl
    refine ⟨hlimit, ⟨?_, fun r hr => ?_⟩, trivial⟩
    · rintro p ⟨⟩
      exact hlt
    · exact Nat.lt_of_lt_of_le (hc.2 r ((gives_of_eq rfl r).mp hr)) hlimit.size_le
  | supplied _ _ _ supplier hs limited hl root heap hr =>
    subst hl
    obtain ⟨hroot, hrlt⟩ := Heap.yields_rootIn
      (fun r hk => Nat.lt_of_lt_of_le (hcalled hs _ r hk) hlimit.size_le) hr
    have hgrown := (hlimit.trans hroot).attach root (Nat.lt_of_lt_of_le hlt hroot.size_le)
    refine ⟨hgrown, ⟨?_, fun r hr => ?_⟩, trivial⟩
    · rintro p ⟨⟩
      rw [Heap.size_attach]
      exact hrlt
    · exact Nat.lt_of_lt_of_le (hc.2 r ((gives_called hs rfl r).mp hr)) hgrown.size_le
  | unsupplied _ _ _ supplier hs message =>
    refine ⟨hlimit, ⟨fun p hp => ?_, fun r hr => ?_⟩, trivial⟩
    · exact Nat.lt_of_lt_of_le (hc.1 p hp) hlimit.size_le
    · exact Nat.lt_of_lt_of_le (hc.2 r ((gives_called hs rfl r).mp hr)) hlimit.size_le

theorem grows_addError {e : ErrorValue} (he : Upto.error n e) :
    Grows known n (addError e) .any := by
  refine (grows_yields fun h hn _ => Heap.yields_ofError (Upto.error.mono hn he)).bind ?_
  intro m g _ hg
  exact grows_add hg

theorem grows_drain : Grows known n drain (.optional .failure) :=
  grows_of_run fun _ _ _ hc => ⟨rfl, known_emptied hc rfl rfl, hc.1⟩

theorem grows_take : Grows known n take (.optional .failure) :=
  grows_ensureOpen.bind fun _ _ _ _ => grows_drain

theorem grows_takeAndPanic : Grows known n takeAndPanic .any := by
  refine grows_take.bind fun m taken _ ht => ?_
  cases taken with
  | none => exact grows_pure trivial
  | some f => exact grows_raise (ht f rfl)

theorem grows_panicKeeping : Grows known n panicKeeping .any := by
  refine Grows.get_bind fun s _ hc => ?_
  cases hp : s.focus.primary with
  | none => exact grows_pure trivial
  | some f => exact grows_raise (hc.1 f hp)

theorem grows_retire : Grows known n retire (.optional .failure) := by
  refine grows_of_run fun s _ _ hc => ?_
  rw [run_retire]
  cases hp : s.focus.primary with
  | none => exact ⟨rfl, known_emptied hc rfl rfl, by simp [Upto.optional]⟩
  | some f => exact ⟨rfl, known_emptied hc rfl rfl, fun g hg => hc.1 g (hp.trans hg)⟩

theorem grows_close : Grows known n close (.optional .failure) :=
  grows_ensureOpen.bind fun _ _ _ _ => grows_retire

theorem grows_drop : Grows known n drop .any := by
  refine grows_of_run fun s _ _ hc => ?_
  rw [run_drop]
  cases s.focus.primary with
  | none => exact ⟨rfl, hc, trivial⟩
  | some f =>
    cases s.focus.warnsOnDrop && !s.focus.closed with
    | true => exact ⟨rfl, hc, trivial⟩
    | false => exact ⟨rfl, hc, trivial⟩

/-! ### Releases -/

section

variable {σ α : Type} {J : Upto σ} {Q : Upto α}

/-- What the release of a resource gives. -/
abbrev ends : Upto (Except ErrorValue Unit) := .except .error .any

/-- A release on a collector's behalf grows the heap if the resource's does. -/
theorem grows_closeSuppressing {p : Place σ Collector} (hp : p.Keeps J known)
    {resource : Option (Release σ)} (hr : ∀ release, resource = some release →
      Grows J n release ends) : Grows J n (closeSuppressing p resource) .any := by
  refine (grows_ensureOpen.place hp).bind fun m _ hm _ => ?_
  cases resource with
  | none => exact grows_pure trivial
  | some release =>
    refine ((hr release rfl).mono hm).bind fun m result _ hresult => ?_
    cases result with
    | ok u => exact grows_pure trivial
    | error e => exact (grows_addError hresult).place hp

theorem grows_during {body : Act (Collector × σ) α} (hc : known n c)
    (hb : Grows (.both known J) n body Q) : Grows J n (during c body) Q := by
  intro s hn hh hJ
  have hrun : (during c body).run s = Act.refocus Prod.snd (fun a _ => a)
      ((Act.ensuring body (Place.first.run drop)).run
        { heap := s.heap, log := s.log, focus := (c, s.focus) }) := by
    show during c body s = _
    unfold during
    simp only
    cases h : (Act.ensuring body (Place.first.run drop))
        { heap := s.heap, log := s.log, focus := (c, s.focus) } <;> simp [EStateM.run, h, refocus]
  rw [hrun]
  have hbody : Grows (.both known J) n (Act.ensuring body (Place.first.run drop)) Q :=
    hb.ensuring (grows_drop.place Place.keeps_first)
  have hr := hbody { heap := s.heap, log := s.log, focus := (c, s.focus) } hn hh
    ⟨known.mono hn hc, hJ⟩
  exact hr.refocus (fun _ _ _ ht => ht.2) fun _ _ _ _ ha _ => ha

/-- **A scope grows the heap if its body does.** -/
theorem grows_scope {body : Act (Collector × σ) α} (hc : known n c)
    (hb : Grows (.both known J) n body .any) :
    Grows J n (scope c body) (.except .failure .any) := by
  refine grows_during hc (hb.bind fun m _ _ _ => ?_)
  refine (grows_close.place Place.keeps_first).bind fun m closed _ hclosed => ?_
  cases closed with
  | none => exact grows_pure trivial
  | some f => exact grows_pure (hclosed f rfl)

end

end Collector

/-- **Releasing a sequence of resources grows the heap if each resource does.** -/
theorem grows_releaseAll {σ : Type} {J : Upto σ} {n : Nat} {resources : List (Release σ)}
    (hr : ∀ release ∈ resources, Grows J n release Collector.ends) :
    Grows J n (releaseAll resources) (.except .failure .any) := by
  refine Collector.grows_scope Collector.known_new (grows_forM resources fun release hmem => ?_)
  refine Collector.grows_closeSuppressing Place.keeps_first ?_
  rintro _ ⟨⟩
  exact (hr release hmem).place Place.keeps_second

end Teardown
