/-
# Adding plain failures

Failures are plain to a collector if they are distinct, within its limit and do
not suppress one another. Added in turn they are kept as they are: the first is
the primary failure, the later ones are attached to it in order as long as the
limit lasts, and the rest are only counted (`afterAdding_plain`).

Key definitions: `Heap.gathered`, `Plain`, `Gathered`, `Collector.HasAdded`.
Key theorems: `Plain.gathered`, `Collector.run_keep_gathered`,
`Collector.HasAdded.add`, `Collector.afterAdding_plain`.
-/
import Teardown.Proofs.Collector.Round

namespace Teardown

namespace Heap

/-- The heap once failures have been gathered: the later ones are attached to the
first. -/
def gathered (h : Heap) : List FailureId → Heap
  | [] => h
  | p :: rest => rest.foldl (fun h f => h.attach p f) h

theorem gathered_concat (h : Heap) (p : FailureId) (rest : List FailureId) (f : FailureId) :
    h.gathered (p :: rest ++ [f]) = (h.gathered (p :: rest)).attach p f := by
  simp [gathered]

/-- Gathering changes no failure but the first. -/
theorem get?_gathered (h : Heap) {kept : List FailureId} {g : FailureId}
    (hg : kept.head? ≠ some g) : (h.gathered kept).get? g = h.get? g := by
  cases kept with
  | nil => rfl
  | cons p rest =>
    have hgp : g ≠ p := fun he => hg (congrArg some he.symm)
    rw [gathered]
    induction rest generalizing h with
    | nil => rfl
    | cons f rest ih => rw [List.foldl_cons, ih _ hg, get?_attach_of_ne h f hgp]

/-- A failure that is not the first is limited as it was. -/
theorem limit_gathered {h : Heap} {kept : List FailureId} {limit : Nat} {f : FailureId}
    (hf : f ∉ kept) (hlen : (h.suppressed f).length ≤ limit) :
    (h.gathered kept).limit limit f = (f, h.gathered kept) := by
  have hne : kept.head? ≠ some f := fun he => hf (List.mem_of_head? he)
  refine limit_of_le ?_
  rwa [suppressed, h.get?_gathered hne]

/-- What is gathered is suppressed by the first, in order. -/
theorem suppressed_gathered {h : Heap} {p : FailureId} {rest : List FailureId}
    (hp : p < h.size) (hrest : p ∉ rest) :
    (h.gathered (p :: rest)).suppressed p = h.suppressed p ++ rest := by
  rw [gathered]
  induction rest generalizing h with
  | nil => simp
  | cons f rest ih =>
    obtain ⟨hpf, hrest⟩ : p ≠ f ∧ p ∉ rest := by simpa using hrest
    rw [List.foldl_cons, ih (by rwa [size_attach]) hrest, suppressed_attach hp hpf, if_pos rfl,
      List.append_assoc]
    rfl

end Heap

/-- Distinct failures within a limit, none suppressed by another. -/
structure Plain (limit : Nat) (h : Heap) (fs : List FailureId) : Prop where
  nodup : fs.Nodup
  lt_size : ∀ f ∈ fs, f < h.size
  length_le : ∀ f ∈ fs, (h.suppressed f).length ≤ limit
  apart : ∀ f ∈ fs, ∀ g ∈ fs, g ≠ f → g ∉ h.suppressed f

theorem Plain.of_subset {limit : Nat} {h : Heap} {fs gs : List FailureId} (hfs : Plain limit h fs)
    (hnodup : gs.Nodup) (hsub : gs ⊆ fs) : Plain limit h gs where
  nodup := hnodup
  lt_size f hf := hfs.lt_size f (hsub hf)
  length_le f hf := hfs.length_le f (hsub hf)
  apart f hf g hg := hfs.apart f (hsub hf) g (hsub hg)

/-- Between the heaps `h` and `h'` the failures `kept` were gathered: the later ones
were attached to the first, in order and each once, and no other failure changed. -/
structure Gathered (h : Heap) (kept : List FailureId) (h' : Heap) : Prop where
  suppressed : ∀ p rest, kept = p :: rest → h'.suppressed p = h.suppressed p ++ rest
  once : ∀ p rest, kept = p :: rest →
    p ∉ rest ∧ rest.Nodup ∧ ∀ f ∈ rest, f ∉ h.suppressed p
  others : ∀ g, kept.head? ≠ some g → h'.get? g = h.get? g

theorem Plain.gathered {limit : Nat} {h : Heap} {kept : List FailureId}
    (hkept : Plain limit h kept) : Gathered h kept (h.gathered kept) where
  suppressed := by
    rintro p rest rfl
    have hp := hkept.lt_size p List.mem_cons_self
    exact Heap.suppressed_gathered hp (List.nodup_cons.mp hkept.nodup).1
  once := by
    rintro p rest rfl
    obtain ⟨hp, hrest⟩ := List.nodup_cons.mp hkept.nodup
    refine ⟨hp, hrest, fun f hf => ?_⟩
    have hne : f ≠ p := fun he => hp (he ▸ hf)
    exact hkept.apart p List.mem_cons_self f (List.mem_cons_of_mem p hf) hne
  others := fun g hg => h.get?_gathered hg

namespace Collector

section

variable {s : Scene Collector} {h : Heap}

/-- Keeping a failure in a round that has gathered others. -/
theorem run_keep_gathered {kept : List FailureId} {f : FailureId} (ho : s.focus.closed = false)
    (hs : s.focus.supplier = none) (hheap : s.heap = h.gathered kept)
    (hp : s.focus.primary = kept.head?) (hf : f ∉ kept)
    (hlen : (h.suppressed f).length ≤ s.focus.limit) :
    ∃ log, (keep f).run s = .ok ()
      ⟨h.gathered (kept ++ [f]), log, { s.focus with primary := (kept ++ [f]).head? }⟩ := by
  have hlimit : s.heap.limit s.focus.limit f = (f, s.heap) := by
    rw [hheap, Heap.limit_gathered hf hlen]
  cases kept with
  | nil =>
    have hp : s.focus.primary = none := hp
    simp [keep, ho, hs, hp, hlimit, Heap.gathered]
    exact hheap
  | cons p rest =>
    have hp : s.focus.primary = some p := hp
    have hpf : p ≠ f := fun he => hf (he ▸ List.mem_cons_self)
    have hfocus : { s.focus with primary := (p :: rest ++ [f]).head? } = s.focus :=
      with_primary hp
    rw [hfocus, Heap.gathered_concat, ← hheap]
    simp [keep, ho, hp, hpf, hlimit]

/-- A collector that was `c` in the heap `h` when it started a round has added
`fs`. -/
structure HasAdded (c : Collector) (h : Heap) (fs : List FailureId) (s : Scene Collector) :
    Prop where
  heap : s.heap = h.gathered (fs.take c.limit)
  focus : s.focus = { c with
    primary := (fs.take c.limit).head?
    observed := fs.length
    dropped := c.dropped + (fs.length - c.limit) }

theorem StartsRound.hasAdded_nil (hr : s.focus.StartsRound) : HasAdded s.focus s.heap [] s where
  heap := by simp [Heap.gathered]
  focus := by
    refine hr.eq.symm.trans ?_
    simp [hr.isOpen]

/-- One more plain failure. -/
theorem HasAdded.add {c : Collector} {fs : List FailureId} (hs : HasAdded c h fs s)
    (hc : c.closed = false) (hsup : c.supplier = none) {f : FailureId} (hf : f ∉ fs)
    (hlen : (h.suppressed f).length ≤ c.limit) :
    HasAdded c h (fs ++ [f]) ((Collector.add f).after s) := by
  have hlimit : s.focus.limit = c.limit := by rw [hs.focus]
  have hobserved : s.focus.observed = fs.length := by rw [hs.focus]
  have ho : s.focus.closed = false := by rw [hs.focus, hc]
  have hnone : s.focus.supplier = none := by rw [hs.focus, hsup]
  have hprimary : s.focus.primary = (fs.take c.limit).head? := by rw [hs.focus]
  by_cases hlt : fs.length < c.limit
  · -- it is kept
    have htake : fs.take c.limit = fs := List.take_of_length_le (Nat.le_of_lt hlt)
    have htake' : (fs ++ [f]).take c.limit = fs ++ [f] :=
      List.take_of_length_le (by simpa using Nat.succ_le_of_lt hlt)
    obtain ⟨log, hrun⟩ := run_keep_gathered (s := { s with focus := s.focus.counted }) ho hnone
      (htake ▸ hs.heap) (htake ▸ hprimary) hf (hlimit ▸ hlen)
    rw [← run_add_of_lt f s (by omega)] at hrun
    rw [Act.after_of_ok hrun]
    refine ⟨by rw [htake'], ?_⟩
    have hdropped : fs.length - c.limit = 0 := by omega
    have hdropped' : fs.length + 1 - c.limit = 0 := by omega
    simp [hs.focus, counted, htake', hdropped, hdropped']
  · -- it is dropped
    have hrun := run_add_of_le f s (by omega)
    rw [dropOver, EStateM.run_bind, run_ensureOpen, if_neg (by simp [counted, ho])] at hrun
    rw [Act.after_of_ok hrun]
    have htake : (fs ++ [f]).take c.limit = fs.take c.limit :=
      List.take_append_of_le_length (by omega)
    have hdropped : fs.length + 1 - c.limit = fs.length - c.limit + 1 := by omega
    refine ⟨by rw [htake]; exact hs.heap, ?_⟩
    simp [hs.focus, counted, htake, hdropped, Nat.add_assoc]

theorem HasAdded.afterAdding {c : Collector} (hc : c.closed = false) (hsup : c.supplier = none) :
    ∀ {gs fs : List FailureId} {s : Scene Collector}, HasAdded c h fs s → (fs ++ gs).Nodup →
      (∀ g ∈ gs, (h.suppressed g).length ≤ c.limit) →
      HasAdded c h (fs ++ gs) (afterAdding s gs)
  | [], fs, s, hs, _, _ => by
    rw [List.append_nil]
    exact hs
  | g :: gs, fs, s, hs, hnodup, hlen => by
    have happend : fs ++ g :: gs = (fs ++ [g]) ++ gs := by simp
    have hg : g ∉ fs := fun hg => (List.nodup_append.mp hnodup).2.2 g hg g List.mem_cons_self rfl
    rw [happend] at hnodup ⊢
    have hnext := hs.add hc hsup hg (hlen g List.mem_cons_self)
    exact hnext.afterAdding hc hsup hnodup fun x hx => hlen x (List.mem_cons_of_mem _ hx)

/-- **Plain failures added in turn.** -/
theorem afterAdding_plain (hr : s.focus.StartsRound) (hs : s.focus.supplier = none)
    {fs : List FailureId} (hplain : Plain s.focus.limit s.heap fs) :
    HasAdded s.focus s.heap fs (afterAdding s fs) :=
  hr.hasAdded_nil.afterAdding hr.isOpen hs hplain.nodup hplain.length_le

end

end Collector
end Teardown
