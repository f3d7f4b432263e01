/-
# Things in rounds

Releases go by polls, and what finishes in one poll comes in the order of the
members. So what finishes comes poll by poll, and that is the stable order by
the poll in which each finishes (`mergeSort_eq_byRound`); in that order the things
of the first poll come first (`mergeSort_eq_filter_append`).

Key definitions: `byRound`.
Key theorems: `mergeSort_eq_byRound`, `mergeSort_eq_filter_append`.
-/

namespace Teardown

variable {α : Type} {key : α → Nat}

/-- The things of the first so many rounds: round by round, in order within each. -/
def byRound (key : α → Nat) (rounds : Nat) (xs : List α) : List α :=
  (List.range rounds).flatMap fun p => xs.filter (key · = p)

theorem byRound_zero (xs : List α) : byRound key 0 xs = [] := rfl

theorem byRound_succ (n : Nat) (xs : List α) :
    byRound key (n + 1) xs = byRound key n xs ++ xs.filter (key · = n) := by
  simp [byRound, List.range_succ]

/-- Lists that agree on every round agree in rounds. -/
theorem byRound_congr {n : Nat} {xs ys : List α}
    (h : ∀ p, xs.filter (key · = p) = ys.filter (key · = p)) :
    byRound key n xs = byRound key n ys := by
  simp only [byRound, h]

/-- In a sorted list the next round comes after the earlier ones. -/
theorem filter_lt_append_filter_eq (n : Nat) : ∀ {xs : List α}, xs.Pairwise (key · ≤ key ·) →
    xs.filter (key · < n) ++ xs.filter (key · = n) = xs.filter (key · < n + 1)
  | [], _ => rfl
  | x :: xs, hs => by
    obtain ⟨hx, hs⟩ := List.pairwise_cons.mp hs
    have ih := filter_lt_append_filter_eq n hs
    simp only [List.filter_cons, decide_eq_true_eq]
    rcases Nat.lt_trichotomy (key x) n with hlt | heq | hgt
    · rw [if_pos hlt, if_neg (Nat.ne_of_lt hlt), if_pos (by omega), ← ih]
      rfl
    · have hnone : xs.filter (key · < n) = [] := by
        simp only [List.filter_eq_nil_iff, decide_eq_true_eq]
        intro y hy
        have := hx y hy
        omega
      rw [hnone, List.nil_append] at ih
      rw [if_neg (by omega), if_pos heq, if_pos (by omega), hnone, ih]
      rfl
    · rw [if_neg (by omega), if_neg (by omega), if_neg (by omega), ih]

/-- A sorted list is in rounds. -/
theorem byRound_of_pairwise {xs : List α} (hs : xs.Pairwise (key · ≤ key ·)) (n : Nat) :
    byRound key n xs = xs.filter (key · < n) := by
  induction n with
  | zero => simp [byRound_zero]
  | succ n ih => rw [byRound_succ, ih, filter_lt_append_filter_eq n hs]

section

variable (key)

/-- The order by keys, of which `List.mergeSort` is to make a sorted list. -/
def keyLe (x y : α) : Bool := key x ≤ key y

theorem keyLe_trans (x y z : α) (hxy : keyLe key x y = true) (hyz : keyLe key y z = true) :
    keyLe key x z = true := by
  simp only [keyLe, decide_eq_true_eq] at *
  omega

theorem keyLe_total (x y : α) : (keyLe key x y || keyLe key y x) = true := by
  simp only [keyLe, Bool.or_eq_true, decide_eq_true_eq]
  omega

/-- Sorting sorts. -/
theorem pairwise_mergeSort (xs : List α) :
    (xs.mergeSort (keyLe key)).Pairwise (key · ≤ key ·) :=
  (List.pairwise_mergeSort (keyLe_trans key) (keyLe_total key) xs).imp
    fun h => by simpa [keyLe] using h

/-- The things of one round are sorted as they are. -/
theorem pairwise_filter_eq (xs : List α) (p : Nat) :
    (xs.filter (key · = p)).Pairwise (key · ≤ key ·) := by
  refine List.pairwise_iff_forall_sublist.mpr fun {x y} hxy => ?_
  have hx : x ∈ xs.filter (key · = p) := hxy.mem (by simp)
  have hy : y ∈ xs.filter (key · = p) := hxy.mem (by simp)
  simp only [List.mem_filter, decide_eq_true_eq] at hx hy
  omega

/-- Sorting leaves the things of one round in order. -/
theorem filter_mergeSort (xs : List α) (p : Nat) :
    (xs.mergeSort (keyLe key)).filter (key · = p) = xs.filter (key · = p) := by
  have hround : (xs.filter (key · = p)).Pairwise (keyLe key · ·) :=
    (pairwise_filter_eq key xs p).imp fun h => by simpa [keyLe] using h
  have hsub : (xs.filter (key · = p)).Sublist (xs.mergeSort (keyLe key)) :=
    List.sublist_mergeSort (keyLe_trans key) (keyLe_total key) hround List.filter_sublist
  have hsub' := hsub.filter (key · = p)
  simp only [List.filter_filter, Bool.and_self] at hsub'
  refine (hsub'.eq_of_length ?_).symm
  exact ((List.mergeSort_perm xs (keyLe key)).filter (key · = p)).length_eq.symm

end

/-- **A stable sort puts things in rounds.** -/
theorem mergeSort_eq_byRound {xs : List α} {n : Nat} (hn : ∀ x ∈ xs, key x < n) :
    xs.mergeSort (keyLe key) = byRound key n xs := by
  have hall : (xs.mergeSort (keyLe key)).filter (key · < n) = xs.mergeSort (keyLe key) := by
    simpa [List.filter_eq_self] using hn
  calc xs.mergeSort (keyLe key)
      = byRound key n (xs.mergeSort (keyLe key)) := by
        rw [byRound_of_pairwise (pairwise_mergeSort key xs), hall]
    _ = byRound key n xs := byRound_congr (filter_mergeSort key xs)

/-- Finitely many things are in finitely many rounds. -/
theorem exists_key_lt (key : α → Nat) : ∀ xs : List α, ∃ n, ∀ x ∈ xs, key x < n
  | [] => ⟨0, by simp⟩
  | x :: xs => by
    obtain ⟨n, hn⟩ := exists_key_lt key xs
    refine ⟨max (key x + 1) n, fun y hy => ?_⟩
    rcases List.mem_cons.mp hy with rfl | hy
    · omega
    · have := hn y hy
      omega

/-- Sorted lists that agree on every round are equal. -/
theorem eq_of_filter_eq {xs ys : List α} (hxs : xs.Pairwise (key · ≤ key ·))
    (hys : ys.Pairwise (key · ≤ key ·))
    (h : ∀ p, xs.filter (key · = p) = ys.filter (key · = p)) : xs = ys := by
  obtain ⟨n, hn⟩ := exists_key_lt key (xs ++ ys)
  have hall : ∀ zs : List α, (∀ z ∈ zs, z ∈ xs ++ ys) → zs.filter (key · < n) = zs :=
    fun zs hz => List.filter_eq_self.mpr fun z hmem => by simpa using hn z (hz z hmem)
  calc xs = byRound key n xs := by
          rw [byRound_of_pairwise hxs, hall xs fun _ => List.mem_append_left ys]
    _ = byRound key n ys := byRound_congr h
    _ = ys := by rw [byRound_of_pairwise hys, hall ys fun _ => List.mem_append_right xs]

/-- **In a stable sort the first round comes first**, and the rest follows sorted. -/
theorem mergeSort_eq_filter_append {xs : List α} {n : Nat} (hn : ∀ x ∈ xs, n ≤ key x) :
    xs.mergeSort (keyLe key) =
      xs.filter (key · = n) ++ (xs.filter (n < key ·)).mergeSort (keyLe key) := by
  refine eq_of_filter_eq (pairwise_mergeSort key xs) ?_ fun p => ?_
  · refine List.pairwise_append.mpr ⟨pairwise_filter_eq key xs n, pairwise_mergeSort key _,
      fun x hx y hy => ?_⟩
    have hx : key x = n := by simpa using (List.mem_filter.mp hx).2
    have hy : n < key y := by simpa using (List.mem_filter.mp (List.mem_mergeSort.mp hy)).2
    omega
  · -- a round is that of the first part or of the rest
    rw [List.filter_append, filter_mergeSort, filter_mergeSort, List.filter_filter,
      List.filter_filter]
    by_cases hp : p = n
    · have hrest : xs.filter (fun x => decide (key x = p) && decide (n < key x)) = [] :=
        List.filter_eq_nil_iff.mpr fun x _ => by simp; omega
      rw [hrest, List.append_nil]
      exact List.filter_congr fun x _ => by simp; omega
    · have hfirst : xs.filter (fun x => decide (key x = p) && decide (key x = n)) = [] :=
        List.filter_eq_nil_iff.mpr fun x _ => by simp; omega
      rw [hfirst, List.nil_append]
      refine List.filter_congr fun x hx => ?_
      have := hn x hx
      simp
      omega

end Teardown
