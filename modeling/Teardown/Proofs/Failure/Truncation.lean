/-
# What limiting makes of a failure

Limiting a failure decides, way by way, on the failures that are met from it: on
the failure itself, and on the first suppressed failures of each one that it
finds over the limit, as many levels down as the limit allows. One that is within
the limit is kept as the same object. One that is over it is replaced by a copy,
a new one for every way on which it is met, so that a graph with sharing and
cycles comes out as a tree of copies with kept failures at its ends.

`Heap.StandsFor` tells this by the recursion of limiting, with the identities
that the copies are given; what a path leads to follows by induction on the path
(`Heap.StandsFor.follow`, `limit_exact`).

Key definitions: `Heap.Decides`, `Heap.AlongNew`, `Heap.CopyOf`, `Heap.StandsFor`.
Key theorems: `Heap.standsFor_limit`, `Heap.StandsFor.descend`,
`Heap.StandsFor.follow`, `Heap.StandsFor.path_unique`, `limit_exact`.
-/
import Teardown.Proofs.Failure.Causes
import Teardown.Proofs.Failure.Rendering

namespace Teardown
namespace Heap

/-- Limiting `f`, of which copies may go `levels` further down, decides on what a
path leads to: it takes one of the first suppressed failures at each step, and
each failure it comes through is over the limit. -/
structure Decides (h : Heap) (limit levels : Nat) (f : FailureId) (path : List Nat) : Prop where
  length_le : path.length ≤ levels
  lt_limit : ∀ i ∈ path, i < limit
  beyond : ∀ n < path.length, ∃ g, h.follow? f (path.take n) = some g ∧
    limit < (h.suppressed g).length

/-- In `k` a path can be followed from `x`, and the failures it comes through are
not in `h`. -/
def AlongNew (h k : Heap) (x : FailureId) (path : List Nat) : Prop :=
  (k.follow? x path).isSome ∧
    ∀ n < path.length, ∃ y, k.follow? x (path.take n) = some y ∧ h.size ≤ y

/-- In `k` a truncated copy of the failure `g` of `h` has been made. -/
structure CopyOf (h k : Heap) (g y : FailureId) : Prop where
  isNew : h.size ≤ y
  lt_size : y < k.size
  kind : k.kind y = .truncated
  message : k.message y = h.message g
  /-- The walk along its sources shows the same lines. -/
  walk (lines : List String) : k.Walk (.ofFailure y) lines ↔ h.Walk (.ofFailure g) lines
  /-- The same values are found in the error it comes from. -/
  find {α : Type} (pick : Found FailureId → Option α) : k.find? pick y = h.find? pick g

variable {h k k' : Heap} {limit levels lo hi i : Nat} {f g x y : FailureId} {path : List Nat}

/-! ### Paths -/

theorem decides_nil : h.Decides limit levels f [] := ⟨Nat.zero_le _, by simp, by simp⟩

theorem decides_cons : h.Decides limit levels f (i :: path) ↔
    ∃ below, levels = below + 1 ∧ limit < (h.suppressed f).length ∧ i < limit ∧
      ∃ g, (h.suppressed f)[i]? = some g ∧ h.Decides limit below g path := by
  constructor
  · rintro ⟨hlen, hlim, hover⟩
    obtain ⟨below, rfl⟩ : ∃ below, levels = below + 1 :=
      ⟨levels - 1, by rw [List.length_cons] at hlen; omega⟩
    obtain ⟨g₀, hg₀, hlt⟩ := hover 0 (Nat.succ_pos _)
    obtain rfl : f = g₀ := Option.some.inj hg₀
    have hi : i < limit := hlim i (List.mem_cons_self ..)
    obtain ⟨g, hg⟩ : ∃ g, (h.suppressed f)[i]? = some g :=
      ⟨_, List.getElem?_eq_getElem (Nat.lt_trans hi hlt)⟩
    refine ⟨below, rfl, hlt, hi, g, hg, Nat.le_of_succ_le_succ hlen,
      fun j hj => hlim j (List.mem_cons_of_mem _ hj), fun n hn => ?_⟩
    obtain ⟨x, hx, hltx⟩ := hover (n + 1) (Nat.succ_lt_succ hn)
    rw [List.take_succ_cons, follow?, hg] at hx
    exact ⟨x, hx, hltx⟩
  · rintro ⟨below, rfl, hlt, hi, g, hg, hlen, hlim, hover⟩
    refine ⟨Nat.succ_le_succ hlen, List.forall_mem_cons.mpr ⟨hi, hlim⟩, fun n hn => ?_⟩
    cases n with
    | zero => exact ⟨f, rfl, hlt⟩
    | succ n =>
      rw [List.take_succ_cons, follow?, hg]
      exact hover n (Nat.lt_of_succ_lt_succ hn)

theorem alongNew_nil : h.AlongNew k x [] := ⟨rfl, by simp⟩

theorem alongNew_cons : h.AlongNew k x (i :: path) ↔
    h.size ≤ x ∧ ∃ y, (k.suppressed x)[i]? = some y ∧ h.AlongNew k y path := by
  constructor
  · rintro ⟨hsome, hnew⟩
    obtain ⟨x₀, hx₀, hle⟩ := hnew 0 (Nat.succ_pos _)
    obtain rfl : x = x₀ := Option.some.inj hx₀
    cases hy : (k.suppressed x)[i]? with
    | none => simp [follow?, hy] at hsome
    | some y =>
      rw [follow?, hy] at hsome
      refine ⟨hle, y, rfl, hsome, fun n hn => ?_⟩
      obtain ⟨z, hz, hlez⟩ := hnew (n + 1) (Nat.succ_lt_succ hn)
      rw [List.take_succ_cons, follow?, hy] at hz
      exact ⟨z, hz, hlez⟩
  · rintro ⟨hle, y, hy, hsome, hnew⟩
    refine ⟨by rw [follow?, hy]; exact hsome, fun n hn => ?_⟩
    cases n with
    | zero => exact ⟨x, rfl, hle⟩
    | succ n =>
      rw [List.take_succ_cons, follow?, hy]
      exact hnew n (Nat.lt_of_succ_lt_succ hn)

/-! ### What stands for a failure -/

/-- In `k`, `x` stands for the failure `f` of `h`, of which copies may go `levels`
further down. The copies that were made for it have the identities from `lo` on
and below `hi`: those for its first suppressed failures, the `i`th from `marks i`
on, and then its own. -/
inductive StandsFor (h : Heap) (limit : Nat) (k : Heap) :
    (levels lo hi : Nat) → FailureId → FailureId → Prop where
  | kept {levels lo : Nat} {f : FailureId} (hf : f < h.size)
      (hle : (h.suppressed f).length ≤ limit) : StandsFor h limit k levels lo lo f f
  | bare {lo : Nat} {f : FailureId} (hlt : limit < (h.suppressed f).length)
      (hx : k.get? lo = some (h.truncatedCopy f [])) : StandsFor h limit k 0 lo (lo + 1) f lo
  | cut {levels : Nat} {f : FailureId} {kept : List FailureId} (marks : Nat → Nat)
      (hlt : limit < (h.suppressed f).length) (hlen : kept.length = limit)
      (hkept : ∀ i g y, (h.suppressed f)[i]? = some g → kept[i]? = some y →
        StandsFor h limit k levels (marks i) (marks (i + 1)) g y)
      (hx : k.get? (marks limit) = some (h.truncatedCopy f kept)) :
      StandsFor h limit k (levels + 1) (marks 0) (marks limit + 1) f (marks limit)

theorem StandsFor.mono (hs : StandsFor h limit k levels lo hi f x) (hk : k.Extends k') :
    StandsFor h limit k' levels lo hi f x := by
  induction hs with
  | kept hf hle => exact .kept hf hle
  | bare hlt hx => exact .bare hlt (hk _ _ hx)
  | cut marks hlt hlen _ hx ih => exact .cut marks hlt hlen ih (hk _ _ hx)

/-- What the steps give stands for what they are given, one after the other. -/
theorem standsFor_limitEach {step : Heap → FailureId → FailureId × Heap}
    (hext : ∀ (k : Heap) (f : FailureId), k.Extends (step k f).2)
    (hstep : ∀ (k : Heap) (f : FailureId), h.Extends k → f < h.size →
      StandsFor h limit (step k f).2 levels k.size (step k f).2.size f (step k f).1) :
    ∀ (fs : List FailureId) (k : Heap), h.Extends k → (∀ f ∈ fs, f < h.size) →
      ∃ marks : Nat → Nat, marks 0 = k.size ∧
        marks fs.length = (limitEach step k fs).2.size ∧
        ∀ i f y, fs[i]? = some f → (limitEach step k fs).1[i]? = some y →
          StandsFor h limit (limitEach step k fs).2 levels (marks i) (marks (i + 1)) f y
  | [], k, _, _ => ⟨fun _ => k.size, rfl, rfl, by simp⟩
  | f :: fs, k, hk, hfs => by
    obtain ⟨marks, hfirst, hlast, hrest⟩ := standsFor_limitEach hext hstep fs (step k f).2
      (hk.trans (hext k f)) fun g hg => hfs g (List.mem_cons_of_mem _ hg)
    refine ⟨fun i => i.casesOn k.size marks, rfl, hlast, fun i g y hg hy => ?_⟩
    cases i with
    | zero =>
      cases hg
      cases hy
      show StandsFor h limit _ levels k.size (marks 0) f _
      rw [hfirst]
      exact (hstep k f hk (hfs f (List.mem_cons_self ..))).mono (extends_limitEach hext fs _)
    | succ i => exact hrest i g y hg hy

/-- A copy says the same of a failure as long as the failure stands. -/
theorem truncatedCopy_eq (hk : h.Extends k) (hf : f < h.size) (kept : List FailureId) :
    k.truncatedCopy f kept = h.truncatedCopy f kept := by
  simp only [truncatedCopy, message, origin, hk.get?_eq hf]

/-- What a copy keeps. -/
theorem suppressed_copy {kept : List FailureId} (hx : k.get? x = some (h.truncatedCopy f kept)) :
    k.suppressed x = kept :=
  suppressed_of_get? hx

theorem standsFor_limitWithin (hh : h.Sound) (limit : Nat) : ∀ (levels : Nat) (k : Heap)
    (f : FailureId), h.Extends k → f < h.size →
      StandsFor h limit (limitWithin limit levels k f).2 levels k.size
        (limitWithin limit levels k f).2.size f (limitWithin limit levels k f).1 := by
  intro levels
  induction levels with
  | zero =>
    intro k f hk hf
    have hsup := hk.suppressed_eq hf
    unfold limitWithin
    split
    · exact .kept hf (by rwa [← hsup])
    · rename_i hlt
      rw [truncatedCopy_eq hk hf, size_alloc]
      exact .bare (by rw [← hsup]; omega) ((get?_alloc ..).trans (if_pos rfl))
  | succ levels ih =>
    intro k f hk hf
    have hsup := hk.suppressed_eq hf
    unfold limitWithin
    split
    · exact .kept hf (by rwa [← hsup])
    · rename_i hlt
      rw [hsup] at hlt ⊢
      have hext := extends_limitWithin limit levels
      obtain ⟨marks, hfirst, hlast, heach⟩ := standsFor_limitEach hext ih
        ((h.suppressed f).take limit) k hk fun g hg => hh.suppressed (List.mem_of_mem_take hg)
      have hlen : ((h.suppressed f).take limit).length = limit :=
        List.length_take_of_le (by omega)
      have hkept : (limitEach (limitWithin limit levels) k
          ((h.suppressed f).take limit)).1.length = limit := (length_limitEach _ k).trans hlen
      rw [hlen] at hlast
      dsimp only
      generalize limitEach (limitWithin limit levels) k ((h.suppressed f).take limit) = made
        at hlast hkept heach ⊢
      obtain ⟨kept, k'⟩ := made
      dsimp only at hlast hkept heach ⊢
      rw [truncatedCopy_eq hk hf, size_alloc, ← hfirst, ← hlast]
      show StandsFor h limit _ (levels + 1) (marks 0) (marks limit + 1) f k'.size
      rw [← hlast]
      refine .cut marks (by omega) hkept (fun i g y hg hy => ?_)
        ((get?_alloc ..).trans (if_pos hlast))
      -- what is kept is among the first ones
      have hi : i < limit := hkept ▸ (List.getElem?_eq_some_iff.mp hy).1
      exact (heach i g y ((List.getElem?_take_of_lt hi).trans hg) hy).mono (extends_alloc k' _)

/-- **What limiting gives stands for the failure that is limited.** -/
theorem standsFor_limit (hh : h.Sound) (limit : Nat) (hf : f < h.size) :
    StandsFor h limit (h.limit limit f).2 limit h.size (h.limit limit f).2.size f
      (h.limit limit f).1 :=
  standsFor_limitWithin hh limit limit h f (.refl h) hf

namespace StandsFor

/-- A copy keeps something for each of the first suppressed failures. -/
theorem exists_kept {kept : List FailureId} (hlt : limit < (h.suppressed f).length)
    (hlen : kept.length = limit) (hi : i < limit) :
    ∃ g y, (h.suppressed f)[i]? = some g ∧ kept[i]? = some y :=
  ⟨_, _, List.getElem?_eq_getElem (Nat.lt_trans hi hlt), List.getElem?_eq_getElem (hlen ▸ hi)⟩

theorem marks_le {marks : Nat → Nat} (hstep : ∀ i < limit, marks i ≤ marks (i + 1)) {a b : Nat}
    (hab : a ≤ b) (hb : b ≤ limit) : marks a ≤ marks b := by
  induction hab with
  | refl => exact Nat.le_refl _
  | step _ ih => exact Nat.le_trans (ih (Nat.le_of_succ_le hb)) (hstep _ hb)

theorem le (hs : StandsFor h limit k levels lo hi f x) : lo ≤ hi := by
  induction hs with
  | kept => exact Nat.le_refl _
  | bare => exact Nat.le_succ _
  | cut marks hlt hlen _ _ ih =>
    refine Nat.le_succ_of_le (marks_le (fun i hi => ?_) (Nat.zero_le _) (Nat.le_refl _))
    obtain ⟨g, y, hg, hy⟩ := exists_kept hlt hlen hi
    exact ih i g y hg hy

/-- The copies for earlier suppressed failures have lower identities. -/
theorem marks_le_marks {kept : List FailureId} {marks : Nat → Nat}
    (hlt : limit < (h.suppressed f).length) (hlen : kept.length = limit)
    (hkept : ∀ i g y, (h.suppressed f)[i]? = some g → kept[i]? = some y →
      StandsFor h limit k levels (marks i) (marks (i + 1)) g y) {a b : Nat} (hab : a ≤ b)
    (hb : b ≤ limit) : marks a ≤ marks b := by
  refine marks_le (fun i hi => ?_) hab hb
  obtain ⟨g, y, hg, hy⟩ := exists_kept hlt hlen hi
  exact (hkept i g y hg hy).le

/-- The copies for one suppressed failure are apart from those for another. -/
theorem marks_unique {kept : List FailureId} {marks : Nat → Nat}
    (hlt : limit < (h.suppressed f).length) (hlen : kept.length = limit)
    (hkept : ∀ i g y, (h.suppressed f)[i]? = some g → kept[i]? = some y →
      StandsFor h limit k levels (marks i) (marks (i + 1)) g y) {j : Nat} (hi : i < limit)
    (hj : j < limit) (hyi : marks i ≤ y ∧ y < marks (i + 1))
    (hyj : marks j ≤ y ∧ y < marks (j + 1)) : i = j := by
  rcases Nat.lt_trichotomy i j with hij | rfl | hij
  · have hmarks : marks (i + 1) ≤ marks j := marks_le_marks hlt hlen hkept hij (Nat.le_of_lt hj)
    exact absurd (Nat.lt_of_lt_of_le hyi.2 (Nat.le_trans hmarks hyj.1)) (Nat.lt_irrefl y)
  · rfl
  · have hmarks : marks (j + 1) ≤ marks i := marks_le_marks hlt hlen hkept hij (Nat.le_of_lt hi)
    exact absurd (Nat.lt_of_lt_of_le hyj.2 (Nat.le_trans hmarks hyi.1)) (Nat.lt_irrefl y)

/-- What stands for one of the first suppressed failures of a failure over the limit
is kept in its copy, and was made before the copy. -/
theorem descend (hs : StandsFor h limit k (levels + 1) lo hi f x)
    (hlt : limit < (h.suppressed f).length) (hlim : i < limit)
    (hg : (h.suppressed f)[i]? = some g) :
    ∃ y lo' hi', (k.suppressed x)[i]? = some y ∧ StandsFor h limit k levels lo' hi' g y ∧
      lo ≤ lo' ∧ lo ≤ x ∧ hi' ≤ x ∧ x < hi := by
  cases hs with
  | kept _ hle => exact absurd hle (Nat.not_le_of_lt hlt)
  | cut marks _ hlen hkept hx =>
    obtain ⟨-, y, -, hy⟩ := exists_kept hlt hlen hlim
    have hmarks : ∀ {a b : Nat}, a ≤ b → b ≤ limit → marks a ≤ marks b :=
      marks_le_marks hlt hlen hkept
    refine ⟨y, marks i, marks (i + 1), ?_, hkept i g y hg hy, hmarks (Nat.zero_le i) ?_,
      hmarks (Nat.zero_le limit) (Nat.le_refl _), hmarks hlim (Nat.le_refl _), Nat.lt_succ_self _⟩
    · rw [suppressed_copy hx]
      exact hy
    · exact Nat.le_of_lt hlim

/-- **What a path leads to stands for what it led to before**, if limiting decides
on it. -/
theorem follow (hs : StandsFor h limit k levels lo hi f x) (hd : h.Decides limit levels f path) :
    ∃ g y lo' hi', h.follow? f path = some g ∧ k.follow? x path = some y ∧
      StandsFor h limit k (levels - path.length) lo' hi' g y ∧ lo ≤ lo' ∧ hi' ≤ hi := by
  induction path generalizing levels lo hi f x with
  | nil => exact ⟨f, x, lo, hi, rfl, rfl, hs, Nat.le_refl _, Nat.le_refl _⟩
  | cons i path ih =>
    obtain ⟨down, rfl, hlt, hlim, g, hg, hd⟩ := decides_cons.mp hd
    obtain ⟨y, lo₁, hi₁, hy, hchild, hlo, -, hhi, hx⟩ := hs.descend hlt hlim hg
    obtain ⟨g', y', lo₂, hi₂, hg', hy', hs', hlo', hhi'⟩ := ih hchild hd
    refine ⟨g', y', lo₂, hi₂, ?_, ?_, ?_, Nat.le_trans hlo hlo', ?_⟩
    · rw [follow?, hg]
      exact hg'
    · rw [follow?, hy]
      exact hy'
    · rw [List.length_cons, Nat.add_sub_add_right]
      exact hs'
    · exact Nat.le_trans hhi' (Nat.le_trans hhi (Nat.le_of_lt hx))

/-- A way through new failures is one that limiting has decided on. -/
theorem decides_of_alongNew (hs : StandsFor h limit k levels lo hi f x)
    (hp : h.AlongNew k x path) : h.Decides limit levels f path := by
  induction path generalizing levels lo hi f x with
  | nil => exact decides_nil
  | cons i path ih =>
    obtain ⟨hle, y, hy, hrest⟩ := alongNew_cons.mp hp
    cases hs with
    | kept hf => exact absurd hf (Nat.not_lt_of_le hle)
    | bare _ hx =>
      rw [suppressed_copy hx] at hy
      cases hy
    | cut marks hlt hlen hkept hx =>
      rw [suppressed_copy hx] at hy
      have hi : i < limit := hlen ▸ (List.getElem?_eq_some_iff.mp hy).1
      obtain ⟨g, -, hg, -⟩ := exists_kept hlt hlen hi
      exact decides_cons.mpr ⟨_, rfl, hlt, hi, g, hg, ih (hkept i g y hg hy) hrest⟩

/-- A way that limiting has decided on is one through new failures. -/
theorem alongNew_of_decides (hs : StandsFor h limit k levels lo hi f x) (hnew : h.size ≤ lo)
    (hd : h.Decides limit levels f path) : h.AlongNew k x path := by
  induction path generalizing levels lo hi f x with
  | nil => exact alongNew_nil
  | cons i path ih =>
    obtain ⟨down, rfl, hlt, hlim, g, hg, hd⟩ := decides_cons.mp hd
    obtain ⟨y, lo₁, hi₁, hy, hchild, hlo, hx, -, -⟩ := hs.descend hlt hlim hg
    have hrest : h.AlongNew k y path := ih hchild (Nat.le_trans hnew hlo) hd
    exact alongNew_cons.mpr ⟨Nat.le_trans hnew hx, y, hy, hrest⟩

/-- A copy has one of the identities that were given to copies. -/
theorem mem_interval (hs : StandsFor h limit k levels lo hi f x) (hx : h.size ≤ x) :
    lo ≤ x ∧ x < hi := by
  cases hs with
  | kept hf => exact absurd hf (Nat.not_lt_of_le hx)
  | bare => exact ⟨Nat.le_refl _, Nat.lt_succ_self _⟩
  | cut marks hlt hlen hkept =>
    exact ⟨marks_le_marks hlt hlen hkept (Nat.zero_le _) (Nat.le_refl _), Nat.lt_succ_self _⟩

theorem follow_mem_interval (hs : StandsFor h limit k levels lo hi f x)
    (hd : h.Decides limit levels f path) (hy : k.follow? x path = some y) (hnew : h.size ≤ y) :
    lo ≤ y ∧ y < hi := by
  obtain ⟨g, y', lo', hi', -, hy', hs', hlo, hhi⟩ := hs.follow hd
  obtain rfl : y = y' := Option.some.inj (hy.symm.trans hy')
  obtain ⟨hle, hlt⟩ := hs'.mem_interval hnew
  exact ⟨Nat.le_trans hlo hle, Nat.lt_of_lt_of_le hlt hhi⟩

/-- The copy that a path leads to was made before the one it goes through. -/
theorem follow_lt (hs : StandsFor h limit k levels lo hi f x)
    (hd : h.Decides limit levels f (i :: path)) (hy : k.follow? x (i :: path) = some y)
    (hnew : h.size ≤ y) : y < x := by
  obtain ⟨down, rfl, hlt, hlim, g, hg, hrest⟩ := decides_cons.mp hd
  obtain ⟨z, lo₁, hi₁, hz, hchild, -, -, hhi, -⟩ := hs.descend hlt hlim hg
  rw [follow?, hz] at hy
  exact Nat.lt_of_lt_of_le (hchild.follow_mem_interval hrest hy hnew).2 hhi

/-- **Each copy is made for one path.** -/
theorem path_unique {p q : List Nat} (hs : StandsFor h limit k levels lo hi f x)
    (hp : h.Decides limit levels f p) (hq : h.Decides limit levels f q)
    (hpy : k.follow? x p = some y) (hqy : k.follow? x q = some y) (hnew : h.size ≤ y) : p = q := by
  induction p generalizing q levels lo hi f x with
  | nil =>
    cases q with
    | nil => rfl
    | cons j q =>
      cases hpy
      exact absurd (hs.follow_lt hq hqy hnew) (Nat.lt_irrefl _)
  | cons i p ih =>
    cases q with
    | nil =>
      cases hqy
      exact absurd (hs.follow_lt hp hpy hnew) (Nat.lt_irrefl _)
    | cons j q =>
      obtain ⟨down, rfl, hlt, hi, g, hg, hp⟩ := decides_cons.mp hp
      obtain ⟨_, hdown, -, hj, g', hg', hq⟩ := decides_cons.mp hq
      obtain rfl := Nat.succ.inj hdown
      cases hs with
      | kept _ hle => exact absurd hle (Nat.not_le_of_lt hlt)
      | cut marks _ hlen hkept hx =>
        obtain ⟨-, z, -, hz⟩ := exists_kept hlt hlen hi
        obtain ⟨-, z', -, hz'⟩ := exists_kept hlt hlen hj
        rw [follow?, suppressed_copy hx, hz] at hpy
        rw [follow?, suppressed_copy hx, hz'] at hqy
        have hchild := hkept i g z hg hz
        have hchild' := hkept j g' z' hg' hz'
        obtain rfl : i = j := marks_unique hlt hlen hkept hi hj
          (hchild.follow_mem_interval hp hpy hnew) (hchild'.follow_mem_interval hq hqy hnew)
        obtain rfl := Option.some.inj (hg.symm.trans hg')
        obtain rfl := Option.some.inj (hz.symm.trans hz')
        rw [ih hchild hp hq hpy hqy]

/-! ### What the copies are -/

/-- What is new in the place of a failure is a copy of it, with as many suppressed
failures as the limit allows or with none. -/
theorem copy (hs : StandsFor h limit k levels lo hi f x) (hlo : h.size ≤ lo)
    (hlt : limit < (h.suppressed f).length) :
    h.size ≤ x ∧ ∃ kept, k.get? x = some (h.truncatedCopy f kept) ∧
      kept.length = if 0 < levels then limit else 0 := by
  cases hs with
  | kept _ hle => exact absurd hlt (Nat.not_lt_of_le hle)
  | bare _ hx => exact ⟨hlo, [], hx, rfl⟩
  | cut marks _ hlen hkept hx =>
    refine ⟨?_, _, hx, ?_⟩
    · exact Nat.le_trans hlo (marks_le_marks hlt hlen hkept (Nat.zero_le _) (Nat.le_refl _))
    · rw [hlen, if_pos (Nat.succ_pos _)]

theorem eq_of_le (hs : StandsFor h limit k levels lo hi f x)
    (hle : (h.suppressed f).length ≤ limit) : x = f := by
  cases hs with
  | kept => rfl
  | bare hlt => exact absurd hle (Nat.not_le_of_lt hlt)
  | cut _ hlt => exact absurd hle (Nat.not_le_of_lt hlt)

/-- What stands for a failure is within the limit. -/
theorem length_suppressed_le (hs : StandsFor h limit k levels lo hi f x) (hk : h.Extends k) :
    (k.suppressed x).length ≤ limit := by
  cases hs with
  | kept hf hle => rwa [hk.suppressed_eq hf]
  | bare _ hx =>
    rw [suppressed_copy hx]
    exact Nat.zero_le _
  | cut _ _ hlen _ hx =>
    rw [suppressed_copy hx]
    exact Nat.le_of_eq hlen

end StandsFor

/-- A copy says what its original says, with the same sources and the same error
behind it. -/
theorem copyOf_of_get? (hh : h.Sound) (hk : h.Grows k) (hnew : h.size ≤ y)
    {kept : List FailureId} (hy : k.get? y = some (h.truncatedCopy g kept)) : CopyOf h k g y := by
  have horigin : k.origin y = h.origin g := by
    rw [origin, hy]
    rfl
  have hcauses : k.causes y = h.causes g := by
    rw [Heap.causes_eq hh g]
    exact hk.causes_of_origin hh horigin (hh.origin_lt_size g)
  refine ⟨hnew, lt_size_of_get? hy, ?_, ?_, fun lines => ?_, fun pick => ?_⟩
  · rw [kind, hy]
    rfl
  · rw [message, hy]
    rfl
  · rw [walk_iff_causes hh, walk_iff_causes (hk.sound hh), hcauses]
  · rw [find?, horigin]
    rfl

end Heap

/-- **Truncation, exactly.** Limiting `f` gives `r` in a heap `k` that holds what
`h` holds. The paths that can be followed from `r` through new failures are those
that limiting has decided on. What such a path leads to from `r` is what it leads
to from `f`, if that is within the limit, or else a copy made for this path alone,
which keeps `limit` suppressed failures, or none as many levels down as the limit
allows. So whatever a path through new failures leads to is within the limit, and
limiting `r` again gives `r` and makes nothing. -/
theorem limit_exact (h : Heap) (hh : h.Sound) (limit : Nat) (f : FailureId) (hf : f < h.size) :
    let r := (h.limit limit f).1
    let k := (h.limit limit f).2
    h.Extends k ∧
    (∀ path, h.AlongNew k r path ↔ h.Decides limit limit f path) ∧
    (∀ path, h.Decides limit limit f path →
      ∃ g y, h.follow? f path = some g ∧ k.follow? r path = some y ∧
        ((h.suppressed g).length ≤ limit → y = g) ∧
        (limit < (h.suppressed g).length → h.CopyOf k g y ∧
          (k.suppressed y).length = if path.length < limit then limit else 0)) ∧
    (∀ p q y, h.Decides limit limit f p → h.Decides limit limit f q →
      k.follow? r p = some y → k.follow? r q = some y → h.size ≤ y → p = q) ∧
    (∀ path y, h.AlongNew k r path → k.follow? r path = some y →
      (k.suppressed y).length ≤ limit) ∧
    k.limit limit r = (r, k) := by
  intro r k
  have hk : h.Extends k := h.extends_limit limit f
  have hgrows : h.Grows k := (Heap.yields_limit hh limit hf).1
  have hs : h.StandsFor limit k limit h.size k.size f r := Heap.standsFor_limit hh limit hf
  have hdecides : ∀ path, h.AlongNew k r path ↔ h.Decides limit limit f path := fun path =>
    ⟨hs.decides_of_alongNew, hs.alongNew_of_decides (Nat.le_refl _)⟩
  refine ⟨hk, hdecides, fun path hd => ?_, fun p q y hp hq hpy hqy hnew => ?_,
    fun path y hpath hy => ?_, ?_⟩
  · obtain ⟨g, y, lo, hi, hg, hy, hstands, hlo, -⟩ := hs.follow hd
    refine ⟨g, y, hg, hy, hstands.eq_of_le, fun hlt => ?_⟩
    obtain ⟨hnew, kept, hcopy, hlen⟩ := hstands.copy hlo hlt
    refine ⟨Heap.copyOf_of_get? hh hgrows hnew hcopy, ?_⟩
    rw [Heap.suppressed_copy hcopy, hlen]
    simp only [Nat.sub_pos_iff_lt]
  · exact hs.path_unique hp hq hpy hqy hnew
  · obtain ⟨g, y', lo, hi, -, hy', hstands, -, -⟩ := hs.follow ((hdecides path).mp hpath)
    obtain rfl : y = y' := Option.some.inj (hy.symm.trans hy')
    exact hstands.length_suppressed_le hk
  · exact Heap.limit_of_le (hs.length_suppressed_le hk)

/-- Two failures that suppress each other and themselves, and one within every limit. -/
def entwined : Heap :=
  ⟨#[{ message := "a", suppressed := [1, 2, 0] }, { message := "b", suppressed := [0, 0, 0] },
    { message := "c", origin := .cause (.message "d") }]⟩

theorem sound_entwined : entwined.Sound := by
  intro f x hx
  match f with
  | 0 =>
    cases hx
    exact ⟨trivial, by decide⟩
  | 1 =>
    cases hx
    exact ⟨trivial, by decide⟩
  | 2 =>
    cases hx
    exact ⟨trivial, by decide⟩
  | f + 3 => simp [Heap.get?, entwined] at hx

/-- Two levels down a failure is copied bare, though it is the one that the whole
is a copy of, and one that is within the limit is kept. -/
theorem limit_exact_entwined :
    let r := (entwined.limit 2 0).1
    let k := (entwined.limit 2 0).2
    entwined.Sound ∧ 0 < entwined.size ∧
      (∃ y, k.follow? r [0, 0] = some y ∧ entwined.CopyOf k 0 y ∧ (k.suppressed y).length = 0) ∧
      k.follow? r [1] = some 2 ∧ k.limit 2 r = (r, k) := by
  obtain ⟨-, -, hnodes, -, -, hagain⟩ := limit_exact entwined sound_entwined 2 0 (by decide)
  have hone : entwined.Decides 2 1 1 [0] :=
    Heap.decides_cons.mpr ⟨0, rfl, by decide, by decide, 0, by decide, Heap.decides_nil⟩
  obtain ⟨g, y, hg, hy, -, hcopy⟩ := hnodes [0, 0]
    (Heap.decides_cons.mpr ⟨1, rfl, by decide, by decide, 1, by decide, hone⟩)
  obtain ⟨g', y', hg', hy', hkeep, -⟩ := hnodes [1]
    (Heap.decides_cons.mpr ⟨1, rfl, by decide, by decide, 2, by decide, Heap.decides_nil⟩)
  have hzero : (0 : FailureId) = g :=
    Option.some.inj ((by decide : some 0 = entwined.follow? 0 [0, 0]).trans hg)
  have htwo : (2 : FailureId) = g' :=
    Option.some.inj ((by decide : some 2 = entwined.follow? 0 [1]).trans hg')
  subst hzero
  subst htwo
  refine ⟨sound_entwined, by decide, ⟨y, hy, hcopy (by decide)⟩, ?_, hagain⟩
  rw [hy', hkeep (by decide)]

end Teardown
