/-
# How the release of a tree ends

When no leaf panics, how a release ends can be told from the tree: when each
member finishes, which ones fail, and, for a group, which failing members its
failure keeps. The failures it keeps are made while the release goes on, so
they are told by a view of the heap that the release leaves: `FailsWith h v r e`
says that, in a release that began in the heap `h`, the resource `r` ends with
the error `e` if `v` is how things then stand.

Key definitions: `ResourceOf.leaves`, `ResourceOf.finishedAt`,
`ResourceOf.failing`, `FailsWith`, `KeptAs`.
Key theorems: `FailsWith.mono`, `RecordedAs.truncated`.
-/
import Teardown.Release.Group
import Teardown.Proofs.Failure.Settled
import Teardown.Proofs.Release.Rounds

namespace Teardown

/-- A leaf of a tree of resources, with failures referred to by `φ`. -/
structure LeafOf (φ : Type) where
  name : String
  pending : Nat
  ending : EndingOf φ

/-- Whether a leaf's release ends with an error. -/
def EndingOf.isError {φ : Type} : EndingOf φ → Bool
  | .fails _ => true
  | _ => false

namespace ResourceOf

variable {φ : Type}

mutual

/-- The leaves of a tree from left to right. -/
def leaves : ResourceOf φ → List (LeafOf φ)
  | .leaf name pending ending => [⟨name, pending, ending⟩]
  | .group _ _ members => leavesOf members

/-- The leaves of several trees. -/
def leavesOf : List (ResourceOf φ) → List (LeafOf φ)
  | [] => []
  | m :: rest => m.leaves ++ leavesOf rest

end

theorem leavesOf_eq_flatMap : ∀ members : List (ResourceOf φ),
    leavesOf members = members.flatMap leaves
  | [] => rfl
  | m :: rest => by rw [leavesOf, leavesOf_eq_flatMap rest, List.flatMap_cons]

theorem mem_leaves_group {name : String} {limit : Nat} {members : List (ResourceOf φ)}
    {l : LeafOf φ} : l ∈ (group name limit members).leaves ↔ ∃ m ∈ members, l ∈ m.leaves := by
  rw [leaves, leavesOf_eq_flatMap, List.mem_flatMap]

mutual

/-- The poll in which a resource finishes: a group with its last member, and in
its first poll if it has none. -/
def finishedAt : ResourceOf φ → Nat
  | .leaf _ pending _ => pending
  | .group _ _ members => lastFinishedAt members

/-- The poll in which the last of several resources finishes. -/
def lastFinishedAt : List (ResourceOf φ) → Nat
  | [] => 0
  | m :: rest => max m.finishedAt (lastFinishedAt rest)

end

theorem lastFinishedAt_le {n : Nat} : ∀ {members : List (ResourceOf φ)},
    (∀ m ∈ members, m.finishedAt ≤ n) → lastFinishedAt members ≤ n
  | [], _ => Nat.zero_le n
  | m :: _, hn =>
    Nat.max_le.mpr ⟨hn m (by simp), lastFinishedAt_le fun m' hm' => hn m' (by simp [hm'])⟩

/-- Whether some leaf fails. -/
def fails (r : ResourceOf φ) : Bool := r.leaves.any (·.ending.isError)

theorem fails_group {name : String} {limit : Nat} {members : List (ResourceOf φ)} :
    (group name limit members).fails = members.any fails := by
  simp only [fails, leaves, leavesOf_eq_flatMap, List.any_flatMap]
  rfl

/-- The failing members of a group in the order in which they finish, those that
finish in one poll by their place. -/
def failing (members : List (ResourceOf φ)) : List (ResourceOf φ) :=
  (members.filter fails).mergeSort (keyLe finishedAt)

/-- The failing members come poll by poll. -/
theorem failing_eq_byRound {members : List (ResourceOf φ)} {n : Nat}
    (hn : ∀ m ∈ members, m.finishedAt < n) :
    failing members = byRound finishedAt n (members.filter fails) :=
  mergeSort_eq_byRound fun m hm => hn m (List.mem_filter.mp hm).1

theorem failing_eq_nil_iff {name : String} {limit : Nat} {members : List (ResourceOf φ)} :
    failing members = [] ↔ (group name limit members).fails = false := by
  have hlen : failing members = [] ↔ members.filter fails = [] := by
    rw [← List.length_eq_zero_iff, ← List.length_eq_zero_iff, failing, List.length_mergeSort]
  rw [hlen, fails_group]
  simp

/-- No leaf panics. -/
def PanicFree (r : ResourceOf φ) : Prop :=
  ∀ leaf ∈ r.leaves, ∀ message, leaf.ending ≠ .panics message

/-- The failures that the leaves' errors carry exist. -/
def CarriesFrom (h : Heap) (r : Resource) : Prop :=
  ∀ leaf ∈ r.leaves, ∀ e, leaf.ending = .fails e → ∀ f, e.failure? = some f → f < h.size

end ResourceOf

open ResourceOf

/-- `x` is what a group that keeps `limit` failures keeps of the error `e`: in a
heap that its release came to, when the failures in `before` were there already,
the error's failure was limited to it. The view knows both as they stood. -/
def RecordedAs (h : Heap) (v : View) (limit : Nat) (before : List FailureId) (e : ErrorValue)
    (x : FailureId) : Prop :=
  ∃ k : Heap, h.Extends k ∧ (∀ y ∈ before, y < k.size) ∧
    (k.ofError e).2.ShownBy v (k.ofError e).1 ∧
    ((k.ofError e).2.limit limit (k.ofError e).1).1 = x ∧
    ((k.ofError e).2.limit limit (k.ofError e).1).2.ShownBy v x

mutual

/-- The release of a resource ends with an error: a leaf's own, or a new failure
that names the group and suppresses what it keeps of its first failing members. -/
inductive FailsWith (h : Heap) (v : View) : Resource → ErrorValue → Prop where
  | leaf (name : String) (pending : Nat) (e : ErrorValue) :
      FailsWith h v (.leaf name pending (.fails e)) e
  | group {name : String} {limit : Nat} {members : List Resource} {f : FailureId}
      {kept : List FailureId} (hnew : h.size ≤ f)
      (hf : v f = some { message := groupMessage name members.length, suppressed := kept })
      (hkept : KeptAs h v (max limit 1) ((failing members).take (max limit 1)) kept) :
      FailsWith h v (.group name limit members) (.failure f)

/-- What a group that keeps `limit` failures keeps of failing members, in order. -/
inductive KeptAs (h : Heap) (v : View) : Nat → List Resource → List FailureId → Prop where
  | nil (limit : Nat) : KeptAs h v limit [] []
  | snoc {limit : Nat} {ms : List Resource} {xs : List FailureId} {m : Resource} {e : ErrorValue}
      {x : FailureId} (hms : KeptAs h v limit ms xs) (hm : FailsWith h v m e)
      (hx : RecordedAs h v limit xs e x) : KeptAs h v limit (ms ++ [m]) (xs ++ [x])

end

theorem RecordedAs.mono {h : Heap} {v w : View} {limit : Nat} {before : List FailureId}
    {e : ErrorValue} {x : FailureId} (hx : RecordedAs h v limit before e x) (hvw : v.Le w) :
    RecordedAs h w limit before e x := by
  obtain ⟨k, hk, hbefore, hg, hlimit, hshown⟩ := hx
  exact ⟨k, hk, hbefore, hg.mono hvw, hlimit, hshown.mono hvw⟩

section

variable {h : Heap} {v : View} {limit : Nat} {before : List FailureId} {f x : FailureId}
  {failure : Failure}

/-- What is kept of an error that is a failure is that failure, limited. -/
theorem RecordedAs.of_failure (hx : RecordedAs h v limit before (.failure f) x)
    (hf : v f = some failure) :
    ∃ k : Heap, k.get? f = some failure ∧ (k.limit limit f).1 = x ∧
      (k.limit limit f).2.ShownBy v x := by
  obtain ⟨k, -, -, hshown, hlimit, hcopy⟩ := hx
  obtain ⟨y, hy, hv⟩ := hshown f .refl
  obtain rfl : failure = y := Option.some.inj (hf.symm.trans hv)
  exact ⟨k, hy, hlimit, hcopy⟩

/-- Within the limit it is kept as the same object. -/
theorem RecordedAs.eq_of_le (hx : RecordedAs h v limit before (.failure f) x)
    (hf : v f = some failure) (hle : failure.suppressed.length ≤ limit) : x = f := by
  obtain ⟨k, hk, hlimit, -⟩ := hx.of_failure hf
  rw [← Heap.suppressed_of_get? hk] at hle
  rw [← hlimit, Heap.limit_of_le hle]

/-- Over the limit, as of a group that keeps more, a truncated copy is kept. -/
theorem RecordedAs.truncated (hx : RecordedAs h v limit before (.failure f) x)
    (hf : v f = some failure) (hlt : limit < failure.suppressed.length) :
    ∃ kept, v x = some {
      kind := .truncated, message := failure.message, origin := failure.origin,
      suppressed := kept } := by
  obtain ⟨k, hk, hlimit, hcopy⟩ := hx.of_failure hf
  rw [← Heap.suppressed_of_get? hk] at hlt
  obtain ⟨kept, hkept⟩ := Heap.get?_limit_of_lt hlt
  obtain ⟨y, hy, hv⟩ := hcopy x .refl
  rw [← hlimit, hkept] at hy
  refine ⟨kept, hv.trans ?_⟩
  rw [← hy, Heap.truncatedCopy, Heap.message, Heap.origin, hk]
  rfl

end

mutual

/-- What is known of how a release ends goes on being known. -/
theorem FailsWith.mono {h : Heap} {v w : View} (hvw : v.Le w) : ∀ {r : Resource} {e : ErrorValue},
    FailsWith h v r e → FailsWith h w r e
  | _, _, .leaf name pending e => .leaf name pending e
  | _, _, .group hnew hf hkept => .group hnew (hvw _ _ hf) (KeptAs.mono hvw hkept)

theorem KeptAs.mono {h : Heap} {v w : View} (hvw : v.Le w) : ∀ {limit : Nat} {ms : List Resource}
    {xs : List FailureId}, KeptAs h v limit ms xs → KeptAs h w limit ms xs
  | _, _, _, .nil limit => .nil limit
  | _, _, _, .snoc hms hm hx => .snoc (KeptAs.mono hvw hms) (FailsWith.mono hvw hm) (hx.mono hvw)

end

theorem KeptAs.knows {h : Heap} {v : View} : ∀ {limit : Nat} {ms : List Resource}
    {xs : List FailureId}, KeptAs h v limit ms xs → ∀ x ∈ xs, v.Knows x
  | _, _, _, .nil _, _, hx => by simp at hx
  | _, _, _, .snoc (x := y) hms _ hy, x, hx => by
    rcases List.mem_append.mp hx with hx | hx
    · exact hms.knows x hx
    · obtain rfl : x = y := by simpa using hx
      obtain ⟨k, -, -, -, -, hshown⟩ := hy
      exact hshown.knows

end Teardown
