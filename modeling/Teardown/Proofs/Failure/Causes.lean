/-
# Following sources

Asking for a source goes from one object to the next: a failure that stands in
for an error asks that error, an error that is a failure, or an I/O error that
stands for one, asks the failure, and a context goes on with the error below it.
`Heap.Walk` is this walk, one object at a time and without a bound. In a heap in
which origins refer to older failures it ends, with the lines that a report
gives as causes (`Heap.walk_iff_causes`), and as the heap grows it stays the same
(`Heap.Grows.causes_eq`). What a new failure shows follows from its origin
(`Heap.causes_alloc`), also when it is a copy that limiting leaves.

Key definitions: `Link`, `Heap.next`, `Heap.Walk`.
Key theorems: `Heap.walk_iff_causes`, `Heap.walk_iff_chain`,
`Heap.Grows.causes_eq`, `Heap.causes_alloc`, `Heap.causes_of_mem_limit`.
-/
import Teardown.Failure.Report
import Teardown.Proofs.Failure.Growth

namespace Teardown

/-- Where a walk along sources stands. -/
inductive Link where
  /-- A failure is asked for its source. -/
  | ofFailure (f : FailureId)
  /-- An error is asked for its source. -/
  | ofError (e : ErrorValue)
  /-- An error has been reached. -/
  | reached (e : ErrorValue)

namespace Heap

/-- Where a walk goes next, if it goes on. -/
def next (h : Heap) : Link → Option Link
  | .ofFailure f =>
      match h.origin f with
      | .none => none
      | .wrapped e => some (.ofError e)
      | .cause e => some (.reached e)
  | .ofError (.message _) => none
  | .ofError (.io ⟨_, .failure f⟩) => some (.ofFailure f)
  | .ofError (.io _) => none
  | .ofError (.login _) => none
  | .ofError (.failure f) => some (.ofFailure f)
  | .ofError (.context _ below) => some (.reached below)
  | .ofError (.contextFailure _ below) => some (.reached below)
  | .reached e => some (.ofError e)

/-- What a walk shows where it stands. -/
def lineAt (h : Heap) : Link → List String
  | .reached e => [e.display h]
  | _ => []

/-- A walk comes to its end and shows these lines. -/
inductive Walk (h : Heap) : Link → List String → Prop where
  | last {l : Link} (hl : h.next l = none) : Walk h l (h.lineAt l)
  | step {l l' : Link} {lines : List String} (hl : h.next l = some l') (rest : Walk h l' lines) :
      Walk h l (h.lineAt l ++ lines)

variable {h h' : Heap}

/-- A walk shows the same lines whenever it is taken. -/
theorem Walk.unique {l : Link} {lines lines' : List String} (hw : h.Walk l lines)
    (hw' : h.Walk l lines') : lines = lines' := by
  induction hw generalizing lines' with
  | last hl =>
    cases hw' with
    | last => rfl
    | step hl' => rw [hl] at hl'; cases hl'
  | step hl _ ih =>
    cases hw' with
    | last hl' => rw [hl] at hl'; cases hl'
    | step hl' rest =>
      rw [hl] at hl'
      cases hl'
      rw [ih rest]

/-! ### The walk ends -/

/-- Among older failures no more than these is asked of them. -/
theorem causesBelow_of_lt {n f : Nat} (hf : f < n) : h.causesBelow n f = h.causes f := by
  induction n with
  | zero => exact absurd hf (Nat.not_lt_zero f)
  | succ n ih =>
    by_cases hn : f = n
    · rw [hn, causes]
    · rw [causesBelow, if_neg hn]
      exact ih (Nat.lt_of_le_of_ne (Nat.le_of_lt_succ hf) hn)

theorem causes_eq_below (h : Heap) (f : FailureId) :
    h.causes f = (h.origin f).causesWith h (h.causesBelow f) := by
  rw [causes, causesBelow, if_pos rfl]

/-- From an error, if it ends from every failure that the error refers to. -/
theorem walk_sourcesWith {under : FailureId → List String} : ∀ {e : ErrorValue},
    e.All (fun f => h.Walk (.ofFailure f) (under f)) → h.Walk (.ofError e) (e.sourcesWith h under)
  | .message _, _ => .last rfl
  | .io ⟨_, .standard⟩, _ => .last rfl
  | .io ⟨_, .text _⟩, _ => .last rfl
  | .io ⟨_, .failure _⟩, hw => .step rfl hw
  | .login _, _ => .last rfl
  | .failure _, hw => .step rfl hw
  | .context _ below, hw => .step rfl (.step rfl (walk_sourcesWith (e := below) hw))
  | .contextFailure _ below, hw => .step rfl (.step rfl (walk_sourcesWith (e := below) hw.2))

/-- From a failure, if it ends from every failure that its origin refers to. -/
theorem walk_causesWith {under : FailureId → List String} {f : FailureId} {o : Origin}
    (hf : h.origin f = o) (hw : o.All fun g => h.Walk (.ofFailure g) (under g)) :
    h.Walk (.ofFailure f) (o.causesWith h under) := by
  cases o with
  | none => exact .last (by rw [next, hf])
  | wrapped e => exact .step (by rw [next, hf]) (walk_sourcesWith hw)
  | cause e => exact .step (by rw [next, hf]) (.step rfl (walk_sourcesWith hw))

/-- **The walk along the sources of a failure ends**, since origins refer to older
failures: the lines it shows are the failure's causes. -/
theorem walk_causes (hh : h.Sound) (f : FailureId) : h.Walk (.ofFailure f) (h.causes f) := by
  induction f using Nat.strongRecOn with
  | ind f ih =>
    rw [causes_eq_below]
    refine walk_causesWith rfl ((hh.origin f).mono fun g hg => ?_)
    rw [causesBelow_of_lt hg]
    exact ih g hg

theorem walk_iff_causes (hh : h.Sound) {f : FailureId} {lines : List String} :
    h.Walk (.ofFailure f) lines ↔ lines = h.causes f := by
  refine ⟨fun hw => hw.unique (walk_causes hh f), ?_⟩
  rintro rfl
  exact walk_causes hh f

theorem walk_chain (hh : h.Sound) (e : ErrorValue) : h.Walk (.reached e) (e.chain h) :=
  .step rfl (walk_sourcesWith (ErrorOf.all_of_forall (walk_causes hh)))

/-- The walk from an error shows its chain. -/
theorem walk_iff_chain (hh : h.Sound) {e : ErrorValue} {lines : List String} :
    h.Walk (.reached e) lines ↔ lines = e.chain h := by
  refine ⟨fun hw => hw.unique (walk_chain hh e), ?_⟩
  rintro rfl
  exact walk_chain hh e

/-! ### What the lines depend on -/

theorem display_congr : ∀ {e : ErrorValue}, e.All (fun g => h'.message g = h.message g) →
    e.display h' = e.display h
  | .message _, _ => rfl
  | .io ⟨_, .standard⟩, _ => rfl
  | .io ⟨_, .text _⟩, _ => rfl
  | .io ⟨_, .failure _⟩, hm => hm
  | .login _, _ => rfl
  | .failure _, hm => hm
  | .context _ _, _ => rfl
  | .contextFailure _ _, hm => hm.1

theorem sourcesWith_congr {under under' : FailureId → List String} : ∀ {e : ErrorValue},
    e.All (fun g => h'.message g = h.message g ∧ under' g = under g) →
    e.sourcesWith h' under' = e.sourcesWith h under
  | .message _, _ => rfl
  | .io ⟨_, .standard⟩, _ => rfl
  | .io ⟨_, .text _⟩, _ => rfl
  | .io ⟨_, .failure _⟩, hs => hs.2
  | .login _, _ => rfl
  | .failure _, hs => hs.2
  | .context _ below, hs => by
    have hdisplay : below.display h' = below.display h :=
      display_congr (ErrorOf.All.mono (fun _ hg => hg.1) hs)
    rw [ErrorOf.sourcesWith, ErrorOf.sourcesWith, hdisplay, sourcesWith_congr (e := below) hs]
  | .contextFailure _ below, hs => by
    have hdisplay : below.display h' = below.display h :=
      display_congr (ErrorOf.All.mono (fun _ hg => hg.1) hs.2)
    rw [ErrorOf.sourcesWith, ErrorOf.sourcesWith, hdisplay, sourcesWith_congr (e := below) hs.2]

theorem causesWith_congr {under under' : FailureId → List String} {o : Origin}
    (ho : o.All fun g => h'.message g = h.message g ∧ under' g = under g) :
    o.causesWith h' under' = o.causesWith h under := by
  cases o with
  | none => rfl
  | wrapped e => exact sourcesWith_congr ho
  | cause e =>
    have hdisplay : e.display h' = e.display h :=
      display_congr (ErrorOf.All.mono (fun _ hg => hg.1) ho)
    rw [Origin.causesWith, Origin.causesWith, hdisplay, sourcesWith_congr ho]

/-- A failure's causes, told by those of the failures its origin refers to. -/
theorem causes_eq (hh : h.Sound) (f : FailureId) :
    h.causes f = (h.origin f).causesWith h h.causes := by
  rw [causes_eq_below]
  exact causesWith_congr ((hh.origin f).mono fun g hg => ⟨rfl, causesBelow_of_lt hg⟩)

namespace Grows

/-- **No failure's causes ever change.** -/
theorem causes_eq (hg : h.Grows h') (hh : h.Sound) {f : FailureId} (hf : f < h.size) :
    h'.causes f = h.causes f := by
  induction f using Nat.strongRecOn with
  | ind f ih =>
    rw [causes_eq_below, causes_eq_below, hg.origin_eq hf]
    refine causesWith_congr ((hh.origin f).mono fun g hgf => ?_)
    have hlt : g < h.size := Nat.lt_trans hgf hf
    rw [causesBelow_of_lt hgf, causesBelow_of_lt hgf]
    exact ⟨hg.message_eq hlt, ih g hgf hlt⟩

/-- A failure shows what its origin shows, as long as that exists. -/
theorem causes_of_origin (hg : h.Grows h') (hh : h.Sound) {g : FailureId} {o : Origin}
    (hgo : h'.origin g = o) (ho : o.All (· < h.size)) :
    h'.causes g = o.causesWith h h.causes := by
  rw [Heap.causes_eq (hg.sound hh), hgo]
  exact causesWith_congr (ho.mono fun _ hlt => ⟨hg.message_eq hlt, hg.causes_eq hh hlt⟩)

end Grows

/-! ### What a new failure shows -/

/-- A failure that is made shows what its origin shows. -/
theorem causes_alloc (hh : h.Sound) {x : Failure} (ho : x.origin.All (· < h.size))
    (hs : ∀ g ∈ x.suppressed, g < h.size) :
    (h.alloc x).2.causes (h.alloc x).1 = x.origin.causesWith h h.causes := by
  refine (Grows.refl.alloc ho hs).causes_of_origin hh ?_ ho
  rw [Heap.origin, get?_alloc, if_pos (show (h.alloc x).1 = h.size from rfl)]
  rfl

/-- A failure with an error as its source shows the error's chain. -/
theorem causes_causedBy (hh : h.Sound) (message : String) {e : ErrorValue}
    (he : e.All (· < h.size)) :
    (h.causedBy message e).2.causes (h.causedBy message e).1 = e.chain h :=
  causes_alloc hh he (by simp)

/-- A failure that stands in for an error shows the rest of its chain. -/
theorem causes_wrap (hh : h.Sound) {e : ErrorValue} (he : e.All (· < h.size)) :
    (h.wrap e).2.causes (h.wrap e).1 = (e.chain h).tail :=
  causes_alloc hh he (by simp)

/-! ### What a truncated copy shows -/

/-- What `k'` has beyond `k` are copies of failures of `h`. -/
def Copies (h k k' : Heap) : Prop :=
  ∀ g x, k.size ≤ g → k'.get? g = some x → ∃ f kept, f < h.size ∧ x = h.truncatedCopy f kept

theorem Copies.refl (h k : Heap) : h.Copies k k := fun _ _ hg hx =>
  absurd (lt_size_of_get? hx) (Nat.not_lt_of_le hg)

theorem Copies.trans {k₁ k₂ k₃ : Heap} (h₁₂ : h.Copies k₁ k₂) (h₂₃ : h.Copies k₂ k₃)
    (he : k₂.Extends k₃) : h.Copies k₁ k₃ := by
  intro g x hg hx
  by_cases hlt : g < k₂.size
  · rw [he.get?_eq hlt] at hx
    exact h₁₂ g x hg hx
  · exact h₂₃ g x (Nat.le_of_not_lt hlt) hx

/-- A copy made in a heap that `h` has grown to is a copy of the failure of `h`. -/
theorem copies_alloc {k k' : Heap} (he : h.Extends k) {f : FailureId} (hf : f < h.size)
    (kept : List FailureId) : h.Copies k' (k'.alloc (k.truncatedCopy f kept)).2 := by
  intro g x hg hx
  rw [get?_alloc] at hx
  split at hx
  · cases hx
    have hget := he.get?_eq hf
    exact ⟨f, kept, hf, by simp only [truncatedCopy, message, Heap.origin, hget]⟩
  · exact absurd (lt_size_of_get? hx) (Nat.not_lt_of_le hg)

theorem copies_limitEach {step : Heap → FailureId → FailureId × Heap}
    (hext : ∀ (k : Heap) (f : FailureId), k.Extends (step k f).2)
    (hstep : ∀ (k : Heap) (f : FailureId), h.Extends k → f < h.size → h.Copies k (step k f).2) :
    ∀ (fs : List FailureId) (k : Heap), h.Extends k → (∀ f ∈ fs, f < h.size) →
      h.Copies k (limitEach step k fs).2
  | [], k, _, _ => .refl h k
  | f :: fs, k, hk, hfs =>
    (hstep k f hk (hfs f (List.mem_cons_self ..))).trans
      (copies_limitEach hext hstep fs (step k f).2 (hk.trans (hext k f))
        fun g hg => hfs g (List.mem_cons_of_mem _ hg))
      (extends_limitEach hext fs (step k f).2)

theorem copies_limitWithin (hh : h.Sound) (limit : Nat) : ∀ (levels : Nat) (k : Heap)
    (f : FailureId), h.Extends k → f < h.size → h.Copies k (limitWithin limit levels k f).2 := by
  intro levels
  induction levels with
  | zero =>
    intro k f hk hf
    unfold limitWithin
    split
    · exact .refl h k
    · exact copies_alloc hk hf []
  | succ levels ih =>
    intro k f hk hf
    unfold limitWithin
    split
    · exact .refl h k
    · -- what `f` suppresses it suppressed in `h`
      have hext := extends_limitWithin limit levels
      have hmem : ∀ g ∈ (k.suppressed f).take limit, g < h.size := fun g hg =>
        hh.suppressed (hk.suppressed_eq hf ▸ List.mem_of_mem_take hg)
      exact (copies_limitEach hext ih _ k hk hmem).trans (copies_alloc hk hf _) (extends_alloc _ _)

/-- **What limiting makes are copies that show what their originals show.** -/
theorem causes_of_mem_limit (hh : h.Sound) (limit : Nat) {f : FailureId} (hf : f < h.size)
    {g : FailureId} (hg : h.size ≤ g) (hlt : g < (h.limit limit f).2.size) :
    ∃ original kept, original < h.size ∧
      (h.limit limit f).2.get? g = some (h.truncatedCopy original kept) ∧
      (h.limit limit f).2.causes g = h.causes original := by
  obtain ⟨x, hx⟩ := exists_get? hlt
  obtain ⟨original, kept, horiginal, rfl⟩ :=
    copies_limitWithin hh limit limit h f (.refl h) hf g x hg hx
  refine ⟨original, kept, horiginal, hx, ?_⟩
  rw [Heap.causes_eq hh original]
  refine (yields_limit hh limit hf).1.causes_of_origin hh ?_ (hh.origin_lt_size original)
  rw [Heap.origin, hx]
  rfl

/-- What a failure stands for under a limit shows what the failure shows. -/
theorem causes_limit (hh : h.Sound) (limit : Nat) {f : FailureId} (hf : f < h.size) :
    (h.limit limit f).2.causes (h.limit limit f).1 = h.causes f := by
  by_cases hle : (h.suppressed f).length ≤ limit
  · rw [limit_of_le hle]
  · obtain ⟨kept, hkept⟩ := get?_limit_of_lt (Nat.lt_of_not_le hle)
    rw [Heap.causes_eq hh f]
    refine (yields_limit hh limit hf).1.causes_of_origin hh ?_ (hh.origin_lt_size f)
    rw [Heap.origin, hkept]
    rfl

end Heap
end Teardown
