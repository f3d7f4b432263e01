/-
# Calls that come between one another

Failures are added to one collector by several calls at once. A call takes its
number; within the limit it keeps its failure under the lock; over the limit it
finds the collector open under the lock and then counts. Whatever the order of
these steps, the round ends as if the failures had been added in turn: first those
with a number within the limit, in the order they were kept, then the others.
Closing the collector anywhere in between divides the calls: those that had found
it open return, and the others panic (`Crowd.interleaved_adds`).

Every turn preserves that the heap is that of the failures kept so far
(`Crowd.Gathers`) and, until the collector is closed, that each number handed out
within the limit stands for a failure that is kept or about to be
(`Crowd.Numbered`). From the close on no more is kept (`Crowd.Latched`).

Key definitions: `Crowd.Gathers`, `Crowd.Numbered`, `Crowd.Latched`,
`Crowd.AsIfInTurn`, `Crowd.CutShort`.
Key theorems: `Crowd.Gathers.turn`, `Crowd.Numbered.turn`, `Crowd.Latched.turn`,
`Crowd.interleaved_adds`.
-/
import Teardown.Proofs.Collector.Plain
import Teardown.Proofs.Collector.Turns

namespace Teardown

namespace Call

/-- Whether a call has found the collector open for the last time. -/
def passed : Call → Bool
  | .over _ _ | .returned => true
  | _ => false

def isDue : Call → Bool
  | .due _ => true
  | _ => false

/-- Whether a call has a number within the limit and has not used it. -/
def isWithin (limit : Nat) : Call → Bool
  | .numbered _ number => number ≤ limit
  | _ => false

/-- Whether a call has a number over the limit and has not counted its failure. -/
def isBeyond (limit : Nat) : Call → Bool
  | .numbered _ number => limit < number
  | .over _ _ => true
  | _ => false

def hasPanicked : Call → Bool
  | .panicked _ => true
  | _ => false

/-- What is known of a call that adds `f`, when those in `taken` have been kept or
dropped. -/
def Adds (taken : List FailureId) (f : FailureId) : Call → Prop
  | .due g | .numbered g _ | .over g _ => g = f ∧ f ∉ taken
  | .returned => f ∈ taken
  | .panicked payload => payload = .text Collector.closedMessage ∧ f ∉ taken

theorem Adds.congr {taken taken' : List FailureId} {f : FailureId} {c : Call}
    (h : c.Adds taken f) (hf : f ∈ taken' ↔ f ∈ taken) : c.Adds taken' f := by
  cases c <;> simpa only [Adds, hf] using h

end Call

namespace Crowd

open Collector

/-- A crowd about to add failures to the collector of a scene. -/
def offering (s : Scene Collector) (fs : List FailureId) : Scene Crowd :=
  { heap := s.heap, log := s.log
    focus := { collector := s.focus, calls := (fs.map .due).toArray } }

/-! ### What every turn preserves -/

/-- A collector that has kept some failures and dropped others. -/
def holding (c : Collector) (kept dropped : List FailureId) (closed : Bool) (observed : Nat) :
    Collector :=
  { c with
    primary := if closed then none else kept.head?
    closed, observed, dropped := c.dropped + dropped.length }

/-- Each of the calls adds one of `fs`, of which those in `taken` have been kept or
dropped. -/
structure Shares (fs taken : List FailureId) (calls : Array Call) : Prop where
  size : calls.size = fs.length
  adds : ∀ (i : Nat) (f : FailureId), fs[i]? = some f →
    ∃ c : Call, calls[i]? = some c ∧ c.Adds taken f
  nodup : taken.Nodup
  subset : taken ⊆ fs

namespace Shares

variable {fs taken : List FailureId} {calls : Array Call} {i : Nat} {f : FailureId}

/-- What is known of a call that is there. -/
theorem exists_adds (h : Shares fs taken calls) {c : Call} (hi : calls[i]? = some c) :
    ∃ f, fs[i]? = some f ∧ c.Adds taken f := by
  have hlt : i < fs.length := h.size ▸ (Array.getElem?_eq_some_iff.mp hi).1
  obtain ⟨c', hc', hadds⟩ := h.adds i fs[i] (List.getElem?_eq_getElem hlt)
  cases hi.symm.trans hc'
  exact ⟨_, List.getElem?_eq_getElem hlt, hadds⟩

theorem adds_set (h : Shares fs taken calls) (hnodup : fs.Nodup) (hf : fs[i]? = some f)
    {next : Call} {taken' : List FailureId} (hnext : next.Adds taken' f)
    (hothers : ∀ g, g ≠ f → (g ∈ taken' ↔ g ∈ taken)) (j : Nat) (g : FailureId)
    (hg : fs[j]? = some g) :
    ∃ c : Call, (calls.setIfInBounds i next)[j]? = some c ∧ c.Adds taken' g := by
  obtain ⟨hlt, -⟩ := List.getElem?_eq_some_iff.mp hf
  rw [Array.getElem?_setIfInBounds]
  by_cases hij : i = j
  · subst hij
    cases hf.symm.trans hg
    exact ⟨next, by rw [if_pos rfl, if_pos (h.size ▸ hlt)], hnext⟩
  · obtain ⟨c, hc, hadds⟩ := h.adds j g hg
    have hne : g ≠ f := by
      rintro rfl
      exact hij ((List.getElem?_inj hlt hnodup).mp (hf.trans hg.symm))
    exact ⟨c, by rw [if_neg hij, hc], hadds.congr (hothers g hne)⟩

/-- A call goes on and its failure is not taken. -/
theorem goesOn (h : Shares fs taken calls) (hnodup : fs.Nodup) (hf : fs[i]? = some f)
    {next : Call} (hnext : next.Adds taken f) :
    Shares fs taken (calls.setIfInBounds i next) where
  size := by rw [Array.size_setIfInBounds, h.size]
  adds := h.adds_set hnodup hf hnext fun _ _ => .rfl
  nodup := h.nodup
  subset := h.subset

/-- A call returns and its failure is taken. -/
theorem takes (h : Shares fs taken calls) (hnodup : fs.Nodup) (hf : fs[i]? = some f)
    (hgone : f ∉ taken) {taken' : List FailureId} (hperm : taken'.Perm (f :: taken)) :
    Shares fs taken' (calls.setIfInBounds i .returned) where
  size := by rw [Array.size_setIfInBounds, h.size]
  adds := by
    refine h.adds_set hnodup hf (hperm.mem_iff.mpr List.mem_cons_self) fun g hg => ?_
    rw [hperm.mem_iff, List.mem_cons, or_iff_right hg]
  nodup := hperm.nodup_iff.mpr (List.nodup_cons.mpr ⟨hgone, h.nodup⟩)
  subset := by
    intro g hg
    rcases List.mem_cons.mp (hperm.mem_iff.mp hg) with rfl | hg
    · exact List.mem_of_getElem? hf
    · exact h.subset hg

end Shares

/-- Of `fs`, which a crowd adds to the collector of `s₀`, some have been `kept` and
others, over the limit, `dropped`. -/
structure Gathers (s₀ : Scene Collector) (fs kept dropped : List FailureId) (s : Scene Crowd) :
    Prop where
  heap : s.heap = s₀.heap.gathered kept
  collector : ∃ closed observed, s.focus.collector = holding s₀.focus kept dropped closed observed
  shares : Shares fs (kept ++ dropped) s.focus.calls

section

variable {s₀ : Scene Collector} {fs kept dropped : List FailureId} {s : Scene Crowd}

theorem Gathers.limit_eq (h : Gathers s₀ fs kept dropped s) :
    s.focus.collector.limit = s₀.focus.limit := by
  obtain ⟨closed, observed, hc⟩ := h.collector
  rw [hc, holding]

theorem Gathers.turned (h : Gathers s₀ fs kept dropped s) (hs : s₀.focus.supplier = none)
    (x : Turn) : Turned s x ((Crowd.turn x).after s) := by
  obtain ⟨closed, observed, hc⟩ := h.collector
  exact Crowd.turned (by rw [hc, holding, hs]) x

/-- One more turn. -/
theorem Gathers.turn (h : Gathers s₀ fs kept dropped s) (hs : s₀.focus.supplier = none)
    (hplain : Plain s₀.focus.limit s₀.heap fs) (x : Turn) :
    Gathers s₀ fs (kept ++ keptIn x s) (dropped ++ droppedIn x s) ((Crowd.turn x).after s) := by
  obtain ⟨closed, observed, hc⟩ := h.collector
  have hnone : s.focus.collector.supplier = none := by rw [hc, holding, hs]
  have hclosed : s.focus.collector.closed = closed := by rw [hc, holding]
  have hlimit := h.limit_eq
  have hturned := h.turned hs x
  generalize (Crowd.turn x).after s = s' at hturned
  cases hturned with
  | idle hi =>
    rw [keptIn_of_ended hi, droppedIn_of_ended hi, List.append_nil, List.append_nil]
    exact h
  | @numbers i f hi =>
    obtain ⟨f, hf, rfl, hgone⟩ := h.shares.exists_adds hi
    simp only [keptIn, droppedIn, hi, List.append_nil]
    refine ⟨h.heap, ⟨closed, observed + 1, ?_⟩, h.shares.goesOn hplain.nodup hf ⟨rfl, hgone⟩⟩
    simp [resumed, hc, holding, counted]
  | @keeps i f number hi hn ho t ht hfocus =>
    obtain ⟨f, hf, rfl, hgone⟩ := h.shares.exists_adds hi
    obtain rfl : closed = false := hclosed ▸ ho
    have hprimary : s.focus.collector.primary = kept.head? := by rw [hc]; rfl
    obtain ⟨log, hrun⟩ := run_keep_gathered (s := alone s) ho hnone h.heap hprimary
      (fun hk => hgone (List.mem_append_left _ hk))
      (hlimit ▸ hplain.length_le _ (List.mem_of_getElem? hf))
    cases hrun.symm.trans ht
    simp only [keptIn, droppedIn, hi, hn, ho, and_self, if_true, List.append_nil]
    refine ⟨rfl, ⟨false, observed, ?_⟩, h.shares.takes hplain.nodup hf hgone ?_⟩
    · simp [resumed, alone, hc, holding]
    · rw [List.append_assoc]
      exact List.perm_middle
  | @passes i f number hi hn ho =>
    obtain ⟨f, hf, rfl, hgone⟩ := h.shares.exists_adds hi
    have hn' : ¬ number ≤ s.focus.collector.limit := Nat.not_le_of_lt hn
    simp only [keptIn, droppedIn, hi, hn', false_and, if_false, List.append_nil]
    exact ⟨h.heap, ⟨closed, observed, hc⟩, h.shares.goesOn hplain.nodup hf ⟨rfl, hgone⟩⟩
  | @rejected i f number hi hcl heap hh =>
    obtain ⟨f, hf, rfl, hgone⟩ := h.shares.exists_adds hi
    have hlimited := Heap.limit_gathered (fun hk => hgone (List.mem_append_left dropped hk))
      (hplain.length_le _ (List.mem_of_getElem? hf))
    have hheap : heap = s.heap := by
      rcases hh with rfl | rfl
      · rfl
      · rw [hlimit, h.heap, hlimited]
    simp only [keptIn, droppedIn, hi, hcl, Bool.true_eq_false, and_false, if_false,
      List.append_nil]
    exact ⟨hheap.trans h.heap, ⟨closed, observed, hc⟩,
      h.shares.goesOn hplain.nodup hf ⟨rfl, hgone⟩⟩
  | @drops i f number hi log =>
    obtain ⟨f, hf, rfl, hgone⟩ := h.shares.exists_adds hi
    simp only [keptIn, droppedIn, hi, List.append_nil]
    refine ⟨h.heap, ⟨closed, observed, ?_⟩, h.shares.takes hplain.nodup hf hgone ?_⟩
    · simp [resumed, hc, holding, Nat.add_assoc]
    · rw [← List.append_assoc]
      exact List.perm_append_singleton _ _
  | closes ho log =>
    simp only [keptIn, droppedIn, List.append_nil]
    exact ⟨h.heap, ⟨true, observed, by simp [hc, holding]⟩, h.shares⟩
  | closed hcl =>
    simp only [keptIn, droppedIn, List.append_nil]
    exact ⟨h.heap, ⟨closed, observed, hc⟩, h.shares⟩

theorem gathers_offering (hr : s₀.focus.StartsRound) : Gathers s₀ fs [] [] (offering s₀ fs) where
  heap := rfl
  collector := by
    refine ⟨false, 0, ?_⟩
    simp only [offering, holding]
    exact hr.eq.symm
  shares := {
    size := by simp [offering]
    adds := fun i f hf => ⟨.due f, by simp [offering, hf], rfl, by simp⟩
    nodup := by simp
    subset := by simp }

/-! ### Numbers -/

theorem countP_set {calls : Array Call} {i : Nat} {c : Call} (hi : calls[i]? = some c)
    (next : Call) (p : Call → Bool) :
    (calls.setIfInBounds i next).countP p + (if p c then 1 else 0) =
      calls.countP p + (if p next then 1 else 0) := by
  obtain ⟨hlt, rfl⟩ := Array.getElem?_eq_some_iff.mp hi
  have hle : (if p calls[i] then 1 else 0) ≤ calls.countP p :=
    Array.boole_getElem_le_countP hlt
  rw [Array.setIfInBounds, dif_pos hlt, Array.countP_set]
  omega

/-- Each call that is not due has taken a number. -/
theorem Turned.observed_add_due {x : Turn} {t : Scene Crowd} (h : Turned s x t) :
    t.focus.collector.observed + t.focus.calls.countP Call.isDue =
      s.focus.collector.observed + s.focus.calls.countP Call.isDue := by
  cases h with
  | idle hi => rfl
  | @numbers i f hi =>
    have hdue := countP_set hi (.numbered f (s.focus.collector.observed + 1)) Call.isDue
    simp only [Call.isDue, if_true, Bool.false_eq_true, if_false] at hdue
    simp only [resumed, counted]
    omega
  | keeps hi hn ho t ht hfocus =>
    have hobserved : t.focus.observed = s.focus.collector.observed := by rw [hfocus]
    have hdue := countP_set hi .returned Call.isDue
    simp only [resumed, hobserved]
    exact congrArg _ hdue
  | passes hi hn ho => exact congrArg _ (countP_set hi (.over _ _) Call.isDue)
  | rejected hi hc heap hh => exact congrArg _ (countP_set hi (.panicked _) Call.isDue)
  | drops hi log => exact congrArg _ (countP_set hi .returned Call.isDue)
  | closes ho log => rfl
  | closed hc => rfl

/-- How the numbers within `limit` and over it were used, before the collector is
closed. -/
structure Numbered (limit : Nat) (kept dropped : List FailureId) (s : Scene Crowd) : Prop where
  isOpen : s.focus.collector.closed = false
  within : kept.length + s.focus.calls.countP (Call.isWithin limit) =
    min s.focus.collector.observed limit
  beyond : dropped.length + s.focus.calls.countP (Call.isBeyond limit) =
    s.focus.collector.observed - limit
  panicked : s.focus.calls.countP Call.hasPanicked = 0
  closings : s.focus.closings = []

/-- One more turn, which does not close the collector. -/
theorem Numbered.turn {limit : Nat} (h : Numbered limit kept dropped s)
    (hlimit : s.focus.collector.limit = limit) {x : Turn} (hx : x ≠ .close) {t : Scene Crowd}
    (hturned : Turned s x t) :
    Numbered limit (kept ++ keptIn x s) (dropped ++ droppedIn x s) t := by
  obtain ⟨hopen, hwithin, hbeyond, hpanicked, hclosings⟩ := h
  -- what the counts gain and lose when a call goes on
  have hcount : ∀ {i : Nat} {c : Call}, s.focus.calls[i]? = some c → ∀ next,
      ∀ p ∈ [Call.isWithin limit, Call.isBeyond limit, Call.hasPanicked],
        (s.focus.calls.setIfInBounds i next).countP p + (if p c then 1 else 0) =
          s.focus.calls.countP p + (if p next then 1 else 0) :=
    fun hi next p _ => countP_set hi next p
  cases hturned with
  | idle hi =>
    rw [keptIn_of_ended hi, droppedIn_of_ended hi, List.append_nil, List.append_nil]
    exact ⟨hopen, hwithin, hbeyond, hpanicked, hclosings⟩
  | @numbers i f hi =>
    have hnext := hcount hi (.numbered f (s.focus.collector.observed + 1))
    simp only [keptIn, droppedIn, hi, List.append_nil]
    rcases Nat.lt_or_ge limit (s.focus.collector.observed + 1) with hn | hn
    · have hn' := Nat.not_le_of_lt hn
      simp [Call.isWithin, Call.isBeyond, Call.hasPanicked, hn, hn'] at hnext
      refine ⟨hopen, ?_, ?_, ?_, hclosings⟩ <;> simp only [resumed, counted] <;> omega
    · have hn' := Nat.not_lt_of_le hn
      simp [Call.isWithin, Call.isBeyond, Call.hasPanicked, hn, hn'] at hnext
      refine ⟨hopen, ?_, ?_, ?_, hclosings⟩ <;> simp only [resumed, counted] <;> omega
  | @keeps i f number hi hn ho t ht hfocus =>
    have hnext := hcount hi .returned
    rw [hlimit] at hn
    have hn' := Nat.not_lt_of_le hn
    have hobserved : t.focus.observed = s.focus.collector.observed := by rw [hfocus]
    simp [Call.isWithin, Call.isBeyond, Call.hasPanicked, hn, hn'] at hnext
    simp only [keptIn, droppedIn, hi, hlimit, hn, ho, and_self, if_true, List.append_nil]
    refine ⟨by rw [resumed, hfocus]; exact ho, ?_, ?_, ?_, hclosings⟩ <;>
      simp only [resumed, hobserved, List.length_append, List.length_singleton] <;> omega
  | @passes i f number hi hn ho =>
    have hnext := hcount hi (.over f number)
    rw [hlimit] at hn
    have hn' := Nat.not_le_of_lt hn
    simp [Call.isWithin, Call.isBeyond, Call.hasPanicked, hn, hn'] at hnext
    simp only [keptIn, droppedIn, hi, hlimit, hn', false_and, if_false, List.append_nil]
    refine ⟨hopen, ?_, ?_, ?_, hclosings⟩ <;> simp only [resumed, alone] <;> omega
  | @rejected i f number hi hc heap hh =>
    rw [hopen] at hc
    cases hc
  | @drops i f number hi log =>
    have hnext := hcount hi .returned
    simp [Call.isWithin, Call.isBeyond, Call.hasPanicked] at hnext
    simp only [keptIn, droppedIn, hi, List.append_nil]
    refine ⟨hopen, ?_, ?_, ?_, hclosings⟩ <;>
      simp only [resumed, List.length_append, List.length_singleton] <;> omega
  | closes ho log => exact absurd rfl hx
  | closed hc => exact absurd rfl hx

theorem numbered_offering (hr : s₀.focus.StartsRound) :
    Numbered s₀.focus.limit [] [] (offering s₀ fs) where
  isOpen := hr.isOpen
  within := by simp [offering, hr.observed, Call.isWithin, Function.comp_def]
  beyond := by simp [offering, hr.observed, Call.isBeyond, Function.comp_def]
  panicked := by simp [offering, Call.hasPanicked, Function.comp_def]
  closings := rfl

theorem observed_add_due_offering (hr : s₀.focus.StartsRound) :
    (offering s₀ fs).focus.collector.observed +
      (offering s₀ fs).focus.calls.countP Call.isDue = fs.length := by
  simp [offering, hr.observed, Call.isDue, Function.comp_def]

/-! ### After a close -/

/-- Since the collector was closed in the scene `u`, no call has passed that had not,
and closing it again was refused. -/
structure Latched (u : Scene Crowd) (first : Option FailureId) (s : Scene Crowd) : Prop where
  closed : s.focus.collector.closed = true
  passed : ∀ i : Nat, s.focus.calls[i]?.map Call.passed = u.focus.calls[i]?.map Call.passed
  closings : ∃ refused, s.focus.closings = .ok first :: refused ∧
    ∀ r ∈ refused, r = .error (.text closedMessage)

theorem map_set {calls : Array Call} {i : Nat} {c next : Call} (hi : calls[i]? = some c)
    {p : Call → Bool} (hp : p next = p c) (j : Nat) :
    (calls.setIfInBounds i next)[j]?.map p = calls[j]?.map p := by
  rw [Array.getElem?_setIfInBounds]
  by_cases hij : i = j
  · subst hij
    rw [if_pos rfl, if_pos (Array.getElem?_eq_some_iff.mp hi).1, hi]
    exact congrArg some hp
  · rw [if_neg hij]

/-- The close itself. -/
theorem Numbered.latched {limit : Nat} (h : Numbered limit kept dropped s) {t : Scene Crowd}
    (hturned : Turned s .close t) : Latched s s.focus.collector.primary t := by
  cases hturned with
  | closes ho log => exact ⟨rfl, fun _ => rfl, [], by simp [h.closings], by simp⟩
  | closed hc =>
    rw [h.isOpen] at hc
    cases hc

/-- One more turn, which keeps nothing. -/
theorem Latched.turn {u : Scene Crowd} {first : Option FailureId} (h : Latched u first s)
    {x : Turn} {t : Scene Crowd} (hturned : Turned s x t) :
    keptIn x s = [] ∧ Latched u first t := by
  obtain ⟨hclosed, hpassed, refused, hclosings, hrefused⟩ := h
  have hopen : ¬ s.focus.collector.closed = false := by simp [hclosed]
  have hset : ∀ {i : Nat} {c next : Call}, s.focus.calls[i]? = some c →
      next.passed = c.passed → ∀ j, (s.focus.calls.setIfInBounds i next)[j]?.map Call.passed =
        u.focus.calls[j]?.map Call.passed :=
    fun hi hp j => (map_set hi hp j).trans (hpassed j)
  cases hturned with
  | idle hi => exact ⟨keptIn_of_ended hi, hclosed, hpassed, refused, hclosings, hrefused⟩
  | numbers hi => exact ⟨by simp [keptIn, hi], hclosed, hset hi rfl, refused, hclosings, hrefused⟩
  | keeps hi hn ho => exact absurd ho hopen
  | passes hi hn ho => exact absurd ho hopen
  | rejected hi hc heap hh =>
    exact ⟨by simp [keptIn, hi, hclosed], hclosed, hset hi rfl, refused, hclosings, hrefused⟩
  | drops hi log =>
    exact ⟨by simp [keptIn, hi], hclosed, hset hi rfl, refused, hclosings, hrefused⟩
  | closes ho => exact absurd ho hopen
  | closed hc =>
    refine ⟨rfl, hclosed, hpassed, refused ++ [.error (.text closedMessage)], ?_, ?_⟩
    · simp [hclosings]
    · intro r hmem
      rcases List.mem_append.mp hmem with hmem | hmem
      · exact hrefused r hmem
      · exact List.mem_singleton.mp hmem

end

/-! ### How a crowd ends -/

/-- Failures that were added by a crowd, as if they had been added in turn: first
those that were `kept`, then those that were over the limit and `dropped`. -/
structure AsIfInTurn (s : Scene Collector) (fs kept dropped : List FailureId) (t : Scene Crowd) :
    Prop where
  perm : (kept ++ dropped).Perm fs
  length_kept : kept.length = min fs.length s.focus.limit
  returned : t.focus.calls = Array.replicate fs.length .returned
  heap : t.heap = (afterAdding s (kept ++ dropped)).heap
  collector : t.focus.collector = (afterAdding s (kept ++ dropped)).focus
  stats : t.focus.collector.stats =
    ⟨fs.length, s.focus.dropped + (fs.length - s.focus.limit)⟩
  primary : t.focus.collector.primary = kept.head?
  gathered : Gathered s.heap kept t.heap

/-- Failures that were added by a crowd whose collector was closed, for the first
time in the scene `u`. -/
structure CutShort (s : Scene Collector) (fs kept dropped : List FailureId) (u t : Scene Crowd) :
    Prop where
  nodup : (kept ++ dropped).Nodup
  subset : kept ++ dropped ⊆ fs
  length_kept : kept.length ≤ s.focus.limit
  /-- The calls whose failures were kept or dropped return, and the others panic. -/
  calls : ∀ (i : Nat) (f : FailureId), fs[i]? = some f → t.focus.calls[i]? =
    some (if f ∈ kept ++ dropped then .returned else .panicked (.text closedMessage))
  /-- The calls that return are those that found the collector open. -/
  passed : ∀ i : Nat, t.focus.calls[i]? = some .returned ↔
    ∃ c, u.focus.calls[i]? = some c ∧ c.passed = true
  closings : ∃ refused, t.focus.closings = .ok kept.head? :: refused ∧
    ∀ r ∈ refused, r = .error (.text closedMessage)
  heap : t.heap = (afterAdding s kept).heap
  gathered : Gathered s.heap kept t.heap
  collector : t.focus.collector = { s.focus with
    closed := true, observed := fs.length, dropped := s.focus.dropped + dropped.length }

/-- What turns preserve that do not close the collector. -/
structure BeforeClose (s : Scene Collector) (fs kept dropped : List FailureId) (t : Scene Crowd) :
    Prop where
  gathers : Gathers s fs kept dropped t
  numbered : Numbered s.focus.limit kept dropped t
  due : t.focus.collector.observed + t.focus.calls.countP Call.isDue = fs.length

/-- What turns preserve once the collector was closed in the scene `u`, when `first`
had been kept. -/
structure SinceClose (s : Scene Collector) (fs : List FailureId) (u : Scene Crowd)
    (first kept dropped : List FailureId) (t : Scene Crowd) : Prop where
  kept_eq : kept = first
  gathers : Gathers s fs kept dropped t
  latched : Latched u first.head? t
  due : t.focus.collector.observed + t.focus.calls.countP Call.isDue = fs.length

section

variable {s : Scene Collector} {fs kept dropped : List FailureId} {t : Scene Crowd}

theorem Gathers.plain (hplain : Plain s.focus.limit s.heap fs) (h : Gathers s fs kept dropped t) :
    Plain s.focus.limit s.heap kept :=
  hplain.of_subset (List.nodup_append.mp h.shares.nodup).1 (List.append_subset.mp h.shares.subset).1

/-- Without a close a crowd ends as if the failures had been added in turn. -/
theorem asIfInTurn_of_ended (hr : s.focus.StartsRound) (hs : s.focus.supplier = none)
    (hplain : Plain s.focus.limit s.heap fs) (h : BeforeClose s fs kept dropped t)
    (hend : ∀ c ∈ t.focus.calls, c.ended = true) : AsIfInTurn s fs kept dropped t := by
  obtain ⟨hg, hn, hdue⟩ := h
  have hreturned : ∀ c ∈ t.focus.calls, c = .returned := by
    intro c hc
    have hp := Array.countP_eq_zero.mp hn.panicked c hc
    have he := hend c hc
    cases c <;> simp [Call.ended, Call.hasPanicked] at hp he ⊢
  -- so every call has used its number
  have hused : ∀ p : Call → Bool, p .returned = false → t.focus.calls.countP p = 0 := by
    intro p hp
    refine Array.countP_eq_zero.mpr fun c hc => ?_
    rw [hreturned c hc, hp]
    exact Bool.false_ne_true
  have hobserved : t.focus.collector.observed = fs.length := by
    rw [hused Call.isDue rfl] at hdue
    exact hdue
  have hkept : kept.length = min fs.length s.focus.limit := by
    have hwithin := hn.within
    rwa [hused _ rfl, hobserved] at hwithin
  have hdropped : dropped.length = fs.length - s.focus.limit := by
    have hbeyond := hn.beyond
    rwa [hused _ rfl, hobserved] at hbeyond
  have hperm : (kept ++ dropped).Perm fs := by
    refine (List.perm_ext_iff_of_nodup hg.shares.nodup hplain.nodup).mpr fun f =>
      ⟨fun hf => hg.shares.subset hf, fun hf => ?_⟩
    obtain ⟨i, hi⟩ := List.mem_iff_getElem?.mp hf
    obtain ⟨c, hc, hadds⟩ := hg.shares.adds i f hi
    obtain rfl := hreturned c (Array.mem_of_getElem? hc)
    exact hadds
  have htake : (kept ++ dropped).take s.focus.limit = kept := by
    rcases Nat.le_total fs.length s.focus.limit with hle | hle
    · have hnil : dropped = [] := List.eq_nil_of_length_eq_zero (by omega)
      rw [hnil, List.append_nil, List.take_of_length_le (by omega)]
    · exact List.take_left' (by omega)
  have hadded := afterAdding_plain hr hs (hplain.of_subset hg.shares.nodup hg.shares.subset)
  obtain ⟨closed, observed, hc⟩ := hg.collector
  obtain rfl : closed = false := by
    have ho := hn.isOpen
    rwa [hc] at ho
  obtain rfl : observed = fs.length := by
    rwa [hc] at hobserved
  refine ⟨hperm, hkept, Array.eq_replicate_iff.mpr ⟨hg.shares.size, hreturned⟩, ?_, ?_, ?_, ?_, ?_⟩
  · rw [hadded.heap, htake, hg.heap]
  · rw [hadded.focus, htake, hc, holding, hperm.length_eq, hdropped]
    simp [hr.isOpen]
  · rw [hc, ← hdropped]
    rfl
  · rw [hc]
    rfl
  · rw [hg.heap]
    exact (hg.plain hplain).gathered

/-- How a crowd ends whose collector was closed in the scene `u`. -/
theorem cutShort_of_ended (hr : s.focus.StartsRound) (hs : s.focus.supplier = none)
    (hplain : Plain s.focus.limit s.heap fs) {u : Scene Crowd}
    (hkept : kept.length ≤ s.focus.limit) (h : SinceClose s fs u kept kept dropped t)
    (hend : ∀ c ∈ t.focus.calls, c.ended = true) : CutShort s fs kept dropped u t := by
  obtain ⟨-, hg, hl, hdue⟩ := h
  have hobserved : t.focus.collector.observed = fs.length := by
    have hnone : t.focus.calls.countP Call.isDue = 0 := by
      refine Array.countP_eq_zero.mpr fun c hc => ?_
      have he := hend c hc
      cases c <;> simp [Call.ended, Call.isDue] at he ⊢
    rw [hnone] at hdue
    exact hdue
  have hadded := afterAdding_plain hr hs (hg.plain hplain)
  have htake : kept.take s.focus.limit = kept := List.take_of_length_le hkept
  obtain ⟨closed, observed, hc⟩ := hg.collector
  obtain rfl : closed = true := by
    have hclosed := hl.closed
    rwa [hc] at hclosed
  obtain rfl : observed = fs.length := by
    rwa [hc] at hobserved
  have hcalls : ∀ (i : Nat) (f : FailureId), fs[i]? = some f → t.focus.calls[i]? =
      some (if f ∈ kept ++ dropped then .returned else .panicked (.text closedMessage)) := by
    intro i f hf
    obtain ⟨c, hc, hadds⟩ := hg.shares.adds i f hf
    have he := hend c (Array.mem_of_getElem? hc)
    rw [hc]
    cases c with
    | returned => rw [if_pos (show f ∈ kept ++ dropped from hadds)]
    | panicked payload =>
      obtain ⟨rfl, hgone⟩ := hadds
      rw [if_neg hgone]
    | _ => cases he
  refine ⟨hg.shares.nodup, hg.shares.subset, hkept, hcalls, fun i => ⟨fun hi => ?_, ?_⟩,
    hl.closings, ?_, ?_, ?_⟩
  · have hpassed := hl.passed i
    rw [hi] at hpassed
    exact Option.map_eq_some_iff.mp hpassed.symm
  · rintro ⟨c, hi, hpassed⟩
    have hmap : t.focus.calls[i]?.map Call.passed = some true := by
      rw [hl.passed i, hi, Option.map_some, hpassed]
    obtain ⟨c', hi', hpassed'⟩ := Option.map_eq_some_iff.mp hmap
    have he := hend c' (Array.mem_of_getElem? hi')
    cases c' <;> simp [Call.passed, Call.ended] at hpassed' he
    exact hi'
  · rw [hadded.heap, htake, hg.heap]
  · rw [hg.heap]
    exact (hg.plain hplain).gathered
  · rw [hc, holding]
    simp [hr.primary]

theorem beforeClose_play (hr : s.focus.StartsRound) (hs : s.focus.supplier = none)
    (hplain : Plain s.focus.limit s.heap fs) {turns : List Turn} (hopen : .close ∉ turns) :
    BeforeClose s fs (keeping turns (offering s fs)) (dropping turns (offering s fs))
      ((play turns).after (offering s fs)) := by
  refine after_play_induction (P := BeforeClose s fs) turns ?_
    ⟨gathers_offering hr, numbered_offering hr, observed_add_due_offering hr⟩
  rintro x hx kept dropped t ⟨hg, hn, hdue⟩
  have hne : x ≠ .close := fun he => hopen (he ▸ hx)
  have hturned := hg.turned hs x
  exact ⟨hg.turn hs hplain x, hn.turn hg.limit_eq hne hturned,
    hturned.observed_add_due.trans hdue⟩

theorem BeforeClose.length_kept (h : BeforeClose s fs kept dropped t) :
    kept.length ≤ s.focus.limit := by
  have hwithin := h.numbered.within
  omega

theorem BeforeClose.primary_eq (h : BeforeClose s fs kept dropped t) :
    t.focus.collector.primary = kept.head? := by
  obtain ⟨closed, observed, hc⟩ := h.gathers.collector
  have ho := h.numbered.isOpen
  rw [hc] at ho ⊢
  rw [show closed = false from ho]
  rfl

/-- The close itself. -/
theorem BeforeClose.close (h : BeforeClose s fs kept dropped t) (hs : s.focus.supplier = none)
    (hplain : Plain s.focus.limit s.heap fs) :
    SinceClose s fs t kept kept dropped ((turn .close).after t) := by
  have hturned := h.gathers.turned hs .close
  have hg := h.gathers.turn hs hplain .close
  have hl := h.numbered.latched hturned
  rw [h.primary_eq] at hl
  simp only [keptIn, droppedIn, List.append_nil] at hg
  exact ⟨rfl, hg, hl, hturned.observed_add_due.trans h.due⟩

/-- Whatever comes after a close, nothing more is kept. -/
theorem SinceClose.play (hs : s.focus.supplier = none) (hplain : Plain s.focus.limit s.heap fs)
    {u : Scene Crowd} {first : List FailureId} (h : SinceClose s fs u first kept dropped t)
    (turns : List Turn) :
    SinceClose s fs u first (kept ++ keeping turns t) (dropped ++ dropping turns t)
      ((play turns).after t) := by
  refine after_play_induction (P := SinceClose s fs u first) turns ?_ h
  rintro x - kept dropped t ⟨hkept, hg, hl, hdue⟩
  have hturned := hg.turned hs x
  obtain ⟨hnone, hl⟩ := hl.turn hturned
  exact ⟨by rw [hnone, List.append_nil, hkept], hg.turn hs hplain x, hl,
    hturned.observed_add_due.trans hdue⟩

end

/-- **Calls that come between one another add as if in turn.** From the start of a
round of a collector without a supplier, each of a crowd of calls adds one of `fs`,
which are plain, and they take turns in any order. If the collector is not closed
and all calls have ended, then the collector and the heap are as if the failures
kept had been added in turn, and after them the failures dropped. If it is closed,
then the failures kept until then are all that is kept, the close hands out the
first of them, and those calls return that had found the collector open. Nothing
but a call panics, and three turns end a call. -/
theorem interleaved_adds (s : Scene Collector) (hr : s.focus.StartsRound)
    (hs : s.focus.supplier = none) (fs : List FailureId)
    (hplain : Plain s.focus.limit s.heap fs) :
    (∀ turns : List Turn, .close ∉ turns →
      let t := (play turns).after (offering s fs)
      (∀ c ∈ t.focus.calls, c.ended = true) →
      AsIfInTurn s fs (keeping turns (offering s fs)) (dropping turns (offering s fs)) t) ∧
    (∀ before after : List Turn, .close ∉ before →
      let turns := before ++ .close :: after
      let u := (play before).after (offering s fs)
      let t := (play turns).after (offering s fs)
      (∀ c ∈ t.focus.calls, c.ended = true) →
      CutShort s fs (keeping before (offering s fs)) (dropping turns (offering s fs)) u t) ∧
    ∀ turns : List Turn,
      let t := (play turns).after (offering s fs)
      (play turns).run (offering s fs) = .ok () t ∧
        ∀ (i : Nat) (c : Call), 3 ≤ turns.count (.call i) → t.focus.calls[i]? = some c →
          c.ended = true := by
  refine ⟨?_, ?_, ?_⟩
  · intro turns hopen t hend
    exact asIfInTurn_of_ended hr hs hplain (beforeClose_play hr hs hplain hopen) hend
  · intro before after hopen turns u t hend
    have hbefore := beforeClose_play hr hs hplain hopen
    have hsince := (hbefore.close hs hplain).play hs hplain after
    have hkept := hsince.kept_eq
    have hdropped : dropping turns (offering s fs) =
        dropping before (offering s fs) ++ dropping after ((turn .close).after u) :=
      along_append droppedIn before (.close :: after) _
    have ht : t = (play after).after ((turn .close).after u) := by
      rw [show t = (play turns).after _ from rfl, after_play_append, after_play_cons]
    rw [hkept, ← hdropped, ← ht] at hsince
    exact cutShort_of_ended hr hs hplain hbefore.length_kept hsince hend
  · intro turns
    exact ⟨run_play turns _, fun i c hthree hc => ended_of_three hthree hc⟩

/-- A collector that keeps two failures, beside three to be added, one of which
suppresses a fourth. -/
def contended : Scene Collector where
  heap := ⟨#[{ message := "a", suppressed := [3] }, { message := "b" }, { message := "c" },
    { message := "d" }]⟩
  focus := withLimit {} 2

/-- The last call takes the first number, and the first call is first to be kept.
If the collector is closed then, the last call panics. -/
theorem interleaved_adds_contended :
    let before : List Turn := [.call 2, .call 0, .call 1, .call 1, .call 0]
    let after : List Turn := [.call 2, .call 1]
    let u := (play before).after (offering contended [0, 1, 2])
    contended.focus.StartsRound ∧ contended.focus.supplier = none ∧
      Plain contended.focus.limit contended.heap [0, 1, 2] ∧
      AsIfInTurn contended [0, 1, 2] [0, 2] [1]
        ((play (before ++ after)).after (offering contended [0, 1, 2])) ∧
      CutShort contended [0, 1, 2] [0] [1] u
        ((play (before ++ .close :: after)).after (offering contended [0, 1, 2])) := by
  intro before after u
  have hr : contended.focus.StartsRound := startsRound_new.withLimit 2
  have hplain : Plain contended.focus.limit contended.heap [0, 1, 2] :=
    ⟨by decide, by decide, by decide, by decide⟩
  obtain ⟨hopen, hclosed, -⟩ := interleaved_adds contended hr rfl [0, 1, 2] hplain
  exact ⟨hr, rfl, hplain, hopen (before ++ after) (by decide) (by decide +kernel),
    hclosed before after (by decide) (by decide +kernel)⟩

end Crowd
end Teardown
