/-
# Acts that only grow the heap

Whatever an act is given refers to failures that exist, and so does whatever it
leaves: the heap only grows, and identities are never given out again. What is
known of a value in which failures occur is told by how many failures there are
(`Upto`); once known it stays known. `Act.Grows J n act Q` says that `act`, run
when there are at least `n` failures and with a focus that `J` holds of, only
makes failures and attaches failures to others, keeps `J`, and gives a value that
`Q` holds of or a panic that carries a failure which exists. It is put together
along the act, one rule for each way of building acts.

Key definitions: `Upto`, `Act.Grows`.
Key theorems: `Act.Grows.bind`, `Act.Grows.caught`, `Act.Grows.ensuring`,
`Act.Grows.place`.
-/
import Teardown.Proofs.Failure.Growth

namespace Teardown

/-- A property of values in which failures occur, told by how many failures
there are. -/
structure Upto (α : Type) where
  holds : Nat → α → Prop
  mono {m n : Nat} {a : α} (hmn : m ≤ n) (h : holds m a) : holds n a

namespace Upto

variable {α β ε : Type}

instance : CoeFun (Upto α) fun _ => Nat → α → Prop := ⟨Upto.holds⟩

/-- Nothing is asked of the value. -/
def any : Upto α where
  holds _ _ := True
  mono _ h := h

/-- A failure that exists. -/
def failure : Upto FailureId where
  holds n f := f < n
  mono hmn h := Nat.lt_of_lt_of_le h hmn

/-- An error that refers to failures which exist. -/
def error : Upto ErrorValue where
  holds n e := e.All (· < n)
  mono hmn h := h.mono fun _ hf => Nat.lt_of_lt_of_le hf hmn

/-- A panic that carries a failure which exists, if it carries one. -/
def payload : Upto Payload where
  holds n p := p.All (· < n)
  mono hmn h := h.mono fun _ hf => Nat.lt_of_lt_of_le hf hmn

/-- Nothing or a value that `K` holds of. -/
def optional (K : Upto α) : Upto (Option α) where
  holds n o := ∀ a, o = some a → K n a
  mono hmn h a ha := K.mono hmn (h a ha)

/-- An error that `K` holds of or a value that `L` holds of. -/
def except (K : Upto ε) (L : Upto α) : Upto (Except ε α) where
  holds n
    | .ok a => L n a
    | .error e => K n e
  mono {m n r} hmn h := by
    cases r with
    | ok a => exact L.mono hmn h
    | error e => exact K.mono hmn h

/-- A pair. -/
def both (K : Upto α) (L : Upto β) : Upto (α × β) where
  holds n p := K n p.1 ∧ L n p.2
  mono hmn h := ⟨K.mono hmn h.1, L.mono hmn h.2⟩

/-- Every element. -/
def each (K : Upto α) : Upto (List α) where
  holds n as := ∀ a ∈ as, K n a
  mono hmn h a ha := K.mono hmn (h a ha)

end Upto

namespace Act

variable {σ τ α β : Type} {J : Upto σ} {K : Upto τ} {Q : Upto α} {R : Upto β} {n m : Nat}

/-- What is left of a heap that an act was run in has grown. -/
def GrownTo (J : Upto σ) (Q : Upto α) (h : Heap) : EStateM.Result Payload (Scene σ) α → Prop
  | .ok a t => h.Grows t.heap ∧ J t.heap.size t.focus ∧ Q t.heap.size a
  | .error p t => h.Grows t.heap ∧ J t.heap.size t.focus ∧ Upto.payload t.heap.size p

/-- An act that only grows the heap. -/
def Grows (J : Upto σ) (n : Nat) (act : Act σ α) (Q : Upto α) : Prop :=
  ∀ s : Scene σ, n ≤ s.heap.size → s.heap.Sound → J s.heap.size s.focus →
    GrownTo J Q s.heap (act.run s)

theorem GrownTo.trans {h h' : Heap} {r : EStateM.Result Payload (Scene σ) α} (hg : h.Grows h')
    (hr : GrownTo J Q h' r) : GrownTo J Q h r := by
  cases r with
  | ok a t => exact ⟨hg.trans hr.1, hr.2⟩
  | error p t => exact ⟨hg.trans hr.1, hr.2⟩

/-! ### Rules -/

theorem Grows.mono {act : Act σ α} (h : Grows J n act Q) (hnm : n ≤ m) : Grows J m act Q :=
  fun s hm => h s (Nat.le_trans hnm hm)

/-- An act has left the heap. -/
def KeptIn (J : Upto σ) (Q : Upto α) (h : Heap) : EStateM.Result Payload (Scene σ) α → Prop
  | .ok a t => t.heap = h ∧ J h.size t.focus ∧ Q h.size a
  | .error p t => t.heap = h ∧ J h.size t.focus ∧ Upto.payload h.size p

/-- An act that leaves the heap. -/
theorem grows_of_run {act : Act σ α}
    (h : ∀ s : Scene σ, n ≤ s.heap.size → s.heap.Sound → J s.heap.size s.focus →
      KeptIn J Q s.heap (act.run s)) : Grows J n act Q := by
  intro s hn hh hJ
  have hr := h s hn hh hJ
  cases hrun : act.run s with
  | ok a t =>
    rw [hrun] at hr
    obtain ⟨hheap, hfocus, ha⟩ := hr
    exact ⟨hheap ▸ .refl, hheap ▸ hfocus, hheap ▸ ha⟩
  | error p t =>
    rw [hrun] at hr
    obtain ⟨hheap, hfocus, hp⟩ := hr
    exact ⟨hheap ▸ .refl, hheap ▸ hfocus, hheap ▸ hp⟩

theorem grows_pure {a : α} (ha : Q n a) : Grows J n (pure a) Q :=
  fun _ hn _ hJ => ⟨.refl, hJ, Q.mono hn ha⟩

theorem grows_throw {p : Payload} (hp : Upto.payload n p) : Grows J n (throw p : Act σ α) Q :=
  fun _ hn _ hJ => ⟨.refl, hJ, Upto.payload.mono hn hp⟩

theorem Grows.bind {act : Act σ α} {k : α → Act σ β} (ha : Grows J n act Q)
    (hk : ∀ m a, n ≤ m → Q m a → Grows J m (k a) R) : Grows J n (act >>= k) R := by
  intro s hn hh hJ
  have hr := ha s hn hh hJ
  rw [EStateM.run_bind]
  cases hrun : act.run s with
  | ok a t =>
    rw [hrun] at hr
    obtain ⟨hg, hfocus, ha⟩ := hr
    have hrest := hk _ a (Nat.le_trans hn hg.size_le) ha t (Nat.le_refl _) (hg.sound hh) hfocus
    exact hrest.trans hg
  | error p t =>
    rw [hrun] at hr
    exact hr

/-- What is read is known as the focus is. -/
theorem Grows.get_bind {k : Scene σ → Act σ β}
    (hk : ∀ s : Scene σ, n ≤ s.heap.size → J s.heap.size s.focus → Grows J s.heap.size (k s) R) :
    Grows J n (get >>= k) R := by
  intro s hn hh hJ
  exact hk s hn hJ s (Nat.le_refl _) hh hJ

theorem grows_modify {g : Scene σ → Scene σ}
    (hg : ∀ s : Scene σ, n ≤ s.heap.size → J s.heap.size s.focus →
      (g s).heap = s.heap ∧ J s.heap.size (g s).focus) : Grows J n (modify g) .any :=
  grows_of_run fun s hn _ hJ => ⟨(hg s hn hJ).1, (hg s hn hJ).2, trivial⟩

theorem grows_onHeap {g : Heap → α × Heap}
    (hg : ∀ h : Heap, n ≤ h.size → h.Sound → h.Grows (g h).2 ∧ Q (g h).2.size (g h).1) :
    Grows J n (onHeap g) Q := by
  intro s hn hh hJ
  obtain ⟨hgrown, hq⟩ := hg s.heap hn hh
  exact ⟨hgrown, J.mono hgrown.size_le hJ, hq⟩

/-- An act that makes a failure. -/
theorem grows_yields {g : Heap → FailureId × Heap}
    (hg : ∀ h : Heap, n ≤ h.size → h.Sound → h.Yields (g h)) : Grows J n (onHeap g) .failure :=
  grows_onHeap hg

theorem grows_ask {g : Heap → α} (hg : ∀ h : Heap, n ≤ h.size → h.Sound → Q h.size (g h)) :
    Grows J n (ask g) Q :=
  fun s hn hh hJ => ⟨.refl, hJ, hg s.heap hn hh⟩

/-- What is asked is not relied on. -/
theorem grows_ask_any {g : Heap → α} : Grows J n (ask g) .any :=
  grows_ask fun _ _ _ => trivial

theorem grows_emit (event : Event) : Grows J n (emit event) .any :=
  fun _ _ _ hJ => ⟨.refl, hJ, trivial⟩

theorem grows_attach (parent : FailureId) {child : FailureId} (hc : child < n) :
    Grows J n (attach parent child) .any := by
  intro s hn _ hJ
  have hgrown : s.heap.Grows (s.heap.attach parent child) :=
    .attach .refl parent (Nat.lt_of_lt_of_le hc hn)
  exact ⟨hgrown, J.mono hgrown.size_le hJ, trivial⟩

theorem grows_raise {f : FailureId} (hf : f < n) : Grows J n (raise f : Act σ α) Q :=
  fun _ hn _ hJ => ⟨.refl, hJ, Nat.lt_of_lt_of_le hf hn⟩

theorem Grows.caught {act : Act σ α} (h : Grows J n act Q) :
    Grows J n (caught act) (.except .payload Q) := by
  intro s hn hh hJ
  have hr := h s hn hh hJ
  rw [run_caught]
  cases hrun : act.run s with
  | ok a t =>
    rw [hrun] at hr
    exact hr
  | error p t =>
    rw [hrun] at hr
    exact hr

theorem Grows.ensuring {act : Act σ α} {after : Act σ Unit} (h : Grows J n act Q)
    (ha : Grows J n after .any) : Grows J n (ensuring act after) Q := by
  intro s hn hh hJ
  have hr := h s hn hh hJ
  show GrownTo J Q s.heap (Act.ensuring act after s)
  unfold Act.ensuring
  cases hrun : act.run s with
  | ok a t =>
    rw [hrun] at hr
    rw [show act s = .ok a t from hrun]
    obtain ⟨hg, hfocus, ha'⟩ := hr
    have hmap : Grows J t.heap.size (after.map fun _ => a) Q :=
      (ha.mono (Nat.le_trans hn hg.size_le)).bind fun m _ hm _ => grows_pure (Q.mono hm ha')
    exact (hmap t (Nat.le_refl _) (hg.sound hh) hfocus).trans hg
  | error p t =>
    rw [hrun] at hr
    rw [show act s = .error p t from hrun]
    obtain ⟨hg, hfocus, hp⟩ := hr
    have hafter := ha t (Nat.le_trans hn hg.size_le) (hg.sound hh) hfocus
    cases hrun' : after.run t with
    | ok u t' =>
      rw [hrun'] at hafter
      dsimp only
      rw [show after t = .ok u t' from hrun']
      exact ⟨hg.trans hafter.1, hafter.2.1, Upto.payload.mono hafter.1.size_le hp⟩
    | error p' t' =>
      rw [hrun'] at hafter
      dsimp only
      rw [show after t = .error p' t' from hrun']
      exact ⟨hg.trans hafter.1, hafter.2⟩

theorem grows_forM {f : β → Act σ Unit} : ∀ (bs : List β), (∀ b ∈ bs, Grows J n (f b) .any) →
    Grows J n (bs.forM f) .any
  | [], _ => grows_pure trivial
  | b :: bs, hf => by
    show Grows J n (f b >>= fun _ => bs.forM f) .any
    refine (hf b (List.mem_cons_self ..)).bind fun m _ hm _ => ?_
    exact (grows_forM bs fun b hb => hf b (List.mem_cons_of_mem _ hb)).mono hm

/-- What an act that only grows the heap leaves, however it ends. -/
theorem Grows.after {act : Act σ α} (h : Grows J n act Q) {s : Scene σ} (hn : n ≤ s.heap.size)
    (hh : s.heap.Sound) (hJ : J s.heap.size s.focus) :
    s.heap.Grows (act.after s).heap ∧ J (act.after s).heap.size (act.after s).focus := by
  have hr := h s hn hh hJ
  unfold Act.after
  cases hrun : act.run s with
  | ok a t =>
    rw [hrun] at hr
    exact ⟨hr.1, hr.2.1⟩
  | error p t =>
    rw [hrun] at hr
    exact ⟨hr.1, hr.2.1⟩

/-! ### Acts on another focus -/

/-- How an act on one focus ends, put into another focus by `f`, where `g` gives
the value. -/
def refocus (f : τ → σ) (g : α → τ → β) :
    EStateM.Result Payload (Scene τ) α → EStateM.Result Payload (Scene σ) β
  | .ok a t => .ok (g a t.focus) { heap := t.heap, log := t.log, focus := f t.focus }
  | .error p t => .error p { heap := t.heap, log := t.log, focus := f t.focus }

theorem GrownTo.refocus {h : Heap} {r : EStateM.Result Payload (Scene τ) α} {f : τ → σ}
    {g : α → τ → β} (hr : GrownTo K Q h r) (hf : ∀ m t, h.size ≤ m → K m t → J m (f t))
    (hg : ∀ m a t, h.size ≤ m → Q m a → K m t → R m (g a t)) :
    GrownTo J R h (Act.refocus f g r) := by
  cases r with
  | ok a t =>
    obtain ⟨hgrown, hfocus, ha⟩ := hr
    exact ⟨hgrown, hf _ _ hgrown.size_le hfocus, hg _ _ _ hgrown.size_le ha hfocus⟩
  | error p t =>
    obtain ⟨hgrown, hfocus, hp⟩ := hr
    exact ⟨hgrown, hf _ _ hgrown.size_le hfocus, hp⟩

end Act

/-- A place in a focus: what is known there is part of what is known of the
focus. -/
structure Place.Keeps {σ τ : Type} (p : Place σ τ) (J : Upto σ) (K : Upto τ) : Prop where
  get {n : Nat} {s : σ} (h : J n s) : K n (p.get s)
  set {n : Nat} {s : σ} {t : τ} (h : J n s) (ht : K n t) : J n (p.set s t)

namespace Place

variable {σ τ : Type} {J : Upto σ} {K : Upto τ}

theorem keeps_whole : (whole : Place σ σ).Keeps J J := ⟨fun h => h, fun _ ht => ht⟩

theorem keeps_first : (first : Place (σ × τ) σ).Keeps (.both J K) J :=
  ⟨fun h => h.1, fun h ht => ⟨ht, h.2⟩⟩

theorem keeps_second : (second : Place (σ × τ) τ).Keeps (.both J K) K :=
  ⟨fun h => h.2, fun h ht => ⟨h.1, ht⟩⟩

end Place

theorem Act.Grows.place {σ τ α : Type} {J : Upto σ} {K : Upto τ} {Q : Upto α} {n : Nat}
    {p : Place σ τ} (hp : p.Keeps J K) {act : Act τ α} (h : Act.Grows K n act Q) :
    Act.Grows J n (p.run act) Q := by
  intro s hn hh hJ
  have hr := h { heap := s.heap, log := s.log, focus := p.get s.focus } hn hh (hp.get hJ)
  have hrun : (p.run act).run s = Act.refocus (p.set s.focus) (fun a _ => a)
      (act.run { heap := s.heap, log := s.log, focus := p.get s.focus }) := rfl
  rw [hrun]
  exact hr.refocus (fun m t hm ht => hp.set (J.mono hm hJ) ht) fun _ _ _ _ ha _ => ha

end Teardown
