/-
# Groups only grow the heap

What is known of a release under way is that the errors of its leaves refer to
failures which exist and that the collectors of its groups are known. A poll
keeps it, whether it ends or panics, and so does dropping what is left.

Key definitions: `ResourceOf.All`, `Task.known`.
Key theorems: `Task.grows_pollWith`, `Task.grows_poll`, `ResourceOf.grows_releaseBy`.
-/
import Teardown.Release.Group
import Teardown.Proofs.Collector.Growing

namespace Teardown

open Act

section

variable {φ ψ ε : Type} {P Q : φ → Prop}

/-- `P` holds of every failure that the error of a leaf refers to. -/
def EndingOf.All (P : φ → Prop) : EndingOf φ → Prop
  | .fails e => e.All P
  | _ => True

theorem EndingOf.All.mono (hPQ : ∀ f, P f → Q f) : ∀ {e : EndingOf φ}, e.All P → e.All Q
  | .succeeds, _ => trivial
  | .fails _, h => ErrorOf.All.mono hPQ h
  | .panics _, _ => trivial

theorem EndingOf.all_of_traverse {g : ψ → Except ε φ} (hg : ∀ a b, g a = .ok b → P b) :
    ∀ {e : EndingOf ψ} {e' : EndingOf φ}, e.traverse g = .ok e' → e'.All P
  | .succeeds, _, h => by
    cases h
    trivial
  | .fails e, _, h => by
    obtain ⟨e', he, he'⟩ := ok_of_bind h
    cases he'
    exact ErrorOf.all_of_traverse hg he
  | .panics _, _, h => by
    cases h
    trivial

namespace ResourceOf

mutual

/-- `P` holds of every failure that a resource refers to. -/
def All (P : φ → Prop) : ResourceOf φ → Prop
  | .leaf _ _ ending => ending.All P
  | .group _ _ members => AllOf P members

/-- `P` holds of every failure that one of several resources refers to. -/
def AllOf (P : φ → Prop) : List (ResourceOf φ) → Prop
  | [] => True
  | m :: rest => m.All P ∧ AllOf P rest

end

mutual

theorem All.mono (hPQ : ∀ f, P f → Q f) : ∀ {r : ResourceOf φ}, r.All P → r.All Q
  | .leaf _ _ _, h => EndingOf.All.mono hPQ h
  | .group _ _ _, h => AllOf.mono hPQ h

theorem AllOf.mono (hPQ : ∀ f, P f → Q f) : ∀ {rs : List (ResourceOf φ)}, AllOf P rs → AllOf Q rs
  | [], _ => trivial
  | _ :: _, h => ⟨All.mono hPQ h.1, AllOf.mono hPQ h.2⟩

end

mutual

theorem all_of_traverse {g : ψ → Except ε φ} (hg : ∀ a b, g a = .ok b → P b) :
    ∀ {r : ResourceOf ψ} {r' : ResourceOf φ}, r.traverse g = .ok r' → r'.All P
  | .leaf _ _ _, _, h => by
    rw [traverse] at h
    obtain ⟨ending, he, he'⟩ := ok_of_bind h
    cases he'
    rw [All]
    exact EndingOf.all_of_traverse hg he
  | .group _ _ _, _, h => by
    rw [traverse] at h
    obtain ⟨members, hm, hm'⟩ := ok_of_bind h
    cases hm'
    rw [All]
    exact allOf_of_traverseAll hg hm

theorem allOf_of_traverseAll {g : ψ → Except ε φ} (hg : ∀ a b, g a = .ok b → P b) :
    ∀ {rs : List (ResourceOf ψ)} {rs' : List (ResourceOf φ)}, traverseAll g rs = .ok rs' →
      AllOf P rs'
  | [], _, h => by
    rw [traverseAll] at h
    cases h
    trivial
  | _ :: _, _, h => by
    rw [traverseAll] at h
    obtain ⟨m, hm, h⟩ := ok_of_bind h
    obtain ⟨rest, hrest, h'⟩ := ok_of_bind h
    cases h'
    exact ⟨all_of_traverse hg hm, allOf_of_traverseAll hg hrest⟩

end

end ResourceOf

end

/-- A resource that refers to failures which exist. -/
def ResourceOf.known : Upto Resource where
  holds n r := r.All (· < n)
  mono hmn h := h.mono fun _ hf => Nat.lt_of_lt_of_le hf hmn

namespace Task

mutual

/-- The errors of the leaves refer to failures that exist, and the collectors of
the groups are known. -/
def Known (n : Nat) : Task → Prop
  | .leaf _ _ _ ending => ending.All (· < n)
  | .group _ _ _ _ collector members => Collector.known n collector ∧ KnownAll n members

/-- Each of several releases under way is known. -/
def KnownAll (n : Nat) : List Task → Prop
  | [] => True
  | t :: rest => t.Known n ∧ KnownAll n rest

end

mutual

theorem Known.mono {m n : Nat} (hmn : m ≤ n) : ∀ {t : Task}, t.Known m → t.Known n
  | .leaf _ _ _ _, h => EndingOf.All.mono (fun _ hf => Nat.lt_of_lt_of_le hf hmn) h
  | .group _ _ _ _ _ _, h => ⟨Collector.known.mono hmn h.1, KnownAll.mono hmn h.2⟩

theorem KnownAll.mono {m n : Nat} (hmn : m ≤ n) : ∀ {ts : List Task}, KnownAll m ts → KnownAll n ts
  | [], _ => trivial
  | _ :: _, h => ⟨Known.mono hmn h.1, KnownAll.mono hmn h.2⟩

end

/-- What is known of a release under way. -/
def known : Upto Task := ⟨Known, fun hmn h => Known.mono hmn h⟩

theorem knownAll_iff {n : Nat} : ∀ {ts : List Task}, KnownAll n ts ↔ known.each n ts
  | [] => ⟨fun _ _ h => absurd h (List.not_mem_nil), fun _ => trivial⟩
  | t :: ts => by
    rw [KnownAll, knownAll_iff]
    exact List.forall_mem_cons.symm

/-- The supplier of a group makes a root. -/
theorem known_groupCollector (n : Nat) (name : String) (size limit : Nat) :
    Collector.known n (groupCollector name size limit) :=
  Collector.known_withLimit (Collector.known_withSupplier fun _ _ h => by cases h) limit

mutual

theorem known_ofResource {n : Nat} : ∀ {r : Resource} (index : Nat), r.All (· < n) →
    (ofResource index r).Known n
  | .leaf _ _ _, _, h => by
    rw [ofResource]
    exact h
  | .group name limit members, _, h => by
    rw [ofResource]
    exact ⟨known_groupCollector n name members.length limit, knownAll_ofMembers 0 h⟩

theorem knownAll_ofMembers {n : Nat} : ∀ {rs : List Resource} (index : Nat),
    ResourceOf.AllOf (· < n) rs → KnownAll n (ofMembers index rs)
  | [], _, _ => by
    rw [ofMembers]
    trivial
  | _ :: _, index, h => by
    rw [ofMembers]
    exact ⟨known_ofResource index h.1, knownAll_ofMembers (index + 1) h.2⟩

end

/-- What is known of what a poll finds. -/
def polled : Upto Polled where
  holds n
    | .pending t => t.Known n
    | .finished result => Collector.ends n result
  mono {m n p} hmn h := by
    cases p with
    | pending t => exact Known.mono hmn h
    | finished result => exact Collector.ends.mono hmn h

/-- What is known of the members of a group that are left, and of its collector. -/
abbrev left : Upto (Collector × List Task) := .both Collector.known (known.each)

variable {n : Nat} {wide : Width} {c : Collector}

theorem grows_withCollector {α : Type} {act : Act Collector α} {Q : Upto α}
    (hc : Collector.known n c) (h : Grows Collector.known n act Q) :
    Grows .any n (withCollector c act) (.both Q Collector.known) := by
  intro s hn hh _
  rw [run_withCollector]
  have hr := h { heap := s.heap, log := s.log, focus := c } hn hh (Collector.known.mono hn hc)
  cases hrun : act.run { heap := s.heap, log := s.log, focus := c } with
  | ok a t =>
    rw [hrun] at hr
    exact ⟨hr.1, trivial, hr.2.2, hr.2.1⟩
  | error p t =>
    rw [hrun] at hr
    exact ⟨hr.1, trivial, hr.2.2⟩

/-- Dropping the collector of a group. -/
theorem grows_dropCollector (hc : Collector.known n c) :
    Grows .any n (withCollector c Collector.drop) (.both .any Collector.known) :=
  grows_withCollector hc Collector.grows_drop

mutual

theorem grows_drop (wide : Width) : ∀ {t : Task} {n : Nat}, t.Known n →
    Grows .any n (t.drop wide) .any
  | .leaf _ _ _ _, _, _ => by
    rw [drop]
    exact grows_pure trivial
  | .group _ _ size _ c _, n, h => by
    rw [drop]
    have hself : ∀ m, n ≤ m → Grows .any m (do let _ ← withCollector c Collector.drop) .any :=
      fun m hm => (grows_dropCollector (Collector.known.mono hm h.1)).bind
        fun _ _ _ _ => grows_pure trivial
    split
    · exact (grows_dropFromEnd wide h.2).bind fun m _ hm _ => hself m hm
    · exact (grows_dropInOrder wide h.2).bind fun m _ hm _ => hself m hm

theorem grows_dropInOrder (wide : Width) : ∀ {ts : List Task} {n : Nat}, KnownAll n ts →
    Grows .any n (dropInOrder wide ts) .any
  | [], _, _ => by
    rw [dropInOrder]
    exact grows_pure trivial
  | _ :: _, _, h => by
    rw [dropInOrder]
    exact (grows_drop wide h.1).bind fun _ _ hm _ => (grows_dropInOrder wide h.2).mono hm

theorem grows_dropFromEnd (wide : Width) : ∀ {ts : List Task} {n : Nat}, KnownAll n ts →
    Grows .any n (dropFromEnd wide ts) .any
  | [], _, _ => by
    rw [dropFromEnd]
    exact grows_pure trivial
  | _ :: _, _, h => by
    rw [dropFromEnd]
    exact (grows_dropFromEnd wide h.2).bind fun _ _ hm _ => (grows_drop wide h.1).mono hm

end

theorem grows_settle (group : String) (hc : Collector.known n c) (member : Task)
    {result : Except ErrorValue Unit} (hr : Collector.ends n result) :
    Grows .any n (settle group c member result) Collector.known := by
  cases result with
  | ok u => exact (grows_emit _).bind fun _ _ hm _ => grows_pure (Collector.known.mono hm hc)
  | error e =>
    refine grows_ask_any.bind fun m text hm _ => ?_
    refine (grows_emit _).bind fun m' _ hm' _ => ?_
    have hle := Nat.le_trans hm hm'
    refine (grows_withCollector (Collector.known.mono hle hc)
      (Collector.grows_addError (Upto.error.mono hle hr))).bind fun _ left _ hleft => ?_
    exact grows_pure hleft.2

theorem grows_conclude (name : String) (hc : Collector.known n c) :
    Grows .any n (conclude name c) Collector.ends := by
  refine (grows_withCollector hc Collector.grows_close).bind fun m closed _ hclosed => ?_
  obtain ⟨f, c'⟩ := closed
  cases f with
  | none => exact (grows_emit _).bind fun _ _ _ _ => grows_pure trivial
  | some f =>
    refine grows_ask_any.bind fun _ failures hm _ => ?_
    refine grows_ask_any.bind fun _ message hm' _ => ?_
    refine (grows_emit _).bind fun _ _ hm'' _ => grows_pure ?_
    have hf : f < m := hclosed.1 f rfl
    exact Nat.lt_of_lt_of_le hf (Nat.le_trans hm (Nat.le_trans hm' hm''))

theorem grows_remain (index : Nat) (name : String) (size : Nat) {members : List Task}
    (h : left n (c, members)) : Grows .any n (remain index name size c members) polled := by
  unfold remain
  cases members.isEmpty with
  | true => exact (grows_conclude name h.1).bind fun _ _ _ hr => grows_pure hr
  | false => exact grows_pure ⟨h.1, knownAll_iff.mpr h.2⟩

theorem grows_giveUp {α : Type} {Q : Upto α} (hc : Collector.known n c)
    {before : Act Finished Unit} (hb : Grows .any n before .any) {payload : Payload}
    (hp : Upto.payload n payload) : Grows .any n (giveUp c before payload : Act Finished α) Q := by
  refine hb.bind fun m _ hm _ => ?_
  refine (grows_dropCollector (Collector.known.mono hm hc)).bind fun m' _ hm' _ => ?_
  exact grows_throw (Upto.payload.mono (Nat.le_trans hm hm') hp)

/-- What is known of a queue with its first task put at the end. -/
theorem each_concat {t : Task} {ts : List Task} (hts : known.each n ts) (ht : t.Known n) :
    known.each n (ts ++ [t]) := by
  intro t' ht'
  rcases List.mem_append.mp ht' with ht' | ht'
  · exact hts t' ht'
  · exact List.mem_singleton.mp ht' ▸ ht

/-- A round over a queue, if a poll of each task grows the heap. -/
theorem grows_pollQueue {poll : Task → Act Finished Polled}
    (hpoll : ∀ (t : Task) (n : Nat), t.Known n → Grows .any n (poll t) polled) (name : String) :
    ∀ (fuel : Nat) {n : Nat} {c : Collector} (waited : Bool) {queue : List Task},
      left n (c, queue) → Grows .any n (pollQueue wide poll name fuel c waited queue) left
  | 0, _, _, _, _, h => by
    rw [pollQueue]
    exact grows_pure h
  | _ + 1, _, _, _, [], h => by
    rw [pollQueue]
    exact grows_pure h
  | fuel + 1, n, c, waited, t :: rest, h => by
    rw [pollQueue]
    obtain ⟨ht, hrest⟩ := List.forall_mem_cons.mp h.2
    refine (hpoll t n ht).caught.bind fun m found hm hfound => ?_
    have hc : Collector.known m c := Collector.known.mono hm h.1
    have hrest : known.each m rest := known.each.mono hm hrest
    cases found with
    | error payload =>
      exact grows_giveUp hc (grows_dropFromEnd wide (knownAll_iff.mpr hrest)) hfound
    | ok found =>
      cases found with
      | pending t =>
        have hqueue : left m (c, rest ++ [t]) := ⟨hc, each_concat hrest hfound⟩
        show Grows .any m (if _ then _ else _) left
        split
        · exact grows_pure hqueue
        · exact grows_pollQueue hpoll name fuel true hqueue
      | finished result =>
        refine (grows_settle name hc t hfound).bind fun m' c' hm' hc' => ?_
        exact grows_pollQueue hpoll name fuel false ⟨hc', known.each.mono hm' hrest⟩

/-- A poll of a group: it starts if it has not, goes over its members and sees what
remains. -/
theorem pollWith_group (wide : Width) (deeper : Task → Act Finished Polled) (index : Nat)
    (name : String) (size : Nat) (started : Bool) (c : Collector) (members : List Task) :
    pollWith wide deeper (.group index name size started c members) =
      (if started = false then Act.emit (.groupStarted name size) else pure ()) >>= fun _ =>
        (if wide size then pollQueue wide deeper name (workAll members) c false members
          else pollMembers wide deeper name c [] members) >>= fun left =>
            remain index name size left.1 left.2 := by
  rw [pollWith]
  cases started <;> cases wide size <;> rfl

mutual

/-- **What a poll does**, if the polls of the members of wide groups do. -/
theorem grows_pollWith {deeper : Task → Act Finished Polled}
    (hdeeper : ∀ (t : Task) (n : Nat), t.Known n → Grows .any n (deeper t) polled) :
    ∀ {t : Task} {n : Nat}, t.Known n → Grows .any n (t.pollWith wide deeper) polled
  | .leaf _ _ (_ + 1) _, _, h => by
    rw [pollWith]
    exact grows_pure h
  | .leaf _ _ 0 ending, n, h => by
    have hfinish (name : String) : Grows (.any : Upto Finished) n
        (modify fun s => { s with focus := s.focus.push name }) .any :=
      grows_modify fun _ _ _ => ⟨rfl, trivial⟩
    cases ending <;> rw [pollWith] <;> refine (hfinish _).bind fun m _ hm _ => ?_
    · exact grows_pure trivial
    · exact grows_pure (Upto.error.mono hm h)
    · exact grows_throw trivial
  | .group index name size started c members, n, h => by
    rw [pollWith_group]
    refine Grows.bind (Q := .any) ?_ fun m _ hm _ => ?_
    · cases started with
      | true => exact grows_pure trivial
      | false => exact grows_emit _
    · have hc : Collector.known m c := Collector.known.mono hm h.1
      have hmembers : KnownAll m members := KnownAll.mono hm h.2
      refine Grows.bind (Q := left) ?_ fun m' leftover _ hleft => grows_remain index name size hleft
      cases wide size with
      | true => exact grows_pollQueue hdeeper name _ false ⟨hc, knownAll_iff.mp hmembers⟩
      | false => exact grows_pollMembers hdeeper name hc hmembers (by simp [Upto.each])

theorem grows_pollMembers {deeper : Task → Act Finished Polled}
    (hdeeper : ∀ (t : Task) (n : Nat), t.Known n → Grows .any n (deeper t) polled) (name : String) :
    ∀ {ts : List Task} {n : Nat} {c : Collector} {before : List Task}, Collector.known n c →
      KnownAll n ts → known.each n before →
      Grows .any n (pollMembers wide deeper name c before ts) left
  | [], _, _, _, hc, _, hbefore => by
    rw [pollMembers]
    exact grows_pure ⟨hc, fun t ht => hbefore t (List.mem_reverse.mp ht)⟩
  | t :: rest, n, c, before, hc, hts, hbefore => by
    rw [pollMembers]
    refine (grows_pollWith hdeeper hts.1).caught.bind fun m found hm hfound => ?_
    have hc : Collector.known m c := Collector.known.mono hm hc
    have hrest : KnownAll m rest := KnownAll.mono hm hts.2
    have hbefore : known.each m before := known.each.mono hm hbefore
    cases found with
    | error payload =>
      refine grows_giveUp hc (grows_dropInOrder wide (knownAll_iff.mpr ?_)) hfound
      intro t' ht'
      rcases List.mem_append.mp ht' with ht' | ht'
      · exact hbefore t' (List.mem_reverse.mp ht')
      · exact knownAll_iff.mp hrest t' ht'
    | ok found =>
      cases found with
      | pending t =>
        exact grows_pollMembers hdeeper name hc hrest (List.forall_mem_cons.mpr ⟨hfound, hbefore⟩)
      | finished result =>
        refine (grows_settle name hc t hfound).bind fun m' c' hm' hc' => ?_
        exact grows_pollMembers hdeeper name hc' (KnownAll.mono hm' hrest)
          (known.each.mono hm' hbefore)

end

/-- **A poll only grows the heap.** -/
theorem grows_poll (wide : Width) : ∀ (depth : Nat) (t : Task) (n : Nat), t.Known n →
    Grows .any n (t.poll wide depth) polled
  | 0, _, _, h => by
    refine grows_pollWith (fun t n ht => ?_) h
    exact grows_pure (show polled n (.pending t) from ht)
  | depth + 1, _, _, h => grows_pollWith (grows_poll wide depth) h

theorem grows_finish (wide : Width) (depth : Nat) : ∀ (fuel : Nat) {t : Task} {n : Nat},
    t.Known n → Grows .any n (t.finish wide depth fuel) Collector.ends
  | 0, _, _, _ => grows_pure trivial
  | fuel + 1, t, n, h => by
    refine (grows_poll wide depth t n h).bind fun m found _ hfound => ?_
    cases found with
    | finished result => exact grows_pure hfound
    | pending t => exact grows_finish wide depth fuel hfound

end Task

/-- **Releasing a resource only grows the heap.** -/
theorem ResourceOf.grows_releaseBy (wide : Width) {r : Resource} {n : Nat} (hr : r.All (· < n)) :
    Grows .any n (r.releaseBy wide) (.except .failure .any) := by
  refine (Task.grows_finish wide _ _ (Task.known_ofResource 0 hr)).bind fun m result _ hresult => ?_
  cases result with
  | ok u => exact grows_pure trivial
  | error e =>
    refine (grows_yields fun h hn _ => Heap.yields_ofError (Upto.error.mono hn hresult)).bind ?_
    intro m' f _ hf
    exact grows_pure hf

end Teardown
