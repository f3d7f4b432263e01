/-
# What readers give

A text may be written in many ways, and of what is read from it nothing is known
but the type. What holds of everything that a reader of items gives holds of the
lists it is used for, and what the fields of a record preserve, one after the
other, holds of the record: whatever the order of its members, those left out and
those passed over. Where no array or object may be opened, nothing is read.

Key definitions: `Json.Gives`.
Key theorems: `Json.gives_readList`, `Json.gives_readRecord`, `Json.Gives.of_decode`.
-/
import Teardown.Json.Reader

namespace Teardown
namespace Json

variable {α β σ : Type}

/-- Whatever the reader gives, of whatever text, satisfies `P`. -/
def Gives (read : Reader α) (P : α → Prop) : Prop :=
  ∀ cs a rest, read.run cs = .ok (a, rest) → P a

namespace Gives

variable {P : α → Prop} {Q : β → Prop}

theorem pure {a : α} (ha : P a) : Gives (Pure.pure a) P := by
  intro cs b rest h
  cases h
  exact ha

/-- A fault gives nothing. -/
theorem throw (fault : Fault) : Gives (MonadExcept.throw fault : Reader α) P := by
  intro cs a rest h
  cases h

theorem bind {read : Reader α} {next : α → Reader β} (hread : Gives read P)
    (hnext : ∀ a, P a → Gives (next a) Q) : Gives (read >>= next) Q := by
  intro cs b rest h
  rw [StateT.run_bind] at h
  cases hr : read.run cs with
  | error fault =>
    rw [hr] at h
    cases h
  | ok p =>
    rw [hr] at h
    exact hnext p.1 (hread cs p.1 p.2 hr) p.2 b rest h

/-- Nothing is known of what is read first. -/
theorem after {read : Reader α} {next : α → Reader β} (hnext : ∀ a, Gives (next a) Q) :
    Gives (read >>= next) Q :=
  bind (P := fun _ => True) (fun _ _ _ _ => trivial) fun a _ => hnext a

/-- What is read from a whole text satisfies `P`. -/
theorem of_decode {read : Reader α} (hread : Gives read P) {text : String} {a : α}
    (h : decode read text = .ok a) : P a := by
  cases hr : read.run text.toList with
  | error fault =>
    rw [decode, show read text.toList = .error fault from hr] at h
    cases h
  | ok p =>
    rw [decode, show read text.toList = .ok p from hr] at h
    obtain ⟨b, rest⟩ := p
    have hb := hread _ _ _ hr
    have h : (if (rest.dropWhile isSpace).isEmpty then Except.ok b else .error Fault.malformed) =
        .ok a := h
    split at h
    · cases h
      exact hb
    · cases h

end Gives

variable {P : α → Prop}

/-- Nothing comes after a fault. -/
theorem Gives.throw_bind (fault : Fault) {next : β → Reader α} :
    Gives (MonadExcept.throw fault >>= next) P := by
  intro cs a rest h
  cases h

theorem Gives.ite {c : Prop} [Decidable c] {read other : Reader α} (hread : Gives read P)
    (hother : Gives other P) : Gives (if c then read else other) P := by
  split
  · exact hread
  · exact hother

/-- Nothing is read where a value of another type stands. -/
theorem gives_refuse : Gives (refuse : Reader α) P := by
  have hread : ∀ {γ : Type} (read : Reader γ), Gives (do let _ ← read; throw .mismatch) P :=
    fun read => .after fun _ => .throw _
  have hword : ∀ word : List Char, Gives (do advance; readWord word; throw .mismatch) P :=
    fun word => .after fun _ => .after fun _ => .throw _
  unfold refuse
  refine .after fun c => ?_
  split
  · exact .throw _
  · refine .ite (hword _) (.ite (hword _) (.ite (hword _) (.ite ?_ (.ite ?_ (.ite ?_ ?_)))))
    · exact .after fun _ => hread _
    · exact hread _
    · exact .after fun _ => hread _
    · exact .ite (.throw _) (.throw _)

theorem gives_readItems {item : Reader α} (hitem : Gives item P) :
    ∀ (within : List Char) (later : Bool), Gives (readItems item within later) (∀ a ∈ ·, P a)
  | [], _ => .throw _
  | _ :: within, later => by
    have hnext : Gives (do
        let a ← item
        return a :: (← readItems item within true)) (∀ a ∈ ·, P a) := by
      refine hitem.bind fun a ha => (gives_readItems hitem within true).bind fun as has => .pure ?_
      simpa using ⟨ha, has⟩
    rw [readItems]
    refine .after fun c => ?_
    split
    · exact .throw _
    · split
      · exact .after fun _ => .pure (by simp)
      · dsimp only
        split
        · split
          · exact .throw_bind _
          · refine .after fun _ => .after fun d => ?_
            split
            · exact .throw_bind _
            · split
              · exact .throw_bind _
              · exact hnext
        · exact hnext

theorem gives_readMembers {fields : List (Field σ)} {I : σ → Prop}
    (hfields : ∀ f ∈ fields, ∀ s, I s → Gives (f.read s) I) :
    ∀ (within : List Char) (later : Bool) (s : σ), I s → Gives (readMembers fields within later s) I
  | [], _, _, _ => .throw _
  | _ :: within, later, s, hs => by
    have ih := gives_readMembers hfields within true
    rw [readMembers]
    refine .after fun c => ?_
    split
    · exact .throw _
    · split
      · exact .after fun _ => .pure hs
      · -- a member, after a comma if one is due
        extract_lets named member comma
        have hnamed : ∀ u, Gives (named u) I := by
          refine fun _ => .after fun name => ?_
          split
          · rename_i f hf
            have hread := hfields f (List.mem_of_find?_eq_some hf) s hs
            dsimp only
            split
            · exact .throw_bind _
            · exact .after fun _ => hread.bind fun t ht => ih t ht
          · exact .after fun _ => .after fun _ => ih s hs
        have hmember : ∀ u, Gives (member u) I := by
          refine fun _ => .after fun c => ?_
          split
          · exact .throw_bind _
          · exact .after fun _ => hnamed ()
          · exact .throw_bind _
        split
        · split
          · exact .throw_bind _
          · exact .after fun _ => hmember ()
        · exact hmember ()

theorem gives_readTuple {I : σ → Prop} : ∀ (fields : List (Field σ)) (later : Bool) (s : σ),
    (∀ f ∈ fields, ∀ s, I s → Gives (f.read s) I) → I s → Gives (readTuple fields later s) I
  | [], _, _, _, hs => .pure hs
  | f :: fields, later, s, hfields, hs => by
    have hnext : Gives (do readTuple fields true (← f.read s)) I := by
      refine (hfields f List.mem_cons_self s hs).bind fun t ht => ?_
      exact gives_readTuple fields true t (fun g hg => hfields g (List.mem_cons_of_mem f hg)) ht
    rw [readTuple]
    refine .after fun c => ?_
    split
    · exact .throw _
    · split
      · exact .pure hs
      · dsimp only
        split
        · split
          · exact .throw_bind _
          · refine .after fun _ => .after fun d => ?_
            split
            · exact .throw_bind _
            · split
              · exact .throw_bind _
              · exact hnext
        · exact hnext

theorem gives_lift {r : Except Fault α} (hr : ∀ a, r = .ok a → P a) :
    Gives (liftM r : Reader α) P := by
  intro cs a rest h
  cases r with
  | error fault => cases h
  | ok b =>
    cases h
    exact hr _ rfl

/-- **What holds of a record** follows from what its fields preserve. -/
theorem gives_readRecord {fields : List (Field σ)} {start : σ} {finish : σ → Except Fault α}
    {I : σ → Prop} (hstart : I start) (hfields : ∀ f ∈ fields, ∀ s, I s → Gives (f.read s) I)
    (hfinish : ∀ s a, I s → finish s = .ok a → P a) :
    Gives (readRecord (some fields) start finish) P := by
  rw [readRecord]
  refine .after fun c => ?_
  split
  · refine .after fun _ => .after fun cs => ?_
    refine (gives_readMembers hfields cs false start hstart).bind fun s hs => ?_
    exact gives_lift fun a ha => hfinish s a hs ha
  · refine .after fun _ => ?_
    refine (gives_readTuple fields false start hfields hstart).bind fun s hs => ?_
    refine (gives_lift fun a ha => hfinish s a hs ha).bind fun a ha => .after fun d => ?_
    split
    · exact .throw _
    · exact .after fun _ => .pure ha
    · exact .throw _
  · exact gives_refuse

/-- Where no record may be opened nothing is read. -/
theorem gives_readRecord_none {start : σ} {finish : σ → Except Fault α} :
    Gives (readRecord none start finish) P := by
  rw [readRecord]
  refine .after fun c => ?_
  split
  · exact .throw _
  · exact .throw _
  · exact gives_refuse

theorem gives_readList {item : Reader α} (hitem : Gives item P) :
    Gives (readList (some item)) (∀ a ∈ ·, P a) := by
  rw [readList]
  refine .after fun c => ?_
  split
  · exact .after fun _ => .after fun cs => gives_readItems hitem cs false
  · exact gives_refuse

/-- Where no array may be opened nothing is read. -/
theorem gives_readList_none {Q : List α → Prop} : Gives (readList none) Q := by
  rw [readList]
  refine .after fun c => ?_
  split
  · exact .throw _
  · exact gives_refuse

end Json
end Teardown
