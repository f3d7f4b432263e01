/-
# Records read back

The members of an object are read one after the other. Those with the name of a
field are read as that field, which may be given once, and all others are passed
over. So a record whose fields read back reads back from what is written for it, and
from every object whose members lead to the same.

Key definitions: `Json.Fills`, `Json.Takes`.
Key theorems: `Json.reads_readRecord`, `Json.decode_readRecord`.
-/
import Teardown.Proofs.Json.Passing

namespace Teardown
namespace Json

variable {α σ : Type} {fields : List (Field σ)} {s t u : σ}

/-! ### One member -/

theorem passesGap_readMembers : ∀ (within : List Char) (later : Bool) (s : σ),
    PassesGap (readMembers fields within later s)
  | [], _, _ => fun _ _ _ => rfl
  | _ :: _, _, _ => by
    rw [readMembers]
    exact passesGap_peekSolid.bind

theorem run_readMembers_nil (w : Char) (within rest : List Char) (later : Bool) (s : σ) :
    (readMembers fields (w :: within) later s).run ('\x7d' :: rest) = .ok (s, rest) := by
  rw [readMembers, run_bind_of_ok (run_peekSolid rfl _)]
  rfl

/-- A comma before a further member is passed over. -/
theorem run_readMembers_comma {before : List Char} (hbefore : IsGap before) (w : Char)
    (within cs : List Char) (s : σ) :
    (readMembers fields (w :: within) true s).run (',' :: (before ++ '"' :: cs)) =
      (readMembers fields (w :: within) false s).run (before ++ '"' :: cs) := by
  have hquote : peekSolid.run (before ++ '"' :: cs) = .ok (some '"', '"' :: cs) :=
    (passesGap_peekSolid _ _ hbefore).trans (run_peekSolid rfl _)
  rw [readMembers, run_bind_of_ok (run_peekSolid rfl _), readMembers, run_bind_of_ok hquote]
  simp only [if_true, Bool.false_eq_true, if_false]
  rw [if_neg (by decide), if_neg (by decide), if_neg (by decide),
    run_bind_of_ok (run_advance _ _), run_bind_of_ok hquote, run_bind_of_ok (run_peekSolid rfl _)]

section

variable {before written after text rest : List Char} {name : String}

/-- The name of a member is read, and the field with that name says how to go on. -/
theorem run_readMembers_name (hbefore : IsGap before) (hname : CharsText written name.toList)
    (w : Char) (within cs : List Char) (s : σ) :
    (readMembers fields (w :: within) false s).run (before ++ '"' :: (written ++ '"' :: cs)) =
      (match fields.find? (fun f => f.name = name) with
        | some f => do
            if f.given s then throw .mismatch
            readColon
            readMembers fields within true (← f.read s)
        | none => do
            readColon
            skipValue
            readMembers fields within true s : Reader σ).run cs := by
  have hstring := reads_readString hname cs
  rw [List.append_assoc, List.singleton_append] at hstring
  rw [passesGap_readMembers _ _ _ _ _ hbefore, readMembers, run_bind_of_ok (run_peekSolid rfl _)]
  simp only [Bool.false_eq_true, if_false]
  rw [if_neg (by decide), run_bind_of_ok (run_peekSolid rfl _)]
  simp only
  rw [run_bind_of_ok (run_advance _ _)]
  exact run_bind_of_ok hstring

/-- A member with the name of a field is read as the field. -/
theorem run_readMembers_field {f : Field σ} (hbefore : IsGap before)
    (hname : CharsText written name.toList) (hafter : IsGap after)
    (hf : fields.find? (fun f => f.name = name) = some f) (hgiven : f.given s = false)
    (hread : (f.read s).run text = .ok (t, rest)) (w : Char) (within : List Char) :
    (readMembers fields (w :: within) false s).run
        (before ++ '"' :: (written ++ '"' :: (after ++ ':' :: text))) =
      (readMembers fields within true t).run rest := by
  rw [run_readMembers_name hbefore hname, hf]
  simp only [hgiven, Bool.false_eq_true, if_false]
  rw [run_bind_of_ok (run_readColon hafter text), run_bind_of_ok hread]

/-- A member with another name is passed over. -/
theorem run_readMembers_other (hbefore : IsGap before)
    (hname : CharsText written name.toList) (hafter : IsGap after)
    (hf : fields.find? (fun f => f.name = name) = none)
    (hread : skipValue.run text = .ok ((), rest)) (w : Char) (within : List Char) :
    (readMembers fields (w :: within) false s).run
        (before ++ '"' :: (written ++ '"' :: (after ++ ':' :: text))) =
      (readMembers fields within true s).run rest := by
  rw [run_readMembers_name hbefore hname, hf]
  simp only
  rw [run_bind_of_ok (run_readColon hafter text), run_bind_of_ok hread]

end

/-! ### What is written -/

/-- Reading members one after the other as fields leads from `s` to `t`. -/
inductive Fills (fields : List (Field σ)) : σ → List (String × Json) → σ → Prop where
  | nil (s : σ) : Fills fields s [] s
  | cons {s t u : σ} {m : String × Json} {ms : List (String × Json)} (f : Field σ)
      (hf : fields.find? (fun f => f.name = m.1) = some f) (hgiven : f.given s = false)
      (hread : Reads (f.read s) m.2.write t) (rest : Fills fields t ms u) :
      Fills fields s (m :: ms) u

theorem Fills.append {ms ns : List (String × Json)} (h₁ : Fills fields s ms t)
    (h₂ : Fills fields t ns u) : Fills fields s (ms ++ ns) u := by
  induction h₁ with
  | nil => exact h₂
  | cons f hf hgiven hread _ ih => exact .cons f hf hgiven hread (ih h₂)

/-- The text of a member. -/
def writeMember (m : String × Json) : List Char := writeString m.1 ++ ':' :: m.2.write

theorem writeMembers_cons (m : String × Json) (ms : List (String × Json)) :
    writeMembers (m :: ms) = writeMember m ++ ms.flatMap fun n => ',' :: writeMember n := by
  induction ms generalizing m with
  | nil => rw [writeMembers, writeMember, List.flatMap_nil, List.append_nil]
  | cons n ms ih =>
    rw [writeMembers, ih n, List.flatMap_cons]
    simp [writeMember]

/-- Each member takes a character at least. -/
theorem length_le_writeMembers : ∀ ms : List (String × Json),
    ms.length ≤ (writeMembers ms).length
  | [] => Nat.zero_le _
  | m :: ms => by
    have hrest := length_le_flatMap (g := fun n : String × Json => ',' :: writeMember n)
      (by simp) ms
    rw [writeMembers_cons, writeMember, writeString, List.cons_append, List.length_append,
      List.length_cons, List.length_cons]
    omega

/-- One more member. -/
theorem run_readMembers_cons {m : String × Json} {f : Field σ} {within text rest : List Char}
    {w : Char} (hf : fields.find? (fun f => f.name = m.1) = some f) (hgiven : f.given s = false)
    (hread : Reads (f.read s) m.2.write t) (later : Bool)
    (h : (readMembers fields within true t).run text = .ok (u, rest)) :
    (readMembers fields (w :: within) later s).run
      (separator later ++ (writeMember m ++ text)) = .ok (u, rest) := by
  have hfirst := (run_readMembers_field isGap_nil (charsText_flatMap_escape m.1.toList) isGap_nil
    hf hgiven (hread text) w within).trans h
  have htext : writeMember m ++ text = [] ++ '"' :: (m.1.toList.flatMap escape ++
      '"' :: ([] ++ ':' :: (m.2.write ++ text))) := by
    simp [writeMember, writeString]
  rw [htext]
  cases later with
  | false => exact hfirst
  | true => exact (run_readMembers_comma isGap_nil w within _ s).trans hfirst

/-- The members that are left of an object, up to its closing brace. -/
theorem run_readMembers_later (rest : List Char) {ms : List (String × Json)}
    (h : Fills fields s ms t) : ∀ within : List Char, ms.length < within.length →
      (readMembers fields within true s).run
        (ms.flatMap (fun m => ',' :: writeMember m) ++ '\x7d' :: rest) = .ok (t, rest) := by
  induction h with
  | nil s =>
    intro within hlen
    obtain ⟨w, within, rfl⟩ := List.exists_cons_of_length_pos hlen
    exact run_readMembers_nil w within rest true s
  | cons f hf hgiven hread _ ih =>
    intro within hlen
    obtain ⟨w, within, rfl⟩ := List.exists_cons_of_length_pos (Nat.zero_lt_of_lt hlen)
    have hrest := ih within (by simpa using hlen)
    rw [List.flatMap_cons, List.append_assoc, List.cons_append]
    exact run_readMembers_cons hf hgiven hread true hrest

/-- The members of an object, within any text that is longer than there are members. -/
theorem run_readMembers {ms : List (String × Json)} (h : Fills fields s ms t)
    (rest : List Char) {within : List Char} (hlen : ms.length < within.length) :
    (readMembers fields within false s).run (writeMembers ms ++ '\x7d' :: rest) =
      .ok (t, rest) := by
  obtain ⟨w, within, rfl⟩ := List.exists_cons_of_length_pos (Nat.zero_lt_of_lt hlen)
  cases h with
  | nil => exact run_readMembers_nil w within rest false s
  | cons f hf hgiven hread hms =>
    have hrest := run_readMembers_later rest hms within (by simpa using hlen)
    rw [writeMembers_cons, List.append_assoc]
    exact run_readMembers_cons hf hgiven hread false hrest

/-- **A record whose fields read back reads back.** -/
theorem reads_readRecord {finish : σ → Except Fault α} {ms : List (String × Json)} {a : α}
    (h : Fills fields s ms t) (ha : finish t = .ok a) :
    Reads (readRecord (some fields) s finish) (Json.obj ms).write a := by
  intro rest
  have hlen : ms.length < (writeMembers ms ++ '\x7d' :: rest).length := by
    have h := length_le_writeMembers ms
    rw [List.length_append, List.length_cons]
    omega
  rw [write, List.cons_append, readRecord, run_bind_of_ok (run_peekSolid rfl _)]
  simp only
  rw [run_bind_of_ok (run_advance _ _), run_bind_of_ok (run_get _), List.append_assoc,
    List.singleton_append, run_bind_of_ok (run_readMembers h rest hlen), ha]
  rfl

/-! ### Any object -/

/-- Reading members one after the other leads from `s` to `t`: those with the name of
a field that was not given before are read as the field, and those with the name of
none are passed over. -/
inductive Takes (fields : List (Field σ)) : σ → List (String × List Char) → σ → Prop where
  | nil (s : σ) : Takes fields s [] s
  | field {s t u : σ} {m : String × List Char} {ms : List (String × List Char)} (f : Field σ)
      (hf : fields.find? (fun f => f.name = m.1) = some f) (hgiven : f.given s = false)
      (hgap : PassesGap (f.read s)) (hread : ReadsApart (f.read s) m.2 t)
      (rest : Takes fields t ms u) : Takes fields s (m :: ms) u
  | other {s u : σ} {m : String × List Char} {ms : List (String × List Char)}
      (hf : fields.find? (fun f => f.name = m.1) = none) (rest : Takes fields s ms u) :
      Takes fields s (m :: ms) u

/-- The first member is read or passed over, with the white space around it. -/
theorem Takes.run_readMembers_cons {text : List Char} {m : String × List Char}
    {ms : List (String × List Char)} (htakes : Takes fields s (m :: ms) u)
    (hm : MemberText text m) : ∃ t, Takes fields t ms u ∧
      ∀ (w : Char) (within rest : List Char), Apart rest →
        (readMembers fields (w :: within) false s).run (text ++ rest) =
          (readMembers fields within true t).run rest := by
  obtain ⟨hbefore, hname, hafter, hgap, htext, hlast⟩ := hm
  cases htakes with
  | @field _ t _ _ _ f hf hgiven hpasses hread htakes =>
    refine ⟨t, htakes, fun w within rest hrest => ?_⟩
    have hvalue := (hpasses _ _ hgap).trans (hread _ (hrest.gap hlast))
    simp only [List.append_assoc, List.cons_append]
    rw [run_readMembers_field hbefore hname hafter hf hgiven hvalue,
      passesGap_readMembers _ _ _ _ _ hlast]
  | other hf htakes =>
    refine ⟨s, htakes, fun w within rest hrest => ?_⟩
    have hvalue := run_skipValue hgap htext (hrest.gap hlast)
    simp only [List.append_assoc, List.cons_append]
    rw [run_readMembers_other hbefore hname hafter hf hvalue,
      passesGap_readMembers _ _ _ _ _ hlast]

/-- The members of an object, within any text that is longer than there are members. -/
theorem Members.run_readMembers {text : List Char} {ms : List (String × List Char)}
    (h : Members text ms) (rest : List Char) : ∀ (s : σ) (within : List Char),
      Takes fields s ms t → ms.length < within.length →
        (readMembers fields within false s).run (text ++ '\x7d' :: rest) = .ok (t, rest) := by
  induction h with
  | one hm =>
    intro s within htakes hlen
    obtain ⟨w, within, rfl⟩ := List.exists_cons_of_length_pos (Nat.zero_lt_of_lt hlen)
    obtain ⟨w', within, rfl⟩ := List.exists_cons_of_length_pos (Nat.lt_of_succ_lt_succ hlen)
    obtain ⟨s', htakes', hrun⟩ := htakes.run_readMembers_cons hm
    cases htakes' with
    | nil => rw [hrun w _ _ (apart_brace rest), run_readMembers_nil]
  | @cons text texts m ms hm hms ih =>
    intro s within htakes hlen
    obtain ⟨w, within, rfl⟩ := List.exists_cons_of_length_pos (Nat.zero_lt_of_lt hlen)
    obtain ⟨w', within, rfl⟩ := List.exists_cons_of_length_pos
      (Nat.zero_lt_of_lt (Nat.lt_of_succ_lt_succ hlen))
    obtain ⟨s', htakes', hrun⟩ := htakes.run_readMembers_cons hm
    have hnext := ih s' (w' :: within) htakes' (Nat.lt_of_succ_lt_succ hlen)
    obtain ⟨gap, cs, rfl, hgap⟩ := hms.isMembers.exists_quote
    rw [List.append_assoc, List.cons_append] at hnext
    rw [List.append_assoc, List.cons_append, hrun w _ _ (apart_comma _), List.append_assoc,
      List.cons_append, run_readMembers_comma hgap, hnext]

theorem MemberText.length_pos {text : List Char} {m : String × List Char} (h : MemberText text m) :
    0 < text.length := by
  obtain ⟨-, -, -, -, -, -⟩ := h
  simp only [List.length_append, List.length_cons]
  omega

/-- Each member takes a character at least. -/
theorem Members.length_le {text : List Char} {ms : List (String × List Char)}
    (h : Members text ms) : ms.length ≤ text.length := by
  induction h with
  | one hm => exact hm.length_pos
  | cons hm _ ih =>
    have hpos := hm.length_pos
    simp only [List.length_append, List.length_cons]
    omega

/-- **An object is read as what its members lead to.** -/
theorem decode_readRecord {finish : σ → Except Fault α} {text : String}
    {ms : List (String × List Char)} {a : α} (hobject : IsObject text.toList ms)
    (htakes : Takes fields s ms t) (ha : finish t = .ok a) :
    decode (readRecord (some fields) s finish) text = .ok a := by
  obtain ⟨before, inner, after, hbefore, hafter, hinner, htext⟩ := hobject
  have hmembers : (readMembers fields (inner ++ '\x7d' :: after) false s).run
      (inner ++ '\x7d' :: after) = .ok (t, after) := by
    rcases hinner with hms | ⟨hgap, rfl⟩
    · refine hms.run_readMembers after s _ htakes ?_
      have hlen := hms.length_le
      rw [List.length_append, List.length_cons]
      omega
    · cases htakes with
      | nil =>
        obtain ⟨w, within, hwithin⟩ := List.exists_cons_of_length_pos
          (l := inner ++ '\x7d' :: after)
          (by simp only [List.length_append, List.length_cons]; omega)
        rw [passesGap_readMembers _ _ _ _ _ hgap, hwithin, run_readMembers_nil]
  have hpasses : PassesGap (readRecord (some fields) s finish) := passesGap_peekSolid.bind
  have hread : (readRecord (some fields) s finish).run text.toList = .ok (a, after) := by
    rw [htext, hpasses _ _ hbefore, readRecord, run_bind_of_ok (run_peekSolid rfl _)]
    simp only
    rw [run_bind_of_ok (run_advance _ _), run_bind_of_ok (run_get _), run_bind_of_ok hmembers, ha]
    rfl
  have hend : (after.dropWhile isSpace).isEmpty = true := by
    have hdrop : (after ++ []).dropWhile isSpace = [].dropWhile isSpace :=
      List.dropWhile_append_of_pos hafter
    rw [List.append_nil] at hdrop
    rw [hdrop]
    rfl
  rw [decode, show readRecord (some fields) s finish text.toList = .ok (a, after) from hread]
  exact if_pos hend

end Json
end Teardown
