/-
# Stored reports read back

The text of a report leaves out what is empty or false. Read back, it is the
report again: whoever reads it takes what is left out for empty or false, at
every level. The reader follows only so many levels of arrays and objects; the
reports of failures do not come near that bound, and a report that was itself
read keeps to it when it is written again, however it was written before.

Key definitions: `Report.Fits`, `Report.members`.
Key theorems: `Report.reads_readWithin`, `Report.gives_readWithin`,
`Report.reports_read_back`.
-/
import Teardown.Failure.Stored
import Teardown.Proofs.Json.Records
import Teardown.Proofs.Json.Result

namespace Teardown
namespace Report

/-- A report can be read where at most `levels` arrays and objects may be opened
within each other: one for itself, and one for its causes or two for each level of
suppressed reports. -/
def Fits : (levels : Nat) → Report → Prop
  | 0, _ => False
  | 1, r => r.causes = [] ∧ r.suppressed = []
  | levels + 2, r => ∀ s ∈ r.suppressed, s.Fits levels

/-! ### The text of a report -/

theorem toJsonAll_eq_map : ∀ rs : List Report, toJsonAll rs = rs.map toJson
  | [] => rfl
  | r :: rs => by rw [toJsonAll, toJsonAll_eq_map rs, List.map_cons]

/-- The members of a report as a JSON object. -/
def members (r : Report) : List (String × Json) :=
  [("kind", .str r.kind.name), ("message", .str r.message)] ++
    (if r.causes.isEmpty then [] else [("causes", .arr (r.causes.map .str))]) ++
    (if r.suppressed.isEmpty then [] else [("suppressed", .arr (r.suppressed.map toJson))]) ++
    (if r.elided then [("elided", .bool true)] else [])

theorem toJson_eq (r : Report) : r.toJson = .obj r.members := by
  obtain ⟨kind, message, causes, suppressed, elided⟩ := r
  rw [toJson, toJsonAll_eq_map]
  rfl

/-! ### Reading it -/

section

open Json

variable {nested : Bool} {below : Option (Reader Report)} {d : Draft}

theorem fills_kind (hd : d.kind = none) (kind : FailureKind) :
    Fills (fields nested below) d [("kind", .str kind.name)] { d with kind := some kind } := by
  have hread := reads_readName (FailureKind.ofName?_name kind) nested
  exact .cons _ rfl (by simp [hd]) (hread.bind_pure fun _ => rfl) (.nil _)

theorem fills_message (hd : d.message = none) (message : String) :
    Fills (fields nested below) d [("message", .str message)]
      { d with message := some message } :=
  .cons _ rfl (by simp [hd]) ((reads_readText message).bind_pure fun _ => rfl) (.nil _)

theorem fills_causes (hd : d.causes = none) (hnested : nested = true) (causes : List String) :
    Fills (fields nested below) d [("causes", .arr (causes.map .str))]
      { d with causes := some causes } := by
  subst hnested
  have hread : Reads (readList (some readText)) (Json.arr (causes.map .str)).write causes :=
    reads_readList fun s _ => reads_readText s
  exact .cons _ rfl (by simp [hd]) (hread.bind_pure fun _ => rfl) (.nil _)

theorem fills_suppressed (hd : d.suppressed = none) {read : Reader Report}
    {suppressed : List Report} (hread : ∀ s ∈ suppressed, Reads read s.toJson.write s) :
    Fills (fields nested (some read)) d [("suppressed", .arr (suppressed.map toJson))]
      { d with suppressed := some suppressed } :=
  .cons _ rfl (by simp [hd]) ((reads_readList hread).bind_pure fun _ => rfl) (.nil _)

theorem fills_elided (hd : d.elided = none) :
    Fills (fields nested below) d [("elided", .bool true)] { d with elided := some true } :=
  .cons _ rfl (by simp [hd]) ((reads_readBool true).bind_pure fun _ => rfl) (.nil _)

/-- The members of a report fill a draft of it: what is left out is missing in
the draft. -/
theorem fills_members {r : Report} (hcauses : r.causes ≠ [] → nested = true)
    (hsuppressed : r.suppressed ≠ [] → ∃ read, below = some read ∧
      ∀ s ∈ r.suppressed, Reads read s.toJson.write s) :
    ∃ d : Draft, Fills (fields nested below) {} r.members d ∧ d.finish = .ok r := by
  obtain ⟨kind, message, causes, suppressed, elided⟩ := r
  have hgiven : Fills (fields nested below) {}
      ([("kind", .str kind.name)] ++ [("message", .str message)])
      { kind := some kind, message := some message } :=
    (fills_kind rfl kind).append (fills_message rfl message)
  have hwithCauses : ∃ c, c.getD [] = causes ∧ Fills (fields nested below)
      { kind := some kind, message := some message }
      (if causes.isEmpty then [] else [("causes", .arr (causes.map .str))])
      { kind := some kind, message := some message, causes := c } := by
    cases causes with
    | nil => exact ⟨none, rfl, .nil _⟩
    | cons c cs => exact ⟨some (c :: cs), rfl, fills_causes rfl (hcauses (by simp)) _⟩
  obtain ⟨c, hc, hfillsCauses⟩ := hwithCauses
  have hwithSuppressed : ∃ s, s.getD [] = suppressed ∧ Fills (fields nested below)
      { kind := some kind, message := some message, causes := c }
      (if suppressed.isEmpty then [] else [("suppressed", .arr (suppressed.map toJson))])
      { kind := some kind, message := some message, causes := c, suppressed := s } := by
    cases suppressed with
    | nil => exact ⟨none, rfl, .nil _⟩
    | cons s ss =>
      obtain ⟨read, rfl, hread⟩ := hsuppressed (by simp)
      exact ⟨some (s :: ss), rfl, fills_suppressed rfl hread⟩
  obtain ⟨s, hs, hfillsSuppressed⟩ := hwithSuppressed
  have hwithElided : ∃ e, e.getD false = elided ∧ Fills (fields nested below)
      { kind := some kind, message := some message, causes := c, suppressed := s }
      (if elided then [("elided", .bool true)] else [])
      { kind := some kind, message := some message, causes := c, suppressed := s,
        elided := e } := by
    cases elided with
    | false => exact ⟨none, rfl, .nil _⟩
    | true => exact ⟨some true, rfl, fills_elided rfl⟩
  obtain ⟨e, he, hfillsElided⟩ := hwithElided
  refine ⟨_, ((hgiven.append hfillsCauses).append hfillsSuppressed).append hfillsElided, ?_⟩
  rw [Draft.finish, hc, hs, he]

/-- **A report that fits reads back.** -/
theorem reads_readWithin : ∀ (levels : Nat) (r : Report), r.Fits levels →
    Reads (readWithin levels) r.toJson.write r
  | 0, _, hfits => hfits.elim
  | 1, r, hfits => by
    have hfills : ∃ d : Draft, Fills (fields false none) {} r.members d ∧ d.finish = .ok r :=
      fills_members (fun hne => absurd hfits.1 hne) (fun hne => absurd hfits.2 hne)
    obtain ⟨d, hd, hr⟩ := hfills
    rw [toJson_eq]
    exact reads_readRecord hd hr
  | levels + 2, r, hfits => by
    have hfills : ∃ d : Draft, Fills (fields true (some (readWithin levels))) {} r.members d ∧
        d.finish = .ok r :=
      fills_members (fun _ => rfl)
        (fun _ => ⟨_, rfl, fun s hs => reads_readWithin levels s (hfits s hs)⟩)
    obtain ⟨d, hd, hr⟩ := hfills
    rw [toJson_eq]
    exact reads_readRecord hd hr

theorem decode_encode_of_fits {r : Report} (hfits : r.Fits nestingLimit) :
    decode r.encode = .ok r :=
  (reads_readWithin nestingLimit r hfits).decode

/-! ### What is read fits -/

/-- What a finished draft held. -/
theorem eq_of_finish {r : Report} (h : d.finish = .ok r) :
    r.causes = d.causes.getD [] ∧ r.suppressed = d.suppressed.getD [] := by
  unfold Draft.finish at h
  split at h
  · cases h
    exact ⟨rfl, rfl⟩
  · cases h

/-- A field other than those for causes and suppressed reports leaves them alone;
what is read for these satisfies `C` and `S`. -/
theorem gives_fields {C : List String → Prop} {S : List Report → Prop}
    (hcauses : Gives (readList (if nested then some readText else none)) C)
    (hsuppressed : Gives (readList below) S) :
    ∀ f ∈ fields nested below, ∀ d : Draft,
      (∀ cs ∈ d.causes, C cs) ∧ (∀ ss ∈ d.suppressed, S ss) →
        Gives (f.read d) fun d => (∀ cs ∈ d.causes, C cs) ∧ (∀ ss ∈ d.suppressed, S ss) := by
  intro f hf d hd
  simp only [fields, List.mem_cons, List.not_mem_nil, or_false] at hf
  rcases hf with rfl | rfl | rfl | rfl | rfl
  · exact .after fun _ => .pure hd
  · exact .after fun _ => .pure hd
  · exact hcauses.bind fun cs hcs => .pure ⟨by simpa using hcs, hd.2⟩
  · exact hsuppressed.bind fun ss hss => .pure ⟨hd.1, by simpa using hss⟩
  · exact .after fun _ => .pure hd

/-- **What is read as a report fits** where it was read. -/
theorem gives_readWithin : ∀ levels : Nat, Gives (readWithin levels) (Fits levels)
  | 0 => gives_readRecord_none
  | 1 => by
    refine gives_readRecord ⟨by simp, by simp⟩
      (gives_fields (C := fun _ => False) (S := fun _ => False) gives_readList_none
        gives_readList_none) fun d r hd hr => ?_
    obtain ⟨hcs, hss⟩ := eq_of_finish hr
    refine ⟨?_, ?_⟩
    · cases hc : d.causes with
      | none => rw [hcs, hc]; rfl
      | some cs => exact (hd.1 cs hc).elim
    · cases hs : d.suppressed with
      | none => rw [hss, hs]; rfl
      | some ss => exact (hd.2 ss hs).elim
  | levels + 2 => by
    refine gives_readRecord ⟨by simp, by simp⟩
      (gives_fields (C := fun _ => True) (fun _ _ _ _ => trivial)
        (gives_readList (gives_readWithin levels))) fun d r hd hr => ?_
    obtain ⟨-, hss⟩ := eq_of_finish hr
    intro s hs
    rw [hss] at hs
    cases hsome : d.suppressed with
    | none => simp [hsome] at hs
    | some ss =>
      rw [hsome] at hs
      exact hd.2 ss hsome s hs

end

/-- The report of a failure fits where two levels are left for each of its own. -/
theorem fits_reportWithin (h : Heap) : ∀ (levels n : Nat) (f : FailureId), 2 * levels + 2 ≤ n →
    (h.reportWithin levels f).Fits n
  | _, 0, _, hn => by omega
  | _, 1, _, hn => by omega
  | 0, n + 2, f, _ => by
    intro s hs
    simp [Heap.reportWithin] at hs
  | levels + 1, n + 2, f, hn => by
    intro s hs
    obtain ⟨g, -, rfl⟩ := List.mem_map.mp hs
    exact fits_reportWithin h levels n g (by omega)

/-- **Reports read back.** The text of a failure's report reads as that report, and
a report that was read from any text reads back from its own. The text has a
member for causes, for suppressed reports and for the mark of elision only where
there are any. -/
theorem reports_read_back :
    (∀ (h : Heap) (f : FailureId), decode (h.report f).encode = .ok (h.report f)) ∧
    (∀ (text : String) (r : Report), decode text = .ok r → decode r.encode = .ok r) ∧
    ∀ r : Report, r.toJson = .obj r.members ∧
      ("causes" ∈ r.members.map Prod.fst ↔ r.causes ≠ []) ∧
      ("suppressed" ∈ r.members.map Prod.fst ↔ r.suppressed ≠ []) ∧
      ("elided" ∈ r.members.map Prod.fst ↔ r.elided = true) := by
  refine ⟨fun h f => ?_, fun text r hr => ?_, fun r => ⟨toJson_eq r, ?_⟩⟩
  · exact decode_encode_of_fits (fits_reportWithin h depthLimit Json.nestingLimit f (by decide))
  · exact decode_encode_of_fits ((gives_readWithin Json.nestingLimit).of_decode hr)
  · obtain ⟨kind, message, causes, suppressed, elided⟩ := r
    cases causes <;> cases suppressed <;> cases elided <;> simp [members]

/-- A report in another order than it is written in, with a member that is unknown
and a suppressed report that is given by its first fields alone. -/
def shuffled : String :=
  "\x7b\"suppressed\": [[\"panic\", \"b\\u00e9\"]], \"seen\": \x7b\"by\": [1]\x7d, " ++
    "\"message\": \"a\\n\", \"kind\": \"error\"\x7d"

theorem reports_read_back_shuffled :
    ∃ r, decode shuffled = .ok r ∧
      r.encode = "\x7b\"kind\":\"error\",\"message\":\"a\\n\",\"suppressed\":" ++
        "[\x7b\"kind\":\"panic\",\"message\":\"bé\"\x7d]\x7d" ∧
      decode r.encode = .ok r := by
  have hread : (decode shuffled).toOption.map encode =
      some ("\x7b\"kind\":\"error\",\"message\":\"a\\n\",\"suppressed\":" ++
        "[\x7b\"kind\":\"panic\",\"message\":\"bé\"\x7d]\x7d") := by
    decide +kernel
  cases hr : decode shuffled with
  | error fault => simp [hr, Except.toOption] at hread
  | ok r =>
    rw [hr] at hread
    exact ⟨r, rfl, Option.some.inj hread, reports_read_back.2.1 shuffled r hr⟩

end Report
end Teardown
