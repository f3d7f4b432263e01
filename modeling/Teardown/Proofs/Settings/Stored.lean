/-
# Settings read back

Settings are read back from every JSON object that gives them: each field once, or not
at all where it has its default, in any order and among members with other names. What
is written for them as JSON is one such object. What is written for them as YAML is a
mapping of two lines, and is read back as well.

Key definitions: `Settings.IsGiven`, `Settings.GivenBy`, `Settings.PartRead`.
Key theorems: `Settings.takes_jsonFields`, `Settings.decodeJson_of_givenBy`,
`Settings.givenBy_encodeJson`, `Settings.decodeYaml_encodeYaml`.
-/
import Teardown.Proofs.Json.Records
import Teardown.Proofs.Yaml.Lines
import Teardown.Settings.Stored

namespace Teardown
namespace Settings

/-- The decimal digits of a limit. -/
def limitText (limit : UInt64) : List Char := Nat.toDigits 10 limit.toNat

/-- The word for a truth value. -/
def flagText (b : Bool) : List Char := (Json.bool b).write

section

variable {α : Type}

/-- Texts give a value: one text that is written for it, or none where it is the default. -/
def IsGiven (text : α → List Char) (default value : α) (texts : List (List Char)) : Prop :=
  texts = [text value] ∨ texts = [] ∧ value = default

/-- The members of an object give settings. Those with other names may have any value. -/
structure GivenBy (c : Settings) (ms : List (String × List Char)) : Prop where
  limit : IsGiven limitText ({} : Settings).suppressedLimit c.suppressedLimit
    (Json.valuesOf "suppressed_limit" ms)
  warns : IsGiven flagText ({} : Settings).warnsOnDrop c.warnsOnDrop
    (Json.valuesOf "warn_on_unraised_drop" ms)

/-! ### JSON -/

/-- What the texts of a field's values make of its part of a draft: nothing, or what
the one text says where the part was missing. -/
inductive PartRead (text : α → List Char) : Option α → List (List Char) → Option α → Prop where
  | kept (part : Option α) : PartRead text part [] part
  | given (a : α) : PartRead text none [text a] (some a)

theorem IsGiven.partRead {text : α → List Char} {default value : α} {texts : List (List Char)}
    (h : IsGiven text default value texts) :
    ∃ part, PartRead text none texts part ∧ part.getD default = value := by
  rcases h with rfl | ⟨rfl, rfl⟩
  · exact ⟨some value, .given value, rfl⟩
  · exact ⟨none, .kept none, rfl⟩

/-- Only the first of two texts for a part can be read. -/
theorem PartRead.exists_eq {text : α → List Char} {part part' : Option α} {written : List Char}
    {texts : List (List Char)} (h : PartRead text part (written :: texts) part') :
    ∃ a, part = none ∧ written = text a ∧ PartRead text (some a) texts part' := by
  cases h with
  | given a => exact ⟨a, rfl, rfl, .kept (some a)⟩

end

theorem readsApart_limit (d : Draft) (limit : UInt64) :
    Json.ReadsApart (do return { d with limit := some (UInt64.ofNat (← Json.readNatural)) })
      (limitText limit) { d with limit := some limit } :=
  (Json.readsApart_readNatural limit.toNat_lt).bind_pure (by rw [UInt64.ofNat_toNat])

theorem readsApart_flag (d : Draft) (b : Bool) :
    Json.ReadsApart (do return { d with warns := some (← Json.readBool) }) (flagText b)
      { d with warns := some b } :=
  (Json.reads_readBool b).apart.bind_pure rfl

/-- Members lead from one draft to another as the values of each field do, whatever
their order and whatever other members there are. -/
theorem takes_jsonFields {ms : List (String × List Char)} : ∀ {d e : Draft},
    PartRead limitText d.limit (Json.valuesOf "suppressed_limit" ms) e.limit →
    PartRead flagText d.warns (Json.valuesOf "warn_on_unraised_drop" ms) e.warns →
    Json.Takes jsonFields d ms e := by
  induction ms with
  | nil =>
    rintro ⟨limit, warns⟩ ⟨_, _⟩ hlimit hwarns
    cases hlimit
    cases hwarns
    exact .nil _
  | cons m ms ih =>
    intro d e hlimit hwarns
    obtain ⟨name, text⟩ := m
    -- a member moves the draft at the field with its name and leaves the other field's
    -- values as they are
    by_cases hfirst : name = "suppressed_limit"
    · subst hfirst
      rw [Json.valuesOf_cons_self] at hlimit
      rw [Json.valuesOf_cons_of_ne (by decide)] at hwarns
      obtain ⟨limit, hnone, rfl, hrest⟩ := hlimit.exists_eq
      have hgiven : d.limit.isSome = false := by rw [hnone]; rfl
      have htakes := ih (d := { d with limit := some limit }) hrest hwarns
      exact .field _ rfl hgiven Json.passesGap_readNatural.bind (readsApart_limit d limit) htakes
    · rw [Json.valuesOf_cons_of_ne hfirst] at hlimit
      by_cases hsecond : name = "warn_on_unraised_drop"
      · subst hsecond
        rw [Json.valuesOf_cons_self] at hwarns
        obtain ⟨b, hnone, rfl, hrest⟩ := hwarns.exists_eq
        have hgiven : d.warns.isSome = false := by rw [hnone]; rfl
        have htakes := ih (d := { d with warns := some b }) hlimit hrest
        exact .field _ rfl hgiven Json.passesGap_readBool.bind (readsApart_flag d b) htakes
      · rw [Json.valuesOf_cons_of_ne hsecond] at hwarns
        refine .other ?_ (ih hlimit hwarns)
        simp [jsonFields, Ne.symm hfirst, Ne.symm hsecond]

/-- **An object that gives settings is read as them.** -/
theorem decodeJson_of_givenBy {c : Settings} {text : String} {ms : List (String × List Char)}
    (hobject : Json.IsObject text.toList ms) (h : c.GivenBy ms) : decodeJson text = .ok c := by
  obtain ⟨limit, hlimit, hlimit'⟩ := h.limit.partRead
  obtain ⟨warns, hwarns, hwarns'⟩ := h.warns.partRead
  have htakes : Json.Takes jsonFields {} ms ⟨limit, warns⟩ := takes_jsonFields hlimit hwarns
  refine Json.decode_readRecord hobject htakes ?_
  rw [Draft.settings, hlimit', hwarns']

/-- What is written for settings is an object that gives them. -/
theorem givenBy_encodeJson (c : Settings) :
    ∃ ms, Json.IsObject c.encodeJson.toList ms ∧ c.GivenBy ms := by
  refine ⟨[("suppressed_limit", limitText c.suppressedLimit),
    ("warn_on_unraised_drop", flagText c.warnsOnDrop)], ?_, .inl ?_, .inl ?_⟩
  · have h := Json.isObject_write [("suppressed_limit", .nat c.suppressedLimit.toNat),
      ("warn_on_unraised_drop", .bool c.warnsOnDrop)]
    rw [encodeJson, Json.compact, String.toList_ofList]
    exact h
  · rw [Json.valuesOf_cons_self, Json.valuesOf_cons_of_ne (by decide)]
    rfl
  · rw [Json.valuesOf_cons_of_ne (by decide), Json.valuesOf_cons_self]
    rfl

/-! ### YAML -/

/-- The lines of settings. -/
def yamlLines (c : Settings) : List (List Char × List Char) := [
  ("suppressed_limit".toList, limitText c.suppressedLimit),
  ("warn_on_unraised_drop".toList, flagText c.warnsOnDrop)]

theorem encodeYaml_eq_lines (c : Settings) :
    c.encodeYaml = String.ofList (Yaml.lines c.yamlLines) := by
  have hnumber : (toString c.suppressedLimit.toNat).toList = limitText c.suppressedLimit := by
    rw [limitText, Nat.toString_eq_ofList_toDigits, String.toList_ofList]
  have hword : (if c.warnsOnDrop then "true" else "false").toList = flagText c.warnsOnDrop := by
    cases c.warnsOnDrop <;> rfl
  have hlimit : "suppressed_limit: ".toList = "suppressed_limit".toList ++ [':', ' '] := rfl
  have hwarns : "\nwarn_on_unraised_drop: ".toList =
      '\n' :: ("warn_on_unraised_drop".toList ++ [':', ' ']) := rfl
  rw [← String.toList_inj, String.toList_ofList]
  unfold encodeYaml
  simp only [String.toList_append, hnumber, hword, hlimit, hwarns, Yaml.lines, Yaml.line, yamlLines,
    List.flatMap_cons, List.flatMap_nil, List.append_assoc, List.cons_append, List.nil_append,
    List.append_nil]
  rfl

theorem isWord_limitText (limit : UInt64) : Yaml.IsWord (limitText limit) := by
  refine ⟨Nat.toDigits_ne_nil, fun d hd => ?_⟩
  have hdigit : d.isDigit = true := Nat.isDigit_of_mem_toDigits (by decide) (by decide) hd
  simp [Yaml.isWordChar, Char.isAlphanum, hdigit]

theorem isWord_flagText (b : Bool) : Yaml.IsWord (flagText b) := by
  cases b <;> exact ⟨List.cons_ne_nil _ _, List.all_eq_true.mp rfl⟩

theorem isEntry_limit (limit : UInt64) :
    Yaml.IsEntry ("suppressed_limit".toList, limitText limit) :=
  ⟨⟨List.cons_ne_nil _ _, List.all_eq_true.mp rfl⟩, isWord_limitText limit,
    show "suppressed_limit".toList.length ≤ Yaml.Progress.keyWidth by decide⟩

theorem isEntry_flag (b : Bool) : Yaml.IsEntry ("warn_on_unraised_drop".toList, flagText b) :=
  ⟨⟨List.cons_ne_nil _ _, List.all_eq_true.mp rfl⟩, isWord_flagText b,
    show "warn_on_unraised_drop".toList.length ≤ Yaml.Progress.keyWidth by decide⟩

/-- Digits without a needless zero are read as decimal. -/
theorem yamlLimit?_of_digits {d : Char} {ds : List Char} (hd : d.isDigit = true)
    (hzero : d = '0' → ds = []) : yamlLimit? (String.ofList (d :: ds)) =
      (Text.decimal? UInt64.size (d :: ds)).map UInt64.ofNat := by
  have hplus : d ≠ '+' := by
    rintro rfl
    exact absurd hd (by decide)
  rw [yamlLimit?, String.toList_ofList]
  congr 1
  split <;> grind

theorem yamlLimit?_limitText (limit : UInt64) :
    yamlLimit? (String.ofList (limitText limit)) = some limit := by
  have hdecimal : Text.decimal? UInt64.size (limitText limit) = some limit.toNat :=
    Text.decimal?_toDigits limit.toNat_lt
  obtain ⟨d, ds, hdigits, hd⟩ := (Json.isNumeral_toDigits limit.toNat).exists_cons
  have hzero : d = '0' → ds = [] := by
    rintro rfl
    have h := Json.toDigits_of_head?_zero (n := limit.toNat) (by rw [hdigits]; rfl)
    rw [hdigits] at h
    exact (List.cons.inj h).2
  rw [limitText, hdigits] at hdecimal ⊢
  rw [yamlLimit?_of_digits hd hzero, hdecimal, Option.map_some, UInt64.ofNat_toNat]

theorem yamlFlag?_flagText (b : Bool) : yamlFlag? (String.ofList (flagText b)) = some b := by
  cases b <;> decide

theorem takeMember_limit (document : Yaml.Document) (warns : Option Bool) (limit : UInt64) :
    takeMember document ⟨none, warns⟩ (Yaml.wordNode "suppressed_limit".toList)
      (Yaml.wordNode (limitText limit)) = some ⟨some limit, warns⟩ := by
  simp [takeMember, Yaml.Document.target, Yaml.wordNode, typedText?, yamlLimit?_limitText]

theorem takeMember_flag (document : Yaml.Document) (limit : Option UInt64) (b : Bool) :
    takeMember document ⟨limit, none⟩ (Yaml.wordNode "warn_on_unraised_drop".toList)
      (Yaml.wordNode (flagText b)) = some ⟨limit, some b⟩ := by
  simp [takeMember, Yaml.Document.target, Yaml.wordNode, typedText?, yamlFlag?_flagText]

/-- **What is written for settings as YAML is read as them.** -/
theorem decodeYaml_encodeYaml (c : Settings) : decodeYaml c.encodeYaml = some c := by
  have hdocument := Yaml.document_lines (isEntry_limit c.suppressedLimit)
    (List.forall_mem_singleton.mpr (isEntry_flag c.warnsOnDrop))
  rw [decodeYaml, encodeYaml_eq_lines, yamlLines, hdocument, Option.bind_some, ofDocument?]
  simp only [List.map_cons, List.map_nil, List.foldlM_cons, List.foldlM_nil]
  rw [takeMember_limit, Option.bind_eq_bind, Option.bind_some, takeMember_flag]
  rfl

end Settings
end Teardown
