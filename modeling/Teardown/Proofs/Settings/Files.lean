/-
# Settings files read back

A file that settings were written to loads as those settings, if they are valid, and
fails with what is wrong with them otherwise. So does a file with any JSON object that
gives them. What loads is valid, whatever the file holds.

Key definitions: `Settings.LoadsAs`.
Key theorems: `Settings.load_eq_ok_iff`, `Settings.loadsAs_of_parse`,
`Settings.files_read_back`.
-/
import Teardown.Proofs.Settings.Stored
import Teardown.Proofs.Text.Reading
import Teardown.Settings.File

namespace Teardown
namespace Settings

variable {c : Settings} {path text : String}

/-- Settings without a limit are the ones that are not valid. -/
theorem validate_eq_none_iff : c.validate = none ↔ 1 ≤ c.suppressedLimit := by
  have hpos : 1 ≤ c.suppressedLimit ↔ c.suppressedLimit ≠ 0 := by
    rw [UInt64.le_iff_toNat_le, ne_eq, ← UInt64.toNat_inj]
    exact Nat.one_le_iff_ne_zero
  rw [hpos, validate]
  split <;> simp_all

/-- A file is read as its text is, and what is read is checked. -/
theorem load_text (path text : String) : load path (.file text.toUTF8) =
    match parse path (extension path) text with
    | .error error => .error error
    | .ok c =>
        match c.validate with
        | none => .ok c
        | some message => .error (.invalid message) := by
  rw [load, Text.fromUTF8?_eq_some_iff.mpr rfl]
  simp only
  cases parse path (extension path) text <;> rfl

/-- **What loads** is what a file with text is read as, and is valid. -/
theorem load_eq_ok_iff {entry : Entry} : load path entry = .ok c ↔
    ∃ text : String, entry = .file text.toUTF8 ∧ parse path (extension path) text = .ok c ∧
      1 ≤ c.suppressedLimit := by
  constructor
  · intro h
    cases entry with
    | missing => cases h
    | directory => cases h
    | file contents =>
      cases htext : String.fromUTF8? contents with
      | none =>
        rw [load, htext] at h
        cases h
      | some text =>
        obtain rfl := Text.fromUTF8?_eq_some_iff.mp htext
        refine ⟨text, rfl, ?_⟩
        rw [load_text] at h
        split at h
        · cases h
        · rename_i parsed hparse
          split at h
          · rename_i hvalid
            obtain rfl := Except.ok.inj h
            exact ⟨hparse, validate_eq_none_iff.mp hvalid⟩
          · cases h
  · rintro ⟨text, rfl, hparse, hpos⟩
    rw [load_text, hparse]
    simp only [validate_eq_none_iff.mpr hpos]

/-- A file with the text loads as the settings, which must be valid: if they are not,
loading fails with what is wrong with them. -/
def LoadsAs (path text : String) (c : Settings) : Prop :=
  (1 ≤ c.suppressedLimit → load path (.file text.toUTF8) = .ok c) ∧
  (c.suppressedLimit = 0 → ∃ error, load path (.file text.toUTF8) = .error error ∧
    c.validate = some error.message)

theorem loadsAs_of_parse (h : parse path (extension path) text = .ok c) : LoadsAs path text c := by
  refine ⟨fun hpos => load_eq_ok_iff.mpr ⟨text, rfl, h, hpos⟩, fun hzero => ?_⟩
  have hinvalid : c.validate = some limitMessage := if_pos hzero
  refine ⟨.invalid limitMessage, ?_, hinvalid⟩
  rw [load_text, h]
  simp only [hinvalid]

theorem loadsAs_json {ms : List (String × List Char)} (hpath : extension path = "json")
    (hobject : Json.IsObject text.toList ms) (hgiven : c.GivenBy ms) : LoadsAs path text c := by
  refine loadsAs_of_parse ?_
  rw [parse, hpath, if_neg (by decide), if_pos rfl, decodeJson_of_givenBy hobject hgiven]

theorem loadsAs_yaml (c : Settings) (hpath : extension path = "yaml" ∨ extension path = "yml") :
    LoadsAs path c.encodeYaml c := by
  refine loadsAs_of_parse ?_
  rw [parse, if_pos hpath, decodeYaml_encodeYaml]

/-- A collector keeps as many failures as valid settings say. -/
theorem limit_ofSettings (h : 1 ≤ c.suppressedLimit) :
    (Collector.ofSettings c).limit = c.suppressedLimit.toNat := by
  have hpos : 1 ≤ c.suppressedLimit.toNat := UInt64.le_iff_toNat_le.mp h
  exact Nat.max_eq_left hpos

/-- **Settings files read back**, whatever the capitals of the extension. What is
written for settings loads as they are, in JSON and in YAML, and so does every JSON
object that gives them. Whatever a path leads to, settings that load are valid, and a
collector keeps exactly as many failures as they say. -/
theorem files_read_back (path : String) (c : Settings) :
    (extension path = "json" → LoadsAs path c.encodeJson c ∧
      ∀ (text : String) (ms : List (String × List Char)), Json.IsObject text.toList ms →
        c.GivenBy ms → LoadsAs path text c) ∧
    (extension path = "yaml" ∨ extension path = "yml" → LoadsAs path c.encodeYaml c) ∧
    ∀ (entry : Entry) (loaded : Settings), load path entry = .ok loaded →
      1 ≤ loaded.suppressedLimit ∧
        (Collector.ofSettings loaded).limit = loaded.suppressedLimit.toNat := by
  refine ⟨fun hpath => ⟨?_, fun _ _ => loadsAs_json hpath⟩, loadsAs_yaml c, ?_⟩
  · obtain ⟨ms, hobject, hgiven⟩ := givenBy_encodeJson c
    exact loadsAs_json hpath hobject hgiven
  · intro entry loaded hload
    obtain ⟨-, -, -, hpos⟩ := load_eq_ok_iff.mp hload
    exact ⟨hpos, limit_ofSettings hpos⟩

/-- The largest limit after the other field and after a member that holds its name. The
first character of the name is escaped. -/
def shuffled : String :=
  "\x7b\n \"extra\" : [null,\x7b\"suppressed_limit\":0\x7d],\"warn_on_unraised_drop\":false ,\n" ++
    " \"\\u0073uppressed_limit\": 18446744073709551615\x7d"

/-- The members of that object. -/
def shuffledMembers : List (String × List Char) := [
  ("extra", (Json.arr [.null, .obj [("suppressed_limit", .nat 0)]]).write),
  ("warn_on_unraised_drop", flagText false),
  ("suppressed_limit", limitText 18446744073709551615)]

theorem isObject_shuffled : Json.IsObject shuffled.toList shuffledMembers := by
  have hspace : Json.IsGap [' '] := List.all_eq_true.mp rfl
  have hline : Json.IsGap ['\n', ' '] := List.all_eq_true.mp rfl
  have hquad : Json.Quad ['0', '0', '7', '3'] 0x73 :=
    .mk (v := 0) (w := 0) (x := 7) (y := 3) (by decide) (by decide) (by decide) (by decide)
  have hescaped : Json.CharsText ('\\' :: 'u' :: ['0', '0', '7', '3'] ++
      "uppressed_limit".toList.flatMap Json.escape) "suppressed_limit".toList :=
    .cons (.numbered hquad (.inl (by decide))) (Json.charsText_flatMap_escape _)
  have hextra := Json.MemberText.mk hline (Json.charsText_flatMap_escape "extra".toList) hspace
    hspace (Json.isValue_write (.arr [.null, .obj [("suppressed_limit", .nat 0)]])) Json.isGap_nil
  have hwarns := Json.MemberText.mk Json.isGap_nil
    (Json.charsText_flatMap_escape "warn_on_unraised_drop".toList) Json.isGap_nil Json.isGap_nil
    (Json.isValue_write (.bool false)) hspace
  have hlimit := Json.MemberText.mk hline hescaped Json.isGap_nil hspace
    (.number (Json.isNumeral_toDigits (18446744073709551615 : UInt64).toNat)) Json.isGap_nil
  exact ⟨[], _, [], Json.isGap_nil, Json.isGap_nil,
    .inl (.cons hextra (.cons hwarns (.one hlimit))),
    by decide +kernel⟩

theorem files_read_back_shuffled :
    load "conf/deferred.JSON" (.file shuffled.toUTF8) =
      .ok { suppressedLimit := 18446744073709551615, warnsOnDrop := false } ∧
    (Collector.ofSettings { suppressedLimit := 18446744073709551615, warnsOnDrop := false }).limit =
      18446744073709551615 ∧
    ∃ error : LoadError,
      load "deferred.Yml" (.file (encodeYaml { suppressedLimit := 0 }).toUTF8) = .error error ∧
        error.message = "suppressed_limit must be at least 1" := by
  have hgiven : ({ suppressedLimit := 18446744073709551615, warnsOnDrop := false } :
      Settings).GivenBy shuffledMembers := ⟨.inl rfl, .inl rfl⟩
  obtain ⟨hjson, -, hlimit⟩ := files_read_back "conf/deferred.JSON"
    { suppressedLimit := 18446744073709551615, warnsOnDrop := false }
  have hload := ((hjson (by decide)).2 shuffled shuffledMembers isObject_shuffled hgiven).1
    (by decide)
  obtain ⟨-, hyaml, -⟩ := files_read_back "deferred.Yml" { suppressedLimit := 0 }
  obtain ⟨error, herror, hinvalid⟩ := (hyaml (by decide)).2 rfl
  exact ⟨hload, (hlimit _ _ hload).2, error, herror, (Option.some.inj hinvalid).symm⟩

end Settings
end Teardown
