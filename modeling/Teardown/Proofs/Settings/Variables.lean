/-
# What the variables may say

A variable sets its part of the settings exactly when its bytes are the UTF-8 form
of a text of a small grammar: white space, then digits after a plus sign or none,
or one of eight words in any capitals, and white space again. A number too large
for a limit sets nothing, whatever its number of digits. All else leaves the
default, and no variable matters for the other part.

Key definitions: `Settings.SaysNumber`, `Settings.SaysFlag`.
Key theorems: `Settings.readLimit?_eq_some_iff`, `Settings.readFlag?_eq_some_iff`,
`Settings.variables_exact`.
-/
import Teardown.Proofs.Text.Reading
import Teardown.Settings.Environment

namespace Teardown
namespace Settings

/-! ### Limits -/

/-- A text that says a number: digits, perhaps after a plus sign, between white
space. -/
def SaysNumber (text : String) (n : Nat) : Prop :=
  ∃ before sign digits after : List Char,
    text.toList = before ++ (sign ++ digits) ++ after ∧
    (∀ c ∈ before, Text.isBlank c = true) ∧ (∀ c ∈ after, Text.isBlank c = true) ∧
    (sign = [] ∨ sign = ['+']) ∧ digits ≠ [] ∧ (∀ c ∈ digits, c.isDigit = true) ∧
    Text.placeValue digits = n

/-- What stands between the white space of a text that says a number. -/
theorem SaysNumber.exists_trim_eq {text : String} {n : Nat} (h : SaysNumber text n) :
    ∃ sign digits : List Char, Text.trim text.toList = sign ++ digits ∧
      (sign = [] ∨ sign = ['+']) ∧ digits ≠ [] ∧ (∀ c ∈ digits, c.isDigit = true) ∧
      Text.placeValue digits = n := by
  obtain ⟨before, sign, digits, after, htext, hbefore, hafter, hsign, hne, hdigits, hn⟩ := h
  have hsolid : ∀ c ∈ sign ++ digits, Text.isBlank c = false := by
    intro c hc
    rcases List.mem_append.mp hc with hc | hc
    · rcases hsign with rfl | rfl
      · simp at hc
      · rw [List.mem_singleton.mp hc]
        decide
    · exact Text.isBlank_of_isDigit (hdigits c hc)
  refine ⟨sign, digits, ?_, hsign, hne, hdigits, hn⟩
  rw [htext, Text.trim_append hbefore hafter (by simp [hne]) hsolid]

/-- Reading drops a plus sign in front and nothing else. -/
theorem readLimit?_of_trim_eq {text : String} {sign digits : List Char}
    (htrim : Text.trim text.toList = sign ++ digits) (hsign : sign = [] ∨ sign = ['+'])
    (hdigits : ∀ c ∈ digits, c.isDigit = true) :
    readLimit? text = (Text.decimal? UInt64.size digits).map UInt64.ofNat := by
  rw [readLimit?, htrim]
  rcases hsign with rfl | rfl
  · cases digits with
    | nil => rfl
    | cons d ds =>
      have hd : d ≠ '+' := by
        rintro rfl
        exact absurd (hdigits _ List.mem_cons_self) (by decide)
      simp [hd]
  · rfl

/-- **A limit is read exactly where one is said.** -/
theorem readLimit?_eq_some_iff {text : String} {limit : UInt64} :
    readLimit? text = some limit ↔ SaysNumber text limit.toNat := by
  constructor
  · intro h
    obtain ⟨before, after, htext, hbefore, hafter⟩ :=
      Text.exists_append_trim_append text.toList
    obtain ⟨sign, digits, htrim, hsign, hread⟩ : ∃ sign digits : List Char,
        Text.trim text.toList = sign ++ digits ∧ (sign = [] ∨ sign = ['+']) ∧
          (Text.decimal? UInt64.size digits).map UInt64.ofNat = some limit := by
      unfold readLimit? at h
      split at h
      · rename_i ds hds
        exact ⟨['+'], ds, hds, .inr rfl, h⟩
      · exact ⟨[], _, rfl, .inl rfl, h⟩
    obtain ⟨n, hn, rfl⟩ := Option.map_eq_some_iff.mp hread
    obtain ⟨hne, hdigits, hvalue, hlt⟩ := Text.decimal?_eq_some_iff.mp hn
    refine ⟨before, sign, digits, after, ?_, hbefore, hafter, hsign, hne, hdigits, ?_⟩
    · rw [← htrim]
      exact htext
    · rw [hvalue, UInt64.toNat_ofNat_of_lt' hlt]
  · intro h
    obtain ⟨sign, digits, htrim, hsign, hne, hdigits, hvalue⟩ := h.exists_trim_eq
    have hn : Text.decimal? UInt64.size digits = some limit.toNat :=
      Text.decimal?_eq_some_iff.mpr ⟨hne, hdigits, hvalue, limit.toNat_lt_size⟩
    rw [readLimit?_of_trim_eq htrim hsign hdigits, hn, Option.map_some, UInt64.ofNat_toNat]

/-- A text says one number at most. -/
theorem SaysNumber.unique {text : String} {m n : Nat} (hm : SaysNumber text m)
    (hn : SaysNumber text n) : m = n := by
  obtain ⟨sign, digits, htrim, hsign, -, hdigits, rfl⟩ := hm.exists_trim_eq
  obtain ⟨sign', digits', htrim', hsign', -, hdigits', rfl⟩ := hn.exists_trim_eq
  have hplus : ∀ {ds : List Char}, '+' :: ds = digits ∨ '+' :: ds = digits' → False := by
    rintro ds (rfl | rfl)
    · exact absurd (hdigits _ List.mem_cons_self) (by decide)
    · exact absurd (hdigits' _ List.mem_cons_self) (by decide)
  have heq : sign ++ digits = sign' ++ digits' := htrim.symm.trans htrim'
  rcases hsign with rfl | rfl <;> rcases hsign' with rfl | rfl
  · rw [List.nil_append, List.nil_append] at heq
    rw [heq]
  · exact (hplus (.inl heq.symm)).elim
  · exact (hplus (.inr heq)).elim
  · rw [List.append_cancel_left heq]

/-! ### Truth values -/

/-- The words for a truth value, in lower case. -/
def flagWords : Bool → List String
  | true => ["1", "true", "yes", "on"]
  | false => ["0", "false", "no", "off"]

/-- A text that says a truth value: one of its words in any capitals, between white
space. -/
def SaysFlag (text : String) (b : Bool) : Prop :=
  ∃ before word after : List Char, text.toList = before ++ word ++ after ∧
    (∀ c ∈ before, Text.isBlank c = true) ∧ (∀ c ∈ after, Text.isBlank c = true) ∧
    Text.lowered (String.ofList word) ∈ flagWords b

/-- No word for a truth value is empty or holds white space. -/
theorem solid_of_mem_flagWords {s : String} {b : Bool} (hs : s ∈ flagWords b) :
    s.toList ≠ [] ∧ ∀ c ∈ s.toList, Text.isBlank c = false := by
  have hall : ∀ b : Bool, ∀ s ∈ flagWords b,
      s.toList ≠ [] ∧ s.toList.any Text.isBlank = false := by
    decide
  obtain ⟨hne, hsolid⟩ := hall b s hs
  exact ⟨hne, by simpa using hsolid⟩

theorem trim_of_saysFlag {text : String} {before word after : List Char} {b : Bool}
    (htext : text.toList = before ++ word ++ after)
    (hbefore : ∀ c ∈ before, Text.isBlank c = true)
    (hafter : ∀ c ∈ after, Text.isBlank c = true)
    (hword : Text.lowered (String.ofList word) ∈ flagWords b) :
    Text.trim text.toList = word := by
  obtain ⟨hne, hsolid⟩ := solid_of_mem_flagWords hword
  rw [Text.toList_lowered, String.toList_ofList] at hne hsolid
  rw [htext, Text.trim_append hbefore hafter (by simpa using hne)]
  intro c hc
  rw [← Text.isBlank_toLower]
  exact hsolid _ (List.mem_map_of_mem hc)

/-- No word stands for both truth values. -/
theorem not_mem_flagWords_not {s : String} {b : Bool} (hs : s ∈ flagWords b) :
    s ∉ flagWords !b := by
  have hall : ∀ b : Bool, ∀ s ∈ flagWords b, s ∉ flagWords !b := by decide
  exact hall b s hs

/-- **A truth value is read exactly where one is said.** -/
theorem readFlag?_eq_some_iff {text : String} {b : Bool} :
    readFlag? text = some b ↔ SaysFlag text b := by
  have hread : readFlag? text = some b ↔
      Text.lowered (String.ofList (Text.trim text.toList)) ∈ flagWords b := by
    have hno := @not_mem_flagWords_not
      (Text.lowered (String.ofList (Text.trim text.toList))) true
    unfold readFlag?
    cases b <;> grind [flagWords]
  rw [hread]
  constructor
  · intro h
    obtain ⟨before, after, htext, hbefore, hafter⟩ :=
      Text.exists_append_trim_append text.toList
    exact ⟨before, _, after, htext, hbefore, hafter, h⟩
  · rintro ⟨before, word, after, htext, hbefore, hafter, hword⟩
    rw [trim_of_saysFlag htext hbefore hafter hword]
    exact hword

/-! ### The variables together -/

/-- A variable has a text exactly if its bytes are the UTF-8 form of that text. -/
theorem text?_eq_some_iff {env : Environment} {name text : String} :
    env.text? name = some text ↔ env name = some text.toUTF8 := by
  rw [Environment.text?, Option.bind_eq_some_iff]
  simp only [Text.fromUTF8?_eq_some_iff, exists_eq_right]

/-- The characters that are left when a text that says a number is trimmed. -/
theorem SaysNumber.mem_trim {text : String} {n : Nat} (h : SaysNumber text n) {c : Char}
    (hc : c ∈ Text.trim text.toList) : c = '+' ∨ c.isDigit = true := by
  obtain ⟨sign, digits, htrim, hsign, -, hdigits, -⟩ := h.exists_trim_eq
  rw [htrim] at hc
  rcases List.mem_append.mp hc with hc | hc
  · rcases hsign with rfl | rfl
    · simp at hc
    · exact .inl (List.mem_singleton.mp hc)
  · exact .inr (hdigits c hc)

/-- A number that a limit can be is the limit, and a larger one leaves the default. -/
theorem suppressedLimit_of_saysNumber {env : Environment} {text : String} {n : Nat}
    (henv : env limitVariable = some text.toUTF8) (hsaid : SaysNumber text n) :
    (ofEnvironment env).suppressedLimit.toNat =
      if n < UInt64.size then n else ({} : Settings).suppressedLimit.toNat := by
  have hlimit : (ofEnvironment env).suppressedLimit =
      (readLimit? text).getD ({} : Settings).suppressedLimit := by
    rw [ofEnvironment, text?_eq_some_iff.mpr henv]
    rfl
  rw [hlimit]
  split
  · rename_i hlt
    have hread : readLimit? text = some (UInt64.ofNat n) := by
      rw [readLimit?_eq_some_iff, UInt64.toNat_ofNat_of_lt' hlt]
      exact hsaid
    rw [hread, Option.getD_some, UInt64.toNat_ofNat_of_lt' hlt]
  · rename_i hlt
    have hread : readLimit? text = none := by
      refine Option.eq_none_iff_forall_ne_some.mpr fun limit hlimit => hlt ?_
      rw [hsaid.unique (readLimit?_eq_some_iff.mp hlimit)]
      exact limit.toNat_lt_size
    rw [hread, Option.getD_none]

theorem suppressedLimit_of_not_saysNumber {env : Environment}
    (hno : ∀ (text : String) (n : Nat), env limitVariable = some text.toUTF8 →
      ¬ SaysNumber text n) :
    (ofEnvironment env).suppressedLimit = ({} : Settings).suppressedLimit := by
  have hread : (env.text? limitVariable).bind readLimit? = none := by
    rw [Option.bind_eq_none_iff]
    intro text htext
    refine Option.eq_none_iff_forall_ne_some.mpr fun limit hlimit => ?_
    exact hno text _ (text?_eq_some_iff.mp htext) (readLimit?_eq_some_iff.mp hlimit)
  rw [ofEnvironment, hread]
  rfl

theorem warnsOnDrop_of_saysFlag {env : Environment} {text : String} {b : Bool}
    (henv : env warningVariable = some text.toUTF8) (hsaid : SaysFlag text b) :
    (ofEnvironment env).warnsOnDrop = b := by
  rw [ofEnvironment, text?_eq_some_iff.mpr henv]
  simp only [Option.bind_some, readFlag?_eq_some_iff.mpr hsaid, Option.getD_some]

theorem warnsOnDrop_of_not_saysFlag {env : Environment}
    (hno : ∀ (text : String) (b : Bool), env warningVariable = some text.toUTF8 →
      ¬ SaysFlag text b) :
    (ofEnvironment env).warnsOnDrop = ({} : Settings).warnsOnDrop := by
  have hread : (env.text? warningVariable).bind readFlag? = none := by
    rw [Option.bind_eq_none_iff]
    intro text htext
    refine Option.eq_none_iff_forall_ne_some.mpr fun b hb => ?_
    exact hno text b (text?_eq_some_iff.mp htext) (readFlag?_eq_some_iff.mp hb)
  rw [ofEnvironment, hread]
  rfl

/-- **The variables set what they say.** A number below the bound is the limit; a
larger one, and whatever says no number, leaves the default, and with a minus sign or
white space inside a text says none. A truth value says whether a drop is told, and
all else leaves the default. Each part of the settings depends on its own variable
alone. A collector with these settings keeps so many failures, and at least one. -/
theorem variables_exact (env : Environment) :
    (∀ (text : String) (n : Nat), env limitVariable = some text.toUTF8 → SaysNumber text n →
      (ofEnvironment env).suppressedLimit.toNat =
        if n < UInt64.size then n else ({} : Settings).suppressedLimit.toNat) ∧
    ((∀ (text : String) (n : Nat), env limitVariable = some text.toUTF8 → ¬ SaysNumber text n) →
      (ofEnvironment env).suppressedLimit = ({} : Settings).suppressedLimit) ∧
    (∀ text : String, env limitVariable = some text.toUTF8 →
      (∃ c ∈ Text.trim text.toList, c = '-' ∨ Text.isBlank c = true) →
      (ofEnvironment env).suppressedLimit = ({} : Settings).suppressedLimit) ∧
    (∀ (text : String) (b : Bool), env warningVariable = some text.toUTF8 → SaysFlag text b →
      (ofEnvironment env).warnsOnDrop = b) ∧
    ((∀ (text : String) (b : Bool), env warningVariable = some text.toUTF8 → ¬ SaysFlag text b) →
      (ofEnvironment env).warnsOnDrop = ({} : Settings).warnsOnDrop) ∧
    (∀ other : Environment,
      (other limitVariable = env limitVariable →
        (ofEnvironment other).suppressedLimit = (ofEnvironment env).suppressedLimit) ∧
      (other warningVariable = env warningVariable →
        (ofEnvironment other).warnsOnDrop = (ofEnvironment env).warnsOnDrop)) ∧
    (Collector.ofSettings (ofEnvironment env)).limit =
      max (ofEnvironment env).suppressedLimit.toNat 1 := by
  refine ⟨fun _ _ => suppressedLimit_of_saysNumber, suppressedLimit_of_not_saysNumber,
    fun text henv hinner => suppressedLimit_of_not_saysNumber fun text' n henv' hsaid => ?_,
    fun _ _ => warnsOnDrop_of_saysFlag, warnsOnDrop_of_not_saysFlag,
    fun other => ⟨fun heq => ?_, fun heq => ?_⟩, rfl⟩
  · have htext : text' = text :=
      String.toByteArray_inj.mp (Option.some.inj (henv'.symm.trans henv))
    subst htext
    obtain ⟨c, hc, hminus | hblank⟩ := hinner
    · rcases hsaid.mem_trim hc with hplus | hdigit
      · rw [hminus] at hplus
        exact absurd hplus (by decide)
      · rw [hminus] at hdigit
        exact absurd hdigit (by decide)
    · rcases hsaid.mem_trim hc with hplus | hdigit
      · rw [hplus] at hblank
        exact absurd hblank (by decide)
      · rw [Text.isBlank_of_isDigit hdigit] at hblank
        exact absurd hblank (by decide)
  · simp only [ofEnvironment, Environment.text?, heq]
  · simp only [ofEnvironment, Environment.text?, heq]

/-- The largest limit with needless zeros, a plus sign and white space, and a word in
mixed capitals. -/
def outspoken : Environment := fun name =>
  if name = limitVariable then some "\u3000+00018446744073709551615 ".toUTF8
  else if name = warningVariable then some "\toFF\n".toUTF8
  else none

/-- A number that is one too large, and a word that is none of the eight. -/
def garbled : Environment := fun name =>
  if name = limitVariable then some "18446744073709551616".toUTF8
  else if name = warningVariable then some "maybe".toUTF8
  else none

theorem variables_exact_outspoken :
    SaysNumber "\u3000+00018446744073709551615 " 18446744073709551615 ∧
    (ofEnvironment outspoken).suppressedLimit.toNat = 18446744073709551615 ∧
    SaysFlag "\toFF\n" false ∧ (ofEnvironment outspoken).warnsOnDrop = false ∧
    SaysNumber "18446744073709551616" 18446744073709551616 ∧
    (ofEnvironment garbled).suppressedLimit.toNat = 5 ∧
    (∀ b, ¬ SaysFlag "maybe" b) ∧ (ofEnvironment garbled).warnsOnDrop = true := by
  have hlargest : SaysNumber "\u3000+00018446744073709551615 " 18446744073709551615 :=
    ⟨['\u3000'], ['+'], "00018446744073709551615".toList, [' '], by decide,
      List.all_eq_true.mp rfl, List.all_eq_true.mp rfl, by decide, by decide,
      List.all_eq_true.mp rfl, by decide⟩
  have hover : SaysNumber "18446744073709551616" 18446744073709551616 :=
    ⟨[], [], "18446744073709551616".toList, [], by decide, List.all_eq_true.mp rfl,
      List.all_eq_true.mp rfl, by decide, by decide, List.all_eq_true.mp rfl, by decide⟩
  have hoff : SaysFlag "\toFF\n" false :=
    ⟨['\t'], ['o', 'F', 'F'], ['\n'], by decide, List.all_eq_true.mp rfl,
      List.all_eq_true.mp rfl, by decide⟩
  have hmaybe : ∀ b, ¬ SaysFlag "maybe" b := by
    intro b h
    have hread : readFlag? "maybe" = none := by decide
    rw [readFlag?_eq_some_iff.mpr h] at hread
    cases hread
  obtain ⟨hnumber, -, -, hflag, -⟩ := variables_exact outspoken
  obtain ⟨hnumber', -, -, -, hnoflag, -⟩ := variables_exact garbled
  refine ⟨hlargest, hnumber _ _ rfl hlargest, hoff, hflag _ _ rfl hoff, hover,
    hnumber' _ _ rfl hover, hmaybe, hnoflag fun text b henv hsaid => ?_⟩
  have htext : text = "maybe" :=
    String.toByteArray_inj.mp (Option.some.inj henv).symm
  rw [htext] at hsaid
  exact hmaybe b hsaid

end Settings
end Teardown
