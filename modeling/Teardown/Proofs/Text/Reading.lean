/-
# Texts and what they stand for

Bytes are the UTF-8 form of one text at most. A text is what is left of it when it
is trimmed, between white space. Decimal digits stand for the number that their
places give.

Key definitions: `Text.placeValue`.
Key theorems: `Text.fromUTF8?_eq_some_iff`, `Text.exists_append_trim_append`,
`Text.trim_append`, `Text.decimal?_eq_some_iff`.
-/
import Mathlib.Data.List.TakeWhile
import Mathlib.Data.Nat.Digits.Defs
import Teardown.Text.Blank
import Teardown.Text.Digits

namespace Teardown
namespace Text

/-- The text of bytes is the one whose UTF-8 form they are. -/
theorem fromUTF8?_eq_some_iff {bytes : ByteArray} {text : String} :
    String.fromUTF8? bytes = some text ↔ bytes = text.toUTF8 := by
  constructor
  · intro h
    unfold String.fromUTF8? at h
    split at h
    · cases h
      rfl
    · cases h
  · rintro rfl
    exact dif_pos text.isValidUTF8

/-! ### White space at both ends -/

/-- White space at both ends is all that is trimmed. -/
theorem exists_append_trim_append (cs : List Char) : ∃ before after : List Char,
    cs = before ++ trim cs ++ after ∧ (∀ c ∈ before, isBlank c = true) ∧
      ∀ c ∈ after, isBlank c = true := by
  refine ⟨cs.takeWhile isBlank, ((cs.dropWhile isBlank).reverse.takeWhile isBlank).reverse, ?_,
    fun c hc => List.mem_takeWhile_imp hc,
    fun c hc => List.mem_takeWhile_imp (List.mem_reverse.mp hc)⟩
  rw [List.append_assoc, trim, ← List.reverse_append, List.takeWhile_append_dropWhile,
    List.reverse_reverse, List.takeWhile_append_dropWhile]

/-- What holds no white space is left of the text around it. -/
theorem trim_append {before word after : List Char} (hbefore : ∀ c ∈ before, isBlank c = true)
    (hafter : ∀ c ∈ after, isBlank c = true) (hne : word ≠ [])
    (hword : ∀ c ∈ word, isBlank c = false) : trim (before ++ word ++ after) = word := by
  have hsolid : ∀ {w : List Char} (rest : List Char), w ≠ [] → (∀ c ∈ w, isBlank c = false) →
      (w ++ rest).dropWhile isBlank = w ++ rest := by
    intro w rest hw hall
    obtain ⟨c, w, rfl⟩ := List.exists_cons_of_ne_nil hw
    rw [List.cons_append, List.dropWhile_cons_of_neg (by simp [hall c List.mem_cons_self])]
  have hend := hsolid (w := word.reverse) [] (by simpa using hne) (by simpa using hword)
  rw [List.append_nil] at hend
  rw [trim, List.append_assoc, List.dropWhile_append_of_pos hbefore, hsolid after hne hword,
    List.reverse_append, List.dropWhile_append_of_pos (by simpa using hafter), hend,
    List.reverse_reverse]

theorem isBlank_of_isDigit {c : Char} (hc : c.isDigit = true) : isBlank c = false := by
  have hrange : 48 ≤ c.toNat ∧ c.toNat ≤ 57 := by
    simpa [Char.isDigit, UInt32.le_iff_toNat_le] using hc
  simp only [isBlank, Bool.or_eq_false_iff, Bool.and_eq_false_iff, decide_eq_false_iff_not,
    beq_eq_false_iff_ne]
  omega

/-- Neither a capital nor the letter it stands for is white space. -/
theorem isBlank_toLower (c : Char) : isBlank c.toLower = isBlank c := by
  by_cases hc : c.val ≥ 'A'.val ∧ c.val ≤ 'Z'.val
  · have hrange : 65 ≤ c.toNat ∧ c.toNat ≤ 90 := by
      simpa [UInt32.le_iff_toNat_le] using hc
    have hlower : c.toLower.toNat = c.toNat + 32 := by
      have hsum : (c.val + ('a'.val - 'A'.val)).toNat = (c.toNat + 32) % 4294967296 :=
        UInt32.toNat_add _ _
      unfold Char.toLower
      rw [dif_pos hc]
      exact hsum.trans (Nat.mod_eq_of_lt (by omega))
    simp only [isBlank, hlower]
    grind
  · unfold Char.toLower
    rw [dif_neg hc]

/-! ### Digits -/

/-- The number that decimal digits stand for, by their places. -/
def placeValue (digits : List Char) : Nat :=
  Nat.ofDigits 10 (digits.map fun c => c.toNat - '0'.toNat).reverse

theorem ofDigitChars_eq_placeValue (digits : List Char) :
    Nat.ofDigitChars 10 digits 0 = placeValue digits := by
  rw [placeValue, Nat.ofDigits_eq_foldr, List.foldr_reverse, List.foldl_map, Nat.ofDigitChars]
  simp only [Nat.cast_id, Nat.add_comm]

/-- Digits are read as the number they stand for, below the bound. -/
theorem decimal?_eq_some_iff {bound n : Nat} {digits : List Char} :
    decimal? bound digits = some n ↔
      digits ≠ [] ∧ (∀ c ∈ digits, c.isDigit = true) ∧ placeValue digits = n ∧ n < bound := by
  rw [← ofDigitChars_eq_placeValue, decimal?]
  split
  · rename_i h
    have hno : ¬ (digits ≠ [] ∧ ∀ c ∈ digits, c.isDigit = true) := by
      simpa [imp_iff_not_or] using h
    grind
  · rename_i h
    have hdigits : digits ≠ [] ∧ ∀ c ∈ digits, c.isDigit = true := by simpa using h
    grind

end Text
end Teardown
