/-
# Words in YAML

A word is made of letters, digits and underscores, and means nothing else in YAML
than itself. As a plain scalar it goes on to the colon after it, if it is a key, and
to the next line, if it ends one.

Key definitions: `Yaml.isWordChar`, `Yaml.IsWord`.
Key theorems: `Yaml.plain_key`, `Yaml.plain_value`.
-/
import Teardown.Yaml.Document

namespace Teardown
namespace Yaml

/-- Whether a character may stand in a word. -/
def isWordChar (c : Char) : Bool := c.isAlphanum || c = '_'

/-- At least one character, all of which may stand in a word. -/
structure IsWord (w : List Char) : Prop where
  ne_nil : w ≠ []
  chars : ∀ c ∈ w, isWordChar c = true

theorem ne_of_isWordChar {c d : Char} (hc : isWordChar c = true) (hd : isWordChar d = false) :
    c ≠ d := by
  rintro rfl
  simp [hd] at hc

theorem not_mem_of_isWordChar {c : Char} {ds : List Char} (hc : isWordChar c = true)
    (hds : ds.any isWordChar = false) : c ∉ ds := by
  intro hmem
  rw [List.any_eq_false] at hds
  exact hds c hmem hc

theorem isBlank_of_isWordChar {c : Char} (hc : isWordChar c = true) : isBlank c = false := by
  simp [isBlank, ne_of_isWordChar hc (d := ' ') (by decide),
    ne_of_isWordChar hc (d := '\t') (by decide)]

theorem ascii_of_isWordChar {c : Char} (hc : isWordChar c = true) :
    0x20 ≤ c.toNat ∧ c.toNat ≤ 0x7E := by
  unfold isWordChar Char.isAlphanum Char.isAlpha Char.isUpper Char.isLower Char.isDigit at hc
  simp only [Bool.or_eq_true, Bool.and_eq_true, decide_eq_true_eq, ge_iff_le,
    UInt32.le_iff_toNat_le] at hc
  rcases hc with ((hc | hc) | hc) | rfl
  · exact ⟨Nat.le_trans (by decide) hc.1, Nat.le_trans hc.2 (by decide)⟩
  · exact ⟨Nat.le_trans (by decide) hc.1, Nat.le_trans hc.2 (by decide)⟩
  · exact ⟨Nat.le_trans (by decide) hc.1, Nat.le_trans hc.2 (by decide)⟩
  · decide

/-! ### Words at their places -/

/-- Characters on one line, and what follows them. -/
theorem placed_append {w : List Char} (hw : ∀ c ∈ w, isWordChar c = true) (rest : List Char)
    (line : Nat) : ∀ column, placed line column (w ++ rest) =
      placed line column w ++ placed line (column + w.length) rest := by
  induction w with
  | nil => intro column; rfl
  | cons c w ih =>
    intro column
    have hc : c ≠ '\n' := ne_of_isWordChar (hw c List.mem_cons_self) (by decide)
    have hrest := ih (fun d hd => hw d (List.mem_cons_of_mem c hd)) (column + 1)
    rw [List.cons_append, placed, placed, if_neg hc, if_neg hc, hrest, List.cons_append,
      List.length_cons, Nat.add_assoc, Nat.add_comm 1]

/-! ### Plain scalars -/

/-- A word is part of the scalar in which it stands. -/
theorem plainFrom_word {w : List Char} (hw : ∀ c ∈ w, isWordChar c = true) (least line : Nat)
    {rest after : Text} {cs : List Char} {crossed : Bool}
    (hrest : plainFrom false least {} rest = some (cs, after, crossed)) :
    ∀ column, plainFrom false least {} (placed line column w ++ rest) =
      some (w ++ cs, after, crossed) := by
  induction w with
  | nil => intro column; exact hrest
  | cons c w ih =>
    intro column
    have hc := hw c List.mem_cons_self
    have hbreak : c ≠ '\n' := ne_of_isWordChar hc (by decide)
    have hcolon : c ≠ ':' := ne_of_isWordChar hc (by decide)
    have hnext := ih (fun d hd => hw d (List.mem_cons_of_mem c hd)) (column + 1)
    rw [placed, if_neg hbreak, List.cons_append, plainFrom]
    simp [Gap.crossed, isBlank_of_isWordChar hc, hbreak, hcolon, endsPlain, hnext, Gap.chars]

/-- A key goes on to its colon. -/
theorem plain_key {w : List Char} (hw : IsWord w) (least line column : Nat) (rest : List Char) :
    plain false least (placed line column (w ++ ':' :: ' ' :: rest)) =
      some (String.ofList w, placed line (column + w.length) (':' :: ' ' :: rest), false) := by
  have hcolon : plainFrom false least {} (placed line (column + w.length) (':' :: ' ' :: rest)) =
      some ([], placed line (column + w.length) (':' :: ' ' :: rest), false) := by
    simp [placed, plainFrom, Gap.crossed, isBlank, endsPlain, Text.endsWord, Text.next?]
  rw [placed_append hw.chars, plain, plainFrom_word hw.chars least line hcolon, List.append_nil]
  rfl

/-- What follows a line: nothing, or a line that starts with a word. -/
def StartsLine (rest : List Char) : Prop := ∀ c ∈ rest.head?, isWordChar c = true

/-- A value goes on to the next line. -/
theorem plain_value {w : List Char} (hw : IsWord w) (line column : Nat) {rest : List Char}
    (hrest : StartsLine rest) :
    plain false 1 (placed line column (w ++ '\n' :: rest)) =
      some (String.ofList w, placed (line + 1) 0 rest, true) := by
  have hbreak : plainFrom false 1 {} (placed line (column + w.length) ('\n' :: rest)) =
      some ([], placed (line + 1) 0 rest, true) := by
    cases rest with
    | nil => rfl
    | cons c rest =>
      have hc := hrest c rfl
      have htab : c ≠ '\t' := ne_of_isWordChar hc (by decide)
      have hfeed : c ≠ '\n' := ne_of_isWordChar hc (by decide)
      simp [placed, plainFrom, Gap.crossed, Gap.add, isBlank_of_isWordChar hc, hfeed, htab]
  rw [placed_append hw.chars, plain, plainFrom_word hw.chars 1 line hbreak, List.append_nil]
  rfl

/-! ### Tokens -/

theorem atMarker_of_ne {c : Char} (hdash : c ≠ '-') (hdot : c ≠ '.') (line column : Nat)
    (rest : Text) : Text.atMarker (⟨line, column, c⟩ :: rest) = false := by
  have hthree : ∀ d : Char, c ≠ d → Text.atThree d (⟨line, column, c⟩ :: rest) = false := by
    intro d hd
    unfold Text.atThree
    split
    · rename_i heq
      obtain ⟨⟨rfl, rfl, rfl⟩, rfl⟩ : (line = _ ∧ column = 0 ∧ c = _) ∧ rest = _ := by
        simpa using heq
      simp [hd]
    · rfl
  rw [Text.atMarker, hthree '-' hdash, hthree '.' hdot]
  rfl

namespace Progress

/-- A word starts a plain scalar. -/
theorem take_word {c : Char} (hc : isWordChar c = true) (p : Progress) (line column : Nat)
    (rest : Text) : p.take line column c rest = (do
      let p ← p.noteKey line column
      let (scalar, text, crossed) ← plain p.inFlow p.least (⟨line, column, c⟩ :: rest)
      return { p.emit (.scalar .plain scalar) with keyAllowed := crossed, text }) := by
  have hne : ∀ d : Char, isWordChar d = false → c ≠ d := fun d => ne_of_isWordChar hc
  have hstarts : startsPlain p.inFlow (⟨line, column, c⟩ :: rest) = true := by
    have hindicator : c ∉ indicators := not_mem_of_isWordChar hc rfl
    simp [startsPlain, hne '-' rfl, hne '?' rfl, hne ':' rfl, isBlank_of_isWordChar hc,
      hne '\n' rfl, hindicator]
  simp only [take, atMarker_of_ne (hne '-' rfl) (hne '.' rfl), hstarts, hne '%' rfl,
    hne '[' rfl, hne '\x7b' rfl, hne ']' rfl, hne '\x7d' rfl, hne ',' rfl, hne '-' rfl,
    hne '?' rfl, hne ':' rfl, hne '*' rfl, hne '&' rfl, hne '!' rfl, hne '|' rfl, hne '>' rfl, hne '\'' rfl, hne '"' rfl, decide_false,
    Bool.false_and, Bool.or_self, Bool.false_eq_true, if_false, if_true]

/-- A colon before a blank ends a key. -/
theorem take_colon (p : Progress) (line column : Nat) {rest : Text}
    (hrest : Text.endsWord rest = true) :
    p.take line column ':' rest = p.takeColon column rest := by
  simp only [take, atMarker_of_ne (c := ':') (by decide) (by decide), hrest, Char.reduceEq,
    decide_false, decide_true, Bool.false_and, Bool.or_true, Bool.and_true, Bool.or_self,
    Bool.false_eq_true, if_false, if_true]

/-- No gap is before a word. -/
theorem skipGap_word {c : Char} (hc : isWordChar c = true) (inFlow keyAllowed : Bool)
    (line column : Nat) (rest : Text) :
    skipGap inFlow keyAllowed false (⟨line, column, c⟩ :: rest) =
      (keyAllowed, ⟨line, column, c⟩ :: rest) := by
  have hne : ∀ d : Char, isWordChar d = false → c ≠ d := fun d => ne_of_isWordChar hc
  simp [skipGap, hne '\n' rfl, hne ' ' rfl, hne '\t' rfl, hne '#' rfl, hne '\ufeff' rfl]

end Progress

end Yaml
end Teardown
