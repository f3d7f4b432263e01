/-
# Lines of a mapping

A text of lines, each with a word, a colon and another word, is the mapping with these
words as its keys and values, in their order.

Key definitions: `Yaml.line`, `Yaml.lines`, `Yaml.Progress.inBlock`.
Key theorems: `Yaml.Progress.takeAll_line`, `Yaml.ofText?_lines`, `Yaml.document_lines`.
-/
import Teardown.Proofs.Yaml.Words

namespace Teardown
namespace Yaml

/-- A key and a value, both words. The key is short enough to be one. -/
structure IsEntry (m : List Char × List Char) : Prop where
  key : IsWord m.1
  value : IsWord m.2
  short : m.1.length ≤ Progress.keyWidth

/-- The line of an entry. -/
def line (m : List Char × List Char) : List Char := m.1 ++ ':' :: ' ' :: (m.2 ++ ['\n'])

/-- The lines of entries. -/
def lines (ms : List (List Char × List Char)) : List Char := ms.flatMap line

/-- The tokens of an entry. -/
def entryTokens (m : List Char × List Char) : List Token :=
  [.key, .scalar .plain (String.ofList m.1), .value, .scalar .plain (String.ofList m.2)]

namespace Progress

/-- Progress outside of flow collections, without anchors. -/
def inBlock (text : Text) (tokens : List Token) (columns : List Nat) (keyStart : Option KeyStart)
    (keyAllowed : Bool) : Progress :=
  { text, tokens, count := tokens.length, columns, keyStart, keyAllowed }

section

variable {c : Char} {line column : Nat} {text rest : Text} {tokens : List Token}
  {columns : List Nat} {keyStart : Option KeyStart} {keyAllowed : Bool}

theorem expireKeys_inBlock
    (hkey : ∀ k ∈ keyStart, line ≤ k.line ∧ column ≤ k.column + keyWidth) :
    (inBlock text tokens columns keyStart keyAllowed).expireKeys line column =
      some (inBlock text tokens columns keyStart keyAllowed) := by
  cases keyStart with
  | none => rfl
  | some k =>
    obtain ⟨hline, hcolumn⟩ := hkey k rfl
    have hnot : ¬ (k.line < line ∨ k.column + keyWidth < column) := by omega
    simp [expireKeys, inBlock, expired, hnot]

theorem endBlocks_inBlock (hcolumns : ∀ d ∈ columns, d < column) :
    (inBlock text tokens columns keyStart keyAllowed).endBlocks column =
      inBlock text tokens columns keyStart keyAllowed := by
  have htake : columns.takeWhile (column ≤ ·) = [] := by
    cases columns with
    | nil => rfl
    | cons d ds => simp [hcolumns d List.mem_cons_self]
  simp [endBlocks, inBlock, inFlow, htake]

/-- A token goes in after older ones. -/
theorem insert_inBlock (newer : List Token) (t : Token) :
    (inBlock text (newer ++ tokens) columns keyStart keyAllowed).insert tokens.length t =
      inBlock text (newer ++ t :: tokens) columns keyStart keyAllowed := by
  simp [insert, inBlock]
  omega

/-- The next token of a line, where no block collection ends. -/
theorem takeAll_inBlock {allowed : Bool}
    (hgap : skipGap false keyAllowed false text = (allowed, ⟨line, column, c⟩ :: rest))
    (hkey : ∀ k ∈ keyStart, line ≤ k.line ∧ column ≤ k.column + keyWidth)
    (hcolumns : ∀ d ∈ columns, d < column + 1) (fuel : Nat) :
    takeAll (fuel + 1) (inBlock text tokens columns keyStart keyAllowed) =
      ((inBlock (⟨line, column, c⟩ :: rest) tokens columns keyStart allowed).take
        line column c rest).bind (takeAll fuel) := by
  have hafter : (inBlock text tokens columns keyStart keyAllowed).afterGap =
      inBlock (⟨line, column, c⟩ :: rest) tokens columns keyStart allowed := by
    simp only [afterGap, inBlock, inFlow, List.isEmpty_nil, Bool.not_true, hgap]
  rw [takeAll, hafter]
  show (do
    let p ← (inBlock (⟨line, column, c⟩ :: rest) tokens columns keyStart allowed).expireKeys
      line column
    takeAll fuel (← (p.endBlocks (column + 1)).take line column c rest)) = _
  rw [expireKeys_inBlock hkey]
  show (((inBlock (⟨line, column, c⟩ :: rest) tokens columns keyStart allowed).endBlocks
    (column + 1)).take line column c rest).bind (takeAll fuel) = _
  rw [endBlocks_inBlock hcolumns]

end

/-- A mapping that starts at the start of a line was started, or nothing was. -/
def IsOuter (columns : List Nat) : Prop := columns = [] ∨ columns = [0]

/-- A key that starts at the start of a line. In a mapping nothing else can. -/
def keyAt (line : Nat) (tokens : List Token) (columns : List Nat) : KeyStart :=
  { before := tokens.length, line, column := 0, required := !columns.isEmpty }

/-- The start of the mapping where it is due. -/
def opening (columns : List Nat) : List Token := if columns.isEmpty then [.mappingStart] else []

section

variable {m : List Char × List Char} {tokens : List Token} {columns : List Nat}

/-- A key is taken up to its colon. -/
theorem takeAll_key (hm : IsEntry m) (hcolumns : IsOuter columns) (fuel line : Nat)
    (more : List Char) :
    takeAll (fuel + 1)
        (inBlock (placed line 0 (m.1 ++ ':' :: ' ' :: more)) tokens columns none true) =
      takeAll fuel
        (inBlock (placed line m.1.length (':' :: ' ' :: more))
          (.scalar .plain (String.ofList m.1) :: tokens) columns
          (some (keyAt line tokens columns)) false) := by
  obtain ⟨c, w, hw⟩ := List.exists_cons_of_ne_nil hm.key.ne_nil
  have hc : isWordChar c = true := hm.key.chars c (by rw [hw]; exact List.mem_cons_self)
  have hbreak : c ≠ '\n' := ne_of_isWordChar hc (by decide)
  obtain ⟨rest, htext⟩ : ∃ rest, placed line 0 (m.1 ++ ':' :: ' ' :: more) =
      ⟨line, 0, c⟩ :: rest := by
    rw [hw, List.cons_append, placed]
    exact ⟨_, rfl⟩
  have hplain := plain_key hm.key (inBlock [] tokens columns none true).least line 0 more
  have hnote : (inBlock (⟨line, 0, c⟩ :: rest) tokens columns none true).noteKey line 0 =
      some (inBlock (⟨line, 0, c⟩ :: rest) tokens columns (some (keyAt line tokens columns))
        true) := by
    rcases hcolumns with rfl | rfl <;> rfl
  rw [htext] at hplain ⊢
  rw [takeAll_inBlock (skipGap_word hc _ _ _ _ _) (by simp)
    (by rcases hcolumns with rfl | rfl <;> simp), take_word hc, hnote]
  simp only [Option.bind_eq_bind, Option.bind_some]
  rw [show plain (inBlock (⟨line, 0, c⟩ :: rest) tokens columns (some (keyAt line tokens columns))
    true).inFlow (inBlock (⟨line, 0, c⟩ :: rest) tokens columns
      (some (keyAt line tokens columns)) true).least (⟨line, 0, c⟩ :: rest) = _ from hplain,
    Nat.zero_add]
  rfl

/-- Before a key the mapping starts where it is due. -/
theorem startBlock_inBlock (hcolumns : IsOuter columns) (t : Token) (keyStart : Option KeyStart)
    (text : Text) :
    (inBlock text (t :: .key :: tokens) columns keyStart false).startBlock 0 tokens.length
        .mappingStart =
      inBlock text (t :: .key :: (opening columns ++ tokens)) [0] keyStart false := by
  rcases hcolumns with rfl | rfl
  · have hinsert : (inBlock text (t :: .key :: tokens) [] keyStart false).insert tokens.length
        .mappingStart = inBlock text (t :: .key :: .mappingStart :: tokens) [] keyStart false :=
      insert_inBlock [t, .key] .mappingStart
    exact congrArg (fun p : Progress => { p with columns := [0] }) hinsert
  · rfl

/-- At the colon the key is known to be one, and the mapping to have started. -/
theorem takeColon_inBlock (hcolumns : IsOuter columns) (t : Token) (line column : Nat)
    (text rest : Text) :
    (inBlock text (t :: tokens) columns (some (keyAt line tokens columns)) false).takeColon
        column rest =
      some (inBlock rest (.value :: t :: .key :: (opening columns ++ tokens)) [0] none false) := by
  have hkey : (inBlock text (t :: tokens) columns (some (keyAt line tokens columns)) false).insert
      tokens.length .key = inBlock text (t :: .key :: tokens) columns
        (some (keyAt line tokens columns)) false := insert_inBlock [t] .key
  have hstart := (congrArg (startBlock · 0 tokens.length .mappingStart) hkey).trans
    (startBlock_inBlock hcolumns t _ text)
  exact congrArg (fun p : Progress =>
    some { p.emit .value with keyStart := none, keyAllowed := false, text := rest }) hstart

theorem takeAll_colon (hm : IsEntry m) (hcolumns : IsOuter columns) (fuel line : Nat)
    (more : List Char) :
    takeAll (fuel + 1)
        (inBlock (placed line m.1.length (':' :: ' ' :: more))
          (.scalar .plain (String.ofList m.1) :: tokens) columns
          (some (keyAt line tokens columns)) false) =
      takeAll fuel
        (inBlock (placed line (m.1.length + 1) (' ' :: more))
          (.value :: .scalar .plain (String.ofList m.1) :: .key :: (opening columns ++ tokens)) [0]
          none false) := by
  have hplaced : placed line m.1.length (':' :: ' ' :: more) =
      ⟨line, m.1.length, ':'⟩ :: placed line (m.1.length + 1) (' ' :: more) := rfl
  have hends : Text.endsWord (placed line (m.1.length + 1) (' ' :: more)) = true := rfl
  rw [hplaced, takeAll_inBlock rfl ?_ ?_, take_colon _ _ _ hends, takeColon_inBlock hcolumns,
    Option.bind_some]
  · intro k hk
    obtain rfl := Option.some.inj hk
    have hshort := hm.short
    simpa [keyAt] using hshort
  · rcases hcolumns with rfl | rfl <;> simp

/-- A value is taken up to the next line. -/
theorem takeAll_value (hm : IsEntry m) (fuel line column : Nat) {more : List Char}
    (hmore : StartsLine more) :
    takeAll (fuel + 1)
        (inBlock (placed line column (' ' :: (m.2 ++ '\n' :: more))) tokens [0] none false) =
      takeAll fuel
        (inBlock (placed (line + 1) 0 more)
          (.scalar .plain (String.ofList m.2) :: tokens) [0] none true) := by
  obtain ⟨c, w, hw⟩ := List.exists_cons_of_ne_nil hm.value.ne_nil
  have hc : isWordChar c = true := hm.value.chars c (by rw [hw]; exact List.mem_cons_self)
  obtain ⟨rest, htext⟩ : ∃ rest, placed line (column + 1) (m.2 ++ '\n' :: more) =
      ⟨line, column + 1, c⟩ :: rest := by
    rw [hw, List.cons_append, placed]
    exact ⟨_, rfl⟩
  have hplain := plain_value hm.value line (column + 1) hmore
  rw [htext] at hplain
  have hgap : skipGap false false false (placed line column (' ' :: (m.2 ++ '\n' :: more))) =
      (false, ⟨line, column + 1, c⟩ :: rest) := by
    rw [placed, if_neg (by decide), htext, skipGap, if_neg (by decide), if_pos (by simp),
      skipGap_word hc]
  rw [takeAll_inBlock hgap (by simp) (by simp), take_word hc]
  have hnote : (inBlock (⟨line, column + 1, c⟩ :: rest) tokens [0] none false).noteKey
      line (column + 1) = some (inBlock (⟨line, column + 1, c⟩ :: rest) tokens [0] none false) :=
    rfl
  rw [hnote]
  simp only [Option.bind_eq_bind, Option.bind_some]
  rw [show plain (inBlock (⟨line, column + 1, c⟩ :: rest) tokens [0] none false).inFlow
    (inBlock (⟨line, column + 1, c⟩ :: rest) tokens [0] none false).least
    (⟨line, column + 1, c⟩ :: rest) = _ from hplain]
  rfl

/-- The tokens of a line. -/
theorem takeAll_line (hm : IsEntry m) (hcolumns : IsOuter columns) (fuel line : Nat)
    {more : List Char} (hmore : StartsLine more) :
    takeAll (fuel + 3) (inBlock (placed line 0 (Yaml.line m ++ more)) tokens columns none true) =
      takeAll fuel
        (inBlock (placed (line + 1) 0 more)
          ((entryTokens m).reverse ++ (opening columns ++ tokens)) [0] none true) := by
  have htext : Yaml.line m ++ more = m.1 ++ ':' :: ' ' :: (m.2 ++ '\n' :: more) := by
    simp [Yaml.line]
  rw [htext, takeAll_key hm hcolumns, takeAll_colon hm hcolumns, takeAll_value hm _ _ _ hmore]
  rfl

/-- Lines start with words. -/
theorem startsLine_lines {ms : List (List Char × List Char)} (hms : ∀ m ∈ ms, IsEntry m) :
    StartsLine (lines ms) := by
  cases ms with
  | nil => simp [StartsLine, lines]
  | cons m ms =>
    have hkey := (hms m List.mem_cons_self).key
    obtain ⟨c, w, hw⟩ := List.exists_cons_of_ne_nil hkey.ne_nil
    have hc := hkey.chars c (by rw [hw]; exact List.mem_cons_self)
    intro d hd
    rw [lines, List.flatMap_cons, Yaml.line, hw] at hd
    obtain rfl : c = d := by simpa using hd
    exact hc

/-- The tokens of lines, after which the mapping ends. -/
theorem takeAll_lines {ms : List (List Char × List Char)} (hms : ∀ m ∈ ms, IsEntry m) :
    ∀ (fuel line : Nat) (tokens : List Token), 3 * ms.length < fuel →
      takeAll fuel (inBlock (placed line 0 (lines ms)) tokens [0] none true) =
        some (tokens.reverse ++ (ms.flatMap entryTokens ++ [.blockEnd])) := by
  induction ms with
  | nil =>
    intro fuel line tokens hfuel
    obtain ⟨fuel, rfl⟩ := Nat.exists_eq_succ_of_ne_zero (Nat.ne_of_gt hfuel)
    rw [takeAll]
    simp [inBlock, lines, placed, afterGap, skipGap, endBlocks, inFlow, dropKey]
  | cons m ms ih =>
    intro fuel line tokens hfuel
    obtain ⟨fuel, rfl⟩ : ∃ n, fuel = n + 3 := ⟨fuel - 3, by rw [List.length_cons] at hfuel; omega⟩
    have hrest := fun n hn => hms n (List.mem_cons_of_mem m hn)
    rw [lines, List.flatMap_cons, ← lines,
      takeAll_line (hms m List.mem_cons_self) (.inr rfl) _ _ (startsLine_lines hrest),
      ih hrest _ _ _ (by rw [List.length_cons] at hfuel; omega)]
    simp [opening]

end

end Progress

variable {m : List Char × List Char} {ms : List (List Char × List Char)}

/-- Lines are long enough for their tokens. -/
theorem length_lines (hms : ∀ m ∈ ms, IsEntry m) : 3 * ms.length ≤ (lines ms).length := by
  induction ms with
  | nil => exact Nat.zero_le _
  | cons m ms ih =>
    have hrest := ih fun n hn => hms n (List.mem_cons_of_mem m hn)
    rw [lines, List.flatMap_cons, ← lines, List.length_append, List.length_cons, line]
    simp only [List.length_append, List.length_cons, List.length_nil]
    omega

theorem length_placed : ∀ (cs : List Char) (line column : Nat),
    (placed line column cs).length = cs.length
  | [], _, _ => rfl
  | c :: cs, line, column => by
    rw [placed]
    split
    · rw [List.length_cons, length_placed cs, List.length_cons]
    · rw [List.length_cons, length_placed cs, List.length_cons]

/-- **The tokens of lines**: a mapping with a key and a value for each of them. -/
theorem ofText?_lines (hm : IsEntry m) (hms : ∀ n ∈ ms, IsEntry n) :
    Token.ofText? (placed 0 0 (lines (m :: ms))) =
      some (.mappingStart :: ((m :: ms).flatMap entryTokens ++ [.blockEnd])) := by
  have hlen := length_lines (List.forall_mem_cons.mpr ⟨hm, hms⟩)
  rw [List.length_cons] at hlen
  obtain ⟨fuel, hfuel⟩ : ∃ n, (lines (m :: ms)).length + 1 = n + 3 :=
    ⟨(lines (m :: ms)).length - 2, by omega⟩
  rw [Token.ofText?, length_placed, hfuel, lines, List.flatMap_cons, ← lines]
  refine (Progress.takeAll_line hm (.inl rfl) fuel 0 (Progress.startsLine_lines hms)).trans ?_
  refine (Progress.takeAll_lines hms _ _ _ (by omega)).trans ?_
  simp [Progress.opening]

/-! ### Text -/

/-- Lines are made of printing characters of ASCII and line feeds. -/
theorem ascii_of_mem_lines (hms : ∀ m ∈ ms, IsEntry m) {c : Char} (hc : c ∈ lines ms) :
    c = '\n' ∨ 0x20 ≤ c.toNat ∧ c.toNat ≤ 0x7E := by
  obtain ⟨m, hm, hc⟩ := List.mem_flatMap.mp hc
  have hword : ∀ {w : List Char}, IsWord w → c ∈ w → 0x20 ≤ c.toNat ∧ c.toNat ≤ 0x7E :=
    fun hw hmem => ascii_of_isWordChar (hw.chars c hmem)
  simp only [line, List.mem_append, List.mem_cons, List.not_mem_nil, or_false] at hc
  rcases hc with hc | rfl | rfl | hc | rfl
  · exact .inr (hword (hms m hm).key hc)
  · exact .inr (by decide)
  · exact .inr (by decide)
  · exact .inr (hword (hms m hm).value hc)
  · exact .inl rfl

theorem unifyBreaks_eq_self : ∀ {cs : List Char},
    (∀ c ∈ cs, c = '\n' ∨ 0x20 ≤ c.toNat ∧ c.toNat ≤ 0x7E) → unifyBreaks cs = cs
  | [], _ => rfl
  | c :: cs, h => by
    have hrest := unifyBreaks_eq_self fun d hd => h d (List.mem_cons_of_mem c hd)
    have hc := h c List.mem_cons_self
    have hreturn : c ≠ '\r' := by
      rintro rfl
      revert hc
      decide
    have hnumber : ¬ (c.toNat = 0x85 ∨ c.toNat = 0x2028 ∨ c.toNat = 0x2029) := by
      rcases hc with rfl | hc
      · decide
      · omega
    rw [unifyBreaks, if_neg (by simpa [hreturn] using hnumber), hrest]
    intro rest hr
    exact absurd hr hreturn

theorem ofString?_lines (hms : ∀ m ∈ ms, IsEntry m) :
    Text.ofString? (String.ofList (lines ms)) = some (placed 0 0 (lines ms)) := by
  have hall : (lines ms).all isAllowed = true := by
    rw [List.all_eq_true]
    intro c hc
    rcases ascii_of_mem_lines hms hc with rfl | hascii
    · decide
    · simp [isAllowed, hascii]
  rw [Text.ofString?, String.toList_ofList, if_pos hall,
    unifyBreaks_eq_self fun c hc => ascii_of_mem_lines hms hc]

/-! ### Nodes -/

/-- A word as a node. -/
def wordNode (w : List Char) : Node := .scalar none .plain none (String.ofList w)

theorem read_scalar (fuel : Nat) (place : Node.Place) (w : List Char) (ts : List Token) :
    Node.read [] (fuel + 1) place (.scalar .plain (String.ofList w) :: ts) =
      some (wordNode w, ts) := by
  simp [Node.read, Node.marks, wordNode]

/-- One more member. -/
theorem readMembers_entry {fuel : Nat} {ts rest : List Token} {members : List (Node × Node)}
    (h : Node.readMembers [] (fuel + 1) ts = some (members, rest)) :
    Node.readMembers [] (fuel + 2) (entryTokens m ++ ts) =
      some ((wordNode m.1, wordNode m.2) :: members, rest) := by
  simp only [entryTokens, List.cons_append, List.nil_append]
  rw [Node.readMembers]
  simp only [Node.endsMember, Bool.false_eq_true, if_false, read_scalar, Option.bind_eq_bind,
    Option.bind_some, h]
  rfl

theorem readMembers_lines : ∀ (ms : List (List Char × List Char)) (fuel : Nat),
    ms.length < fuel →
      Node.readMembers [] fuel (ms.flatMap entryTokens ++ [.blockEnd]) =
        some (ms.map fun m => (wordNode m.1, wordNode m.2), [])
  | [], fuel, hfuel => by
    obtain ⟨fuel, rfl⟩ : ∃ n, fuel = n + 1 := ⟨fuel - 1, by omega⟩
    rw [List.flatMap_nil, List.nil_append, Node.readMembers]
    rfl
  | m :: ms, fuel, hfuel => by
    obtain ⟨fuel, rfl⟩ : ∃ n, fuel = n + 2 :=
      ⟨fuel - 2, by rw [List.length_cons] at hfuel; omega⟩
    have hrest := readMembers_lines ms (fuel + 1) (by rw [List.length_cons] at hfuel; omega)
    rw [List.flatMap_cons, List.append_assoc]
    exact readMembers_entry hrest

theorem length_flatMap_entryTokens (ms : List (List Char × List Char)) :
    (ms.flatMap entryTokens).length = 4 * ms.length := by
  induction ms with
  | nil => rfl
  | cons m ms ih =>
    rw [List.flatMap_cons, List.length_append, ih, List.length_cons, entryTokens]
    simp only [List.length_cons, List.length_nil]
    omega

theorem readRoot_lines (ms : List (List Char × List Char)) :
    readRoot [] (.mappingStart :: (ms.flatMap entryTokens ++ [.blockEnd])) =
      some (.mapping none (ms.map fun m => (wordNode m.1, wordNode m.2)), []) := by
  have hlen := length_flatMap_entryTokens ms
  have hmembers := readMembers_lines ms
    (3 * ((ms.flatMap entryTokens).length + (0 + 1) + 1) + 2) (by omega)
  rw [readRoot, Node.read]
  simp only [Node.marks, List.length_cons, List.length_append, List.length_nil]
  · rw [hmembers]
    rfl
  · intro n ts halias
    cases halias

/-- A mapping without directives is a document. -/
theorem ofTokens?_mapping {ts : List Token} {root : Node}
    (h : readRoot [] (.mappingStart :: ts) = some (root, [])) :
    Document.ofTokens? (.mappingStart :: ts) = some { root := some root } := by
  simp [Document.ofTokens?, prologue, h]

/-- **Lines are a mapping** of their keys to their values. -/
theorem document_lines (hm : IsEntry m) (hms : ∀ n ∈ ms, IsEntry n) :
    Document.ofText? (String.ofList (lines (m :: ms))) = some {
      root := some (.mapping none ((m :: ms).map fun n => (wordNode n.1, wordNode n.2))) } := by
  rw [Document.ofText?, ofString?_lines (List.forall_mem_cons.mpr ⟨hm, hms⟩), Option.bind_some,
    ofText?_lines hm hms, Option.bind_some]
  exact ofTokens?_mapping (readRoot_lines (m :: ms))

end Yaml
end Teardown
