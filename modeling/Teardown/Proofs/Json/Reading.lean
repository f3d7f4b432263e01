/-
# Reading what was written

A value that is written as JSON text reads back as it was, whatever follows it
in the text: a string with all its escapes, a truth value, a name, and a list of what
reads back. Of a string that holds for every way of writing its characters.

Key definitions: `Json.Reads`.
Key theorems: `Json.reads_readString`, `Json.reads_readList`, `Json.Reads.decode`.
-/
import Teardown.Proofs.Json.Grammar

namespace Teardown
namespace Json

variable {α β σ : Type}

/-! ### How readers run -/

theorem run_bind_of_ok {read : Reader α} {next : α → Reader β} {cs rest : List Char} {a : α}
    (h : read.run cs = .ok (a, rest)) : (read >>= next).run cs = (next a).run rest := by
  rw [StateT.run_bind, h]
  rfl

theorem run_get (cs : List Char) : (get : Reader (List Char)).run cs = .ok (cs, cs) := rfl

theorem run_advance (c : Char) (cs : List Char) : advance.run (c :: cs) = .ok ((), cs) := rfl

theorem run_next (c : Char) (cs : List Char) : next.run (c :: cs) = .ok (c, cs) := rfl

/-- A character that is no space is left in place. -/
theorem run_peekSolid {c : Char} (hc : isSpace c = false) (cs : List Char) :
    peekSolid.run (c :: cs) = .ok (some c, c :: cs) := by
  simp [peekSolid, StateT.run, hc]

/-- A text that is made of the texts of items bounds their number. -/
theorem length_le_flatMap {g : α → List β} (hg : ∀ a, 0 < (g a).length) :
    ∀ as : List α, as.length ≤ (as.flatMap g).length
  | [] => Nat.le_refl 0
  | a :: as => by
    have ih := length_le_flatMap hg as
    have ha := hg a
    rw [List.flatMap_cons, List.length_append, List.length_cons]
    omega

/-! ### What reads back -/

/-- The reader takes `text` off whatever begins with it, and takes it for `a`. -/
def Reads (read : Reader α) (text : List Char) (a : α) : Prop :=
  ∀ rest, read.run (text ++ rest) = .ok (a, rest)

namespace Reads

variable {read : Reader α} {text : List Char} {a : α}

theorem pure (a : α) : Reads (Pure.pure a) [] a := fun _ => rfl

/-- One text after the other. -/
theorem bind {next : α → Reader β} {more : List Char} {b : β} (hread : Reads read text a)
    (hnext : Reads (next a) more b) : Reads (read >>= next) (text ++ more) b := by
  intro rest
  rw [List.append_assoc, run_bind_of_ok (hread (more ++ rest))]
  exact hnext rest

/-- What is made of the value that was read. -/
theorem bind_pure {next : α → Reader β} {b : β} (hread : Reads read text a)
    (hnext : ∀ rest, (next a).run rest = .ok (b, rest)) : Reads (read >>= next) text b := by
  have h : Reads (read >>= next) (text ++ []) b := hread.bind hnext
  rwa [List.append_nil] at h

/-- **A whole text is read as what it was written for.** -/
theorem decode (hread : Reads read text a) : Json.decode read (String.ofList text) = .ok a := by
  have h := hread []
  rw [List.append_nil] at h
  have happ : read (String.ofList text).toList = .ok (a, []) := by
    rw [String.toList_ofList]
    exact h
  rw [Json.decode, happ]
  rfl

end Reads

theorem reads_readWord : ∀ word : List Char, Reads (readWord word) word ()
  | [] => .pure ()
  | c :: word => by
    intro rest
    have h := reads_readWord word rest
    simpa [readWord, StateT.run] using h

/-! ### Strings -/

theorem run_readHex {ds : List Char} {n : Nat} (hds : Quad ds n) (rest : List Char) :
    readHex.run (ds ++ rest) = .ok (n, rest) := by
  obtain ⟨ha, hb, hc, hd⟩ := hds
  simp [readHex, StateT.run, ha, hb, hc, hd]

theorem run_readEscape_short {c d : Char} (hd : shortEscape? c = some d) (rest : List Char) :
    readEscape.run (c :: rest) = .ok (d, rest) := by
  have hc : c ≠ 'u' := by
    rintro rfl
    cases hd
  rw [readEscape, run_bind_of_ok (run_next c rest), if_neg hc, hd]
  rfl

/-- A number that is no half of a surrogate pair. -/
theorem run_readEscape_numbered {ds : List Char} {n : Nat} (hds : Quad ds n)
    (hn : n < 0xD800 ∨ 0xDFFF < n) (rest : List Char) :
    readEscape.run ('u' :: (ds ++ rest)) = .ok (Char.ofNat n, rest) := by
  rw [readEscape, run_bind_of_ok (run_next _ _), if_pos rfl, readNumbered,
    run_bind_of_ok (run_readHex hds rest), if_neg (by omega), if_pos (by omega)]
  rfl

/-- The two halves of a surrogate pair. -/
theorem run_readEscape_pair {hs ls : List Char} {high low : Nat} (hhs : Quad hs high)
    (hls : Quad ls low) (hhigh : 0xD800 ≤ high ∧ high ≤ 0xDBFF)
    (hlow : 0xDC00 ≤ low ∧ low ≤ 0xDFFF) (rest : List Char) :
    readEscape.run ('u' :: (hs ++ '\\' :: 'u' :: (ls ++ rest))) =
      .ok (Char.ofNat (0x10000 + (high - 0xD800) * 0x400 + (low - 0xDC00)), rest) := by
  rw [readEscape, run_bind_of_ok (run_next _ _), if_pos rfl, readNumbered,
    run_bind_of_ok (run_readHex hhs _), if_neg (by omega), if_neg (by omega),
    run_bind_of_ok (run_next _ _), if_neg (by decide), run_bind_of_ok (run_next _ _),
    if_neg (by decide), run_bind_of_ok (run_readHex hls rest), if_neg (by omega)]
  rfl

section

variable {escape' : Reader Char} {within text rest : List Char} {w c : Char} {cs : List Char}

/-- A character that stands for itself. -/
theorem run_readChars_plain (hc : IsPlain c)
    (h : (readChars escape' within).run text = .ok (cs, rest)) :
    (readChars escape' (w :: within)).run (c :: text) = .ok (c :: cs, rest) := by
  rw [readChars, run_bind_of_ok (run_next c text), if_neg hc.1, if_neg hc.2.1, if_neg hc.2.2,
    run_bind_of_ok h]
  rfl

/-- A character that is written with a backslash. -/
theorem run_readChars_escape {after : List Char} (hesc : escape'.run text = .ok (c, after))
    (h : (readChars escape' within).run after = .ok (cs, rest)) :
    (readChars escape' (w :: within)).run ('\\' :: text) = .ok (c :: cs, rest) := by
  rw [readChars, run_bind_of_ok (run_next '\\' text), if_neg (by decide), if_pos rfl,
    run_bind_of_ok hesc, run_bind_of_ok h]
  rfl

end

/-- A character is read as what its text stands for. -/
theorem run_readChars_cons {within written text rest cs : List Char} {c : Char} (w : Char)
    (hc : CharText written c) (h : (readChars readEscape within).run text = .ok (cs, rest)) :
    (readChars readEscape (w :: within)).run (written ++ text) = .ok (c :: cs, rest) := by
  cases hc with
  | plain hc => exact run_readChars_plain hc h
  | short hd => exact run_readChars_escape (run_readEscape_short hd text) h
  | numbered hds hn => exact run_readChars_escape (run_readEscape_numbered hds hn text) h
  | pair hhs hls hhigh hlow =>
    have hpair := run_readEscape_pair hhs hls hhigh hlow text
    simp only [List.cons_append, List.append_assoc]
    exact run_readChars_escape hpair h

/-- **Characters are read as what their text stands for** up to the closing quote,
within any text that is longer than they are. -/
theorem run_readChars_text {written cs : List Char} (h : CharsText written cs) (rest : List Char) :
    ∀ within : List Char, cs.length < within.length →
      (readChars readEscape within).run (written ++ '"' :: rest) = .ok (cs, rest) := by
  induction h with
  | nil =>
    intro within hlen
    obtain ⟨w, within, rfl⟩ := List.exists_cons_of_length_pos hlen
    rfl
  | cons hc _ ih =>
    intro within hlen
    obtain ⟨w, within, rfl⟩ := List.exists_cons_of_length_pos (Nat.zero_lt_of_lt hlen)
    rw [List.append_assoc]
    exact run_readChars_cons w hc (ih within (by simpa using hlen))

/-- The text of characters is not shorter than they are. -/
theorem CharsText.length_le {written cs : List Char} (h : CharsText written cs) :
    cs.length ≤ written.length := by
  induction h with
  | nil => exact Nat.le_refl 0
  | cons hc _ ih =>
    have hpos := hc.length_pos
    rw [List.length_append, List.length_cons]
    omega

/-- The rest of a string after its opening quote. -/
theorem reads_readString {written : List Char} {s : String} (h : CharsText written s.toList) :
    Reads readString (written ++ ['"']) s := by
  intro rest
  have hread := run_readChars_text h rest (written ++ '"' :: rest) (by
    have hlen := h.length_le
    rw [List.length_append, List.length_cons]
    omega)
  rw [List.append_assoc, List.singleton_append, readString, run_bind_of_ok (run_get _),
    run_bind_of_ok hread, String.ofList_toList]
  rfl

/-- **A string reads back.** -/
theorem reads_readText (s : String) : Reads readText (writeString s) s := by
  intro rest
  rw [readText, writeString, List.cons_append, run_bind_of_ok (run_peekSolid rfl _)]
  simp only
  rw [run_bind_of_ok (run_advance _ _)]
  exact reads_readString (charsText_flatMap_escape s.toList) rest

theorem reads_readBool (b : Bool) : Reads readBool (Json.bool b).write b := by
  intro rest
  cases b with
  | true =>
    rw [readBool, write, List.cons_append, run_bind_of_ok (run_peekSolid rfl _)]
    simp only
    rw [run_bind_of_ok (run_advance _ _), run_bind_of_ok (reads_readWord _ rest)]
    rfl
  | false =>
    rw [readBool, write, List.cons_append, run_bind_of_ok (run_peekSolid rfl _)]
    simp only
    rw [run_bind_of_ok (run_advance _ _), run_bind_of_ok (reads_readWord _ rest)]
    rfl

/-- A name that is known reads back. -/
theorem reads_readName {ofName? : String → Option α} {s : String} {a : α}
    (ha : ofName? s = some a) (nested : Bool) :
    Reads (readName ofName? nested) (writeString s) a := by
  intro rest
  have hread := reads_readText s rest
  rw [writeString, List.cons_append] at hread ⊢
  rw [readName, run_bind_of_ok (run_peekSolid rfl _)]
  simp only
  rw [run_bind_of_ok hread, ha]
  rfl

/-! ### Values in sequence -/

theorem writeItems_cons (j : Json) (js : List Json) :
    writeItems (j :: js) = j.write ++ js.flatMap fun k => ',' :: k.write := by
  induction js generalizing j with
  | nil => rw [writeItems, List.flatMap_nil, List.append_nil]
  | cons k js ih => rw [writeItems, ih k, List.flatMap_cons, List.cons_append]

/-- Each item takes a character at least. -/
theorem length_le_writeItems : ∀ js : List Json, js.length ≤ (writeItems js).length
  | [] => Nat.zero_le _
  | j :: js => by
    have hrest := length_le_flatMap (g := fun k : Json => ',' :: k.write) (by simp) js
    obtain ⟨c, cs, hj, -, -⟩ := (isValue_write j).exists_cons
    rw [writeItems_cons, hj, List.length_append, List.length_cons, List.length_cons]
    omega

/-- What stands before a value: a comma if another one came before. -/
def separator (later : Bool) : List Char := if later then [','] else []

section

variable {item : Reader α} {within text rest : List Char} {w : Char} {j : Json} {a : α}
  {as : List α}

theorem run_readItems_nil (w : Char) (within rest : List Char) (later : Bool) :
    (readItems item (w :: within) later).run (']' :: rest) = .ok ([], rest) := by
  rw [readItems, run_bind_of_ok (run_peekSolid rfl _)]
  rfl

/-- A comma before a further item is passed over. -/
theorem run_readItems_comma {c : Char} (hspace : isSpace c = false) (hclose : c ≠ ']')
    (w : Char) (within cs : List Char) :
    (readItems item (w :: within) true).run (',' :: c :: cs) =
      (readItems item (w :: within) false).run (c :: cs) := by
  rw [readItems, run_bind_of_ok (run_peekSolid rfl _), readItems,
    run_bind_of_ok (run_peekSolid hspace _)]
  simp only [if_true, if_neg hclose, Bool.false_eq_true, if_false]
  rw [if_neg (by decide), if_neg (by decide), run_bind_of_ok (run_advance _ _),
    run_bind_of_ok (run_peekSolid hspace _)]
  simp only [if_neg hclose]

/-- One more item. -/
theorem run_readItems_cons (hitem : Reads item j.write a) (later : Bool)
    (h : (readItems item within true).run text = .ok (as, rest)) :
    (readItems item (w :: within) later).run (separator later ++ (j.write ++ text)) =
      .ok (a :: as, rest) := by
  obtain ⟨c, cs, hj, hspace, hclose⟩ := (isValue_write j).exists_cons
  have hread := hitem text
  rw [hj, List.cons_append] at hread ⊢
  have hfirst : (readItems item (w :: within) false).run (c :: (cs ++ text)) =
      .ok (a :: as, rest) := by
    rw [readItems, run_bind_of_ok (run_peekSolid hspace _)]
    simp only [if_neg hclose, Bool.false_eq_true, if_false]
    rw [run_bind_of_ok hread, run_bind_of_ok h]
    rfl
  cases later with
  | false => exact hfirst
  | true => exact (run_readItems_comma hspace hclose w within _).trans hfirst

end

section

variable {item : Reader α} {toJson : α → Json}

/-- The items that are left of an array, up to its closing bracket. -/
theorem run_readItems_later (rest : List Char) : ∀ (as : List α) (within : List Char),
    (∀ a ∈ as, Reads item (toJson a).write a) → as.length < within.length →
      (readItems item within true).run
        ((as.map toJson).flatMap (fun k => ',' :: k.write) ++ ']' :: rest) = .ok (as, rest)
  | _, [], _, hlen => by simp at hlen
  | [], w :: within, _, _ => run_readItems_nil w within rest true
  | a :: as, w :: within, hitem, hlen => by
    have hrest := run_readItems_later rest as within
      (fun b hb => hitem b (List.mem_cons_of_mem a hb)) (by simpa using hlen)
    have h := run_readItems_cons (w := w) (hitem a List.mem_cons_self) true hrest
    rw [List.map_cons, List.flatMap_cons, List.append_assoc, List.cons_append]
    exact h

/-- The items of an array, within any text that is longer than there are items. -/
theorem run_readItems {as : List α} (hitem : ∀ a ∈ as, Reads item (toJson a).write a)
    (rest : List Char) {within : List Char} (hlen : as.length < within.length) :
    (readItems item within false).run (writeItems (as.map toJson) ++ ']' :: rest) =
      .ok (as, rest) := by
  obtain ⟨w, within, rfl⟩ := List.exists_cons_of_length_pos (Nat.zero_lt_of_lt hlen)
  cases as with
  | nil => exact run_readItems_nil w within rest false
  | cons a as =>
    have hrest := run_readItems_later rest as within
      (fun b hb => hitem b (List.mem_cons_of_mem a hb)) (by simpa using hlen)
    rw [List.map_cons, writeItems_cons, List.append_assoc]
    exact run_readItems_cons (hitem a List.mem_cons_self) false hrest

/-- **A list of what reads back reads back.** -/
theorem reads_readList {as : List α} (hitem : ∀ a ∈ as, Reads item (toJson a).write a) :
    Reads (readList (some item)) (Json.arr (as.map toJson)).write as := by
  intro rest
  have hlen : as.length < (writeItems (as.map toJson) ++ ']' :: rest).length := by
    have h := length_le_writeItems (as.map toJson)
    rw [List.length_map] at h
    rw [List.length_append, List.length_cons]
    omega
  rw [write, List.cons_append, readList, run_bind_of_ok (run_peekSolid rfl _)]
  simp only
  rw [run_bind_of_ok (run_advance _ _), run_bind_of_ok (run_get _), List.append_assoc,
    List.singleton_append]
  exact run_readItems hitem rest hlen

end

end Json
end Teardown
