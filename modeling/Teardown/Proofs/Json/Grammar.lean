/-
# The grammar of JSON

Which texts are JSON values, and which objects: the members of an object may stand
in any order, with white space around every mark, and characters between quotes may
be escaped or not. The grammar says nothing of how a text is read. A string in a value
may hold escapes of any four digits; the name of a member stands for a text, so that
halves of surrogate pairs stand in it in pairs only.

Key definitions: `Json.IsValue`, `Json.Members`, `Json.IsObject`, `Json.valuesOf`.
Key theorems: `Json.isValue_write`, `Json.isObject_write`.
-/
import Teardown.Json.Reader
import Teardown.Json.Value

namespace Teardown
namespace Json

/-! ### White space -/

/-- White space, or nothing. -/
def IsGap (cs : List Char) : Prop := ∀ c ∈ cs, isSpace c = true

theorem isGap_nil : IsGap [] := fun _ hc => absurd hc List.not_mem_nil

/-! ### Strings -/

/-- Four hexadecimal digits and the number they are. -/
inductive Quad : List Char → Nat → Prop where
  | mk {a b c d : Char} {v w x y : Nat} (ha : Text.digit? 16 a = some v)
      (hb : Text.digit? 16 b = some w) (hc : Text.digit? 16 c = some x)
      (hd : Text.digit? 16 d = some y) : Quad [a, b, c, d] (((v * 16 + w) * 16 + x) * 16 + y)

/-- Whether a character stands for itself between quotes. -/
def IsPlain (c : Char) : Prop := c ≠ '"' ∧ c ≠ '\\' ∧ ¬ c.toNat < 0x20

/-- What may be written between quotes for a character. -/
inductive CharText : List Char → Char → Prop where
  | plain {c : Char} (hc : IsPlain c) : CharText [c] c
  | short {c d : Char} (hd : shortEscape? c = some d) : CharText ['\\', c] d
  | numbered {ds : List Char} {n : Nat} (hds : Quad ds n) (hn : n < 0xD800 ∨ 0xDFFF < n) :
      CharText ('\\' :: 'u' :: ds) (Char.ofNat n)
  /-- The two halves of a surrogate pair. -/
  | pair {hs ls : List Char} {high low : Nat} (hhs : Quad hs high) (hls : Quad ls low)
      (hhigh : 0xD800 ≤ high ∧ high ≤ 0xDBFF) (hlow : 0xDC00 ≤ low ∧ low ≤ 0xDFFF) :
      CharText ('\\' :: 'u' :: (hs ++ '\\' :: 'u' :: ls))
        (Char.ofNat (0x10000 + (high - 0xD800) * 0x400 + (low - 0xDC00)))

/-- What may be written between quotes for characters. -/
inductive CharsText : List Char → List Char → Prop where
  | nil : CharsText [] []
  | cons {text texts cs : List Char} {c : Char} (hc : CharText text c)
      (hcs : CharsText texts cs) : CharsText (text ++ texts) (c :: cs)

/-- What may stand between quotes, whatever its numbered escapes are for. -/
inductive IsChars : List Char → Prop where
  | nil : IsChars []
  | plain {c : Char} {cs : List Char} (hc : IsPlain c) (hcs : IsChars cs) : IsChars (c :: cs)
  | short {c d : Char} {cs : List Char} (hd : shortEscape? c = some d) (hcs : IsChars cs) :
      IsChars ('\\' :: c :: cs)
  | numbered {ds cs : List Char} {n : Nat} (hds : Quad ds n) (hcs : IsChars cs) :
      IsChars ('\\' :: 'u' :: (ds ++ cs))

/-! ### Numbers -/

/-- At least one decimal digit. -/
def IsDigits (ds : List Char) : Prop := ds ≠ [] ∧ ∀ d ∈ ds, d.isDigit = true

/-- The whole part of a number, which does not start with a needless zero. -/
def IsWhole (ds : List Char) : Prop := IsDigits ds ∧ (ds.head? = some '0' → ds = ['0'])

/-- A point with digits after it, or nothing. -/
def IsFraction (cs : List Char) : Prop := cs = [] ∨ ∃ ds, IsDigits ds ∧ cs = '.' :: ds

/-- A power of ten, or nothing. -/
def IsExponent (cs : List Char) : Prop :=
  cs = [] ∨ ∃ (mark : Char) (sign ds : List Char), (mark = 'e' ∨ mark = 'E') ∧
    (sign = [] ∨ sign = ['+'] ∨ sign = ['-']) ∧ IsDigits ds ∧ cs = mark :: (sign ++ ds)

/-- A number without its sign. -/
def IsNumeral (cs : List Char) : Prop :=
  ∃ whole fraction exponent : List Char, IsWhole whole ∧ IsFraction fraction ∧
    IsExponent exponent ∧ cs = whole ++ (fraction ++ exponent)

/-! ### Values -/

/-- The words that are values. -/
def literals : List (List Char) :=
  [['n', 'u', 'l', 'l'], ['t', 'r', 'u', 'e'], ['f', 'a', 'l', 's', 'e']]

mutual

/-- A value of any type. -/
inductive IsValue : List Char → Prop where
  | literal {cs : List Char} (hcs : cs ∈ literals) : IsValue cs
  | number {cs : List Char} (hcs : IsNumeral cs) : IsValue cs
  | negative {cs : List Char} (hcs : IsNumeral cs) : IsValue ('-' :: cs)
  | string {cs : List Char} (hcs : IsChars cs) : IsValue ('"' :: (cs ++ ['"']))
  | emptyArray {gap : List Char} (hgap : IsGap gap) : IsValue ('[' :: (gap ++ [']']))
  | array {items : List Char} (hitems : IsItems items) : IsValue ('[' :: (items ++ [']']))
  | emptyObject {gap : List Char} (hgap : IsGap gap) : IsValue ('\x7b' :: (gap ++ ['\x7d']))
  | object {members : List Char} (hmembers : IsMembers members) :
      IsValue ('\x7b' :: (members ++ ['\x7d']))

/-- A value with white space around it. -/
inductive IsElement : List Char → Prop where
  | mk {before text after : List Char} (hbefore : IsGap before) (htext : IsValue text)
      (hafter : IsGap after) : IsElement (before ++ (text ++ after))

/-- At least one value, with commas between two of them. -/
inductive IsItems : List Char → Prop where
  | one {item : List Char} (hitem : IsElement item) : IsItems item
  | cons {item items : List Char} (hitem : IsElement item) (hitems : IsItems items) :
      IsItems (item ++ ',' :: items)

/-- A name, a colon and a value. -/
inductive IsMember : List Char → Prop where
  | mk {before name after value : List Char} (hbefore : IsGap before) (hname : IsChars name)
      (hafter : IsGap after) (hvalue : IsElement value) :
      IsMember (before ++ '"' :: (name ++ '"' :: (after ++ ':' :: value)))

/-- At least one member, with commas between two of them. -/
inductive IsMembers : List Char → Prop where
  | one {member : List Char} (hmember : IsMember member) : IsMembers member
  | cons {member members : List Char} (hmember : IsMember member) (hmembers : IsMembers members) :
      IsMembers (member ++ ',' :: members)

end

/-! ### Objects with their members -/

/-- A member of an object: what its name stands for, and the text of its value. -/
inductive MemberText : List Char → String × List Char → Prop where
  | mk {before written after gap text last : List Char} {name : String} (hbefore : IsGap before)
      (hname : CharsText written name.toList) (hafter : IsGap after) (hgap : IsGap gap)
      (htext : IsValue text) (hlast : IsGap last) :
      MemberText (before ++ '"' :: (written ++ '"' :: (after ++ ':' :: (gap ++ (text ++ last)))))
        (name, text)

/-- At least one member, with commas between two of them. -/
inductive Members : List Char → List (String × List Char) → Prop where
  | one {text : List Char} {m : String × List Char} (hm : MemberText text m) : Members text [m]
  | cons {text texts : List Char} {m : String × List Char} {ms : List (String × List Char)}
      (hm : MemberText text m) (hms : Members texts ms) : Members (text ++ ',' :: texts) (m :: ms)

/-- The text of an object with these members in this order. -/
def IsObject (text : List Char) (ms : List (String × List Char)) : Prop :=
  ∃ before inner after : List Char, IsGap before ∧ IsGap after ∧
    (Members inner ms ∨ IsGap inner ∧ ms = []) ∧
    text = before ++ '\x7b' :: (inner ++ '\x7d' :: after)

/-- The texts of the values that members have for a name, in order. -/
def valuesOf (name : String) (ms : List (String × List Char)) : List (List Char) :=
  (ms.filter fun m => m.1 = name).map (·.2)

theorem valuesOf_cons_self (name : String) (text : List Char) (ms : List (String × List Char)) :
    valuesOf name ((name, text) :: ms) = text :: valuesOf name ms := by
  simp [valuesOf]

theorem valuesOf_cons_of_ne {name other : String} (h : other ≠ name) (text : List Char)
    (ms : List (String × List Char)) :
    valuesOf name ((other, text) :: ms) = valuesOf name ms := by
  simp [valuesOf, h]

/-! ### How texts begin -/

theorem CharText.length_pos {text : List Char} {c : Char} (h : CharText text c) :
    0 < text.length := by
  cases h <;> exact Nat.succ_pos _

theorem isSpace_of_isDigit {c : Char} (hc : c.isDigit = true) : isSpace c = false := by
  have hne : ∀ d : Char, d.isDigit = false → c ≠ d := by
    rintro d hd rfl
    simp [hd] at hc
  simp [isSpace, hne ' ' (by decide), hne '\n' (by decide), hne '\t' (by decide),
    hne '\r' (by decide)]

theorem IsNumeral.exists_cons {cs : List Char} (h : IsNumeral cs) :
    ∃ d ds, cs = d :: ds ∧ d.isDigit = true := by
  obtain ⟨whole, fraction, exponent, ⟨⟨hne, hdigits⟩, -⟩, -, -, rfl⟩ := h
  obtain ⟨d, ds, rfl⟩ := List.exists_cons_of_ne_nil hne
  exact ⟨d, _, rfl, hdigits d List.mem_cons_self⟩

/-- A value begins with a character that is neither a space nor a closing bracket. -/
theorem IsValue.exists_cons {cs : List Char} (h : IsValue cs) :
    ∃ c rest, cs = c :: rest ∧ isSpace c = false ∧ c ≠ ']' := by
  cases h with
  | literal hcs =>
    have hall : ∀ cs ∈ literals, ∃ c rest, cs = c :: rest ∧ isSpace c = false ∧ c ≠ ']' := by
      simp only [literals, List.forall_mem_cons, List.not_mem_nil, false_implies, implies_true,
        and_true]
      exact ⟨⟨_, _, rfl, rfl, by decide⟩, ⟨_, _, rfl, rfl, by decide⟩, ⟨_, _, rfl, rfl, by decide⟩⟩
    exact hall cs hcs
  | number hcs =>
    obtain ⟨d, ds, rfl, hd⟩ := hcs.exists_cons
    refine ⟨d, ds, rfl, isSpace_of_isDigit hd, ?_⟩
    rintro rfl
    exact absurd hd (by decide)
  | negative | string | emptyArray | array | emptyObject | object =>
    exact ⟨_, _, rfl, rfl, by decide⟩

/-! ### What is written is JSON -/

/-- No number is written with a needless zero in front. -/
theorem toDigits_of_head?_zero {n : Nat} (h : (Nat.toDigits 10 n).head? = some '0') :
    Nat.toDigits 10 n = ['0'] := by
  induction n using Nat.strongRecOn with
  | ind n ih =>
    rw [Nat.toDigits_eq_if (by decide)] at h ⊢
    split at h
    · rename_i hn
      rw [if_pos hn]
      exact congrArg (fun c => [c]) (Option.some.inj h)
    · rename_i hn
      -- the digits before the last one are those of a number that is not zero
      rw [List.head?_append, Option.or_eq_some_iff] at h
      have h := h.resolve_right fun hnone => Nat.toDigits_ne_nil (List.head?_eq_none_iff.mp hnone.1)
      have hzero : n / 10 = Nat.ofDigitChars 10 ['0'] 0 := by
        rw [← ih (n / 10) (by omega) h, Nat.ofDigitChars_toDigits (by decide) (by decide)]
      have : n / 10 = 0 := hzero
      omega

theorem isWhole_toDigits (n : Nat) : IsWhole (Nat.toDigits 10 n) :=
  ⟨⟨Nat.toDigits_ne_nil, fun _ hd => Nat.isDigit_of_mem_toDigits (by decide) (by decide) hd⟩,
    toDigits_of_head?_zero⟩

theorem isNumeral_toDigits (n : Nat) : IsNumeral (Nat.toDigits 10 n) :=
  ⟨_, [], [], isWhole_toDigits n, .inl rfl, .inl rfl, by rw [List.append_nil, List.append_nil]⟩

theorem digit?_digitChar : ∀ n < 16, Text.digit? 16 (Nat.digitChar n) = some n := by decide

theorem charText_escape (c : Char) : CharText (escape c) c := by
  unfold escape
  split
  · exact .short rfl
  · exact .short rfl
  · exact .short rfl
  · exact .short rfl
  · exact .short rfl
  · exact .short rfl
  · exact .short rfl
  · rename_i hquote hslash _ _ _ _ _
    split
    · rename_i hc
      have h0 : Text.digit? 16 '0' = some 0 := by decide
      have hquad := Quad.mk h0 h0 (digit?_digitChar (c.toNat / 16) (by omega))
        (digit?_digitChar (c.toNat % 16) (by omega))
      have hvalue : ((0 * 16 + 0) * 16 + c.toNat / 16) * 16 + c.toNat % 16 = c.toNat := by omega
      rw [hvalue] at hquad
      have h := CharText.numbered hquad (.inl (by omega))
      rwa [Char.ofNat_toNat] at h
    · rename_i hc
      exact .plain ⟨hquote, hslash, hc⟩

theorem charsText_flatMap_escape : ∀ cs : List Char, CharsText (cs.flatMap escape) cs
  | [] => .nil
  | c :: cs => .cons (charText_escape c) (charsText_flatMap_escape cs)

theorem CharText.isChars {text rest : List Char} {c : Char} (h : CharText text c)
    (hrest : IsChars rest) : IsChars (text ++ rest) := by
  cases h with
  | plain hc => exact .plain hc hrest
  | short hd => exact .short hd hrest
  | numbered hds _ => exact .numbered hds hrest
  | pair hhs hls _ _ =>
    rw [List.cons_append, List.cons_append, List.append_assoc]
    exact .numbered hhs (.numbered hls hrest)

/-- What stands for characters may stand between quotes. -/
theorem CharsText.isChars {text cs : List Char} (h : CharsText text cs) : IsChars text := by
  induction h with
  | nil => exact .nil
  | cons hc _ ih => exact hc.isChars ih

theorem MemberText.isMember {text : List Char} {m : String × List Char} (h : MemberText text m) :
    IsMember text := by
  obtain ⟨hbefore, hname, hafter, hgap, htext, hlast⟩ := h
  exact .mk hbefore hname.isChars hafter (.mk hgap htext hlast)

/-- Members whose names stand for texts are members. -/
theorem Members.isMembers {text : List Char} {ms : List (String × List Char)}
    (h : Members text ms) : IsMembers text := by
  induction h with
  | one hm => exact .one hm.isMember
  | cons hm _ ih => exact .cons hm.isMember ih

theorem isChars_flatMap_escape (cs : List Char) : IsChars (cs.flatMap escape) :=
  (charsText_flatMap_escape cs).isChars

theorem IsValue.isElement {text : List Char} (h : IsValue text) : IsElement text := by
  have helement := IsElement.mk isGap_nil h isGap_nil
  rwa [List.nil_append, List.append_nil] at helement

theorem isMember_write (name : String) {value : List Char} (h : IsValue value) :
    IsMember (writeString name ++ ':' :: value) := by
  have hmember := IsMember.mk isGap_nil (isChars_flatMap_escape name.toList) isGap_nil h.isElement
  simpa [writeString] using hmember

mutual

/-- **What is written is a JSON value.** -/
theorem isValue_write : ∀ j : Json, IsValue j.write
  | .null => .literal (by simp [write, literals])
  | .bool true => .literal (by simp [write, literals])
  | .bool false => .literal (by simp [write, literals])
  | .nat n => by
    rw [write]
    exact .number (isNumeral_toDigits n)
  | .str s => by
    rw [write]
    exact .string (isChars_flatMap_escape s.toList)
  | .arr [] => .emptyArray isGap_nil
  | .arr (j :: js) => by
    rw [write]
    exact .array (isItems_writeItems (j :: js) (by simp))
  | .obj [] => .emptyObject isGap_nil
  | .obj ((name, j) :: ms) => by
    rw [write]
    exact .object (isMembers_writeMembers ((name, j) :: ms) (by simp))

theorem isItems_writeItems : ∀ js : List Json, js ≠ [] → IsItems (writeItems js)
  | [], hne => absurd rfl hne
  | [j], _ => by
    rw [writeItems]
    exact .one (isValue_write j).isElement
  | j :: k :: js, _ => by
    rw [writeItems]
    exact .cons (isValue_write j).isElement (isItems_writeItems (k :: js) (by simp))

theorem isMembers_writeMembers : ∀ ms : List (String × Json), ms ≠ [] →
    IsMembers (writeMembers ms)
  | [], hne => absurd rfl hne
  | [(name, j)], _ => by
    rw [writeMembers]
    exact .one (isMember_write name (isValue_write j))
  | (name, j) :: m :: ms, _ => by
    have h := IsMembers.cons (isMember_write name (isValue_write j))
      (isMembers_writeMembers (m :: ms) (by simp))
    rw [writeMembers]
    simpa using h

end

theorem memberText_write (name : String) (j : Json) :
    MemberText (writeString name ++ ':' :: j.write) (name, j.write) := by
  have hmember := MemberText.mk isGap_nil (charsText_flatMap_escape name.toList) isGap_nil
    isGap_nil (isValue_write j) isGap_nil
  simpa [writeString] using hmember

/-- What is written for members stands for them, in their order. -/
theorem members_writeMembers : ∀ ms : List (String × Json), ms ≠ [] →
    Members (writeMembers ms) (ms.map fun m => (m.1, m.2.write))
  | [], hne => absurd rfl hne
  | [(name, j)], _ => by
    rw [writeMembers]
    exact .one (memberText_write name j)
  | (name, j) :: m :: ms, _ => by
    have h := Members.cons (memberText_write name j) (members_writeMembers (m :: ms) (by simp))
    rw [writeMembers]
    simpa using h

/-- **What is written for an object is an object with its members.** -/
theorem isObject_write (ms : List (String × Json)) :
    IsObject (Json.obj ms).write (ms.map fun m => (m.1, m.2.write)) := by
  refine ⟨[], writeMembers ms, [], isGap_nil, isGap_nil, ?_, by rw [write, List.nil_append]⟩
  cases ms with
  | nil => exact .inr ⟨isGap_nil, rfl⟩
  | cons m ms => exact .inl (members_writeMembers (m :: ms) (by simp))

end Json
end Teardown
