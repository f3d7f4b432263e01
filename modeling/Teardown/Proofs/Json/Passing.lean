/-
# What is passed over

A value that is not looked at may be any that the grammar allows, of any size and
depth. A number ends only where the text does not go on with it, so that what is
read of a value is said of texts that go on with something else.

Key definitions: `Json.Apart`, `Json.ReadsApart`, `Json.PassesGap`.
Key theorems: `Json.run_readNumeral`, `Json.run_skipValue`.
-/
import Teardown.Proofs.Json.Reading

namespace Teardown
namespace Json

variable {α β : Type}

/-! ### White space in front -/

/-- White space in front makes no difference to the reader. -/
def PassesGap (read : Reader α) : Prop :=
  ∀ gap cs : List Char, IsGap gap → read.run (gap ++ cs) = read.run cs

theorem PassesGap.bind {read : Reader α} {next : α → Reader β} (h : PassesGap read) :
    PassesGap (read >>= next) := by
  intro gap cs hgap
  rw [StateT.run_bind, h gap cs hgap, ← StateT.run_bind]

theorem passesGap_peekSolid : PassesGap peekSolid := by
  intro gap cs hgap
  have hdrop : (gap ++ cs).dropWhile isSpace = cs.dropWhile isSpace :=
    List.dropWhile_append_of_pos hgap
  simp only [peekSolid, StateT.run, hdrop]

theorem passesGap_readColon : PassesGap readColon := passesGap_peekSolid.bind

theorem passesGap_readBool : PassesGap readBool := passesGap_peekSolid.bind

theorem passesGap_readNatural : PassesGap readNatural := passesGap_peekSolid.bind

theorem passesGap_skipValueIn : ∀ within : List Char, PassesGap (skipValueIn within)
  | [] => fun _ _ _ => rfl
  | _ :: _ => by
    rw [skipValueIn]
    exact passesGap_peekSolid.bind

theorem passesGap_skipItems : ∀ within : List Char, PassesGap (skipItems within)
  | [] => fun _ _ _ => rfl
  | _ :: _ => by
    rw [skipItems]
    exact passesGap_peekSolid.bind

theorem passesGap_skipMembers : ∀ within : List Char, PassesGap (skipMembers within)
  | [] => fun _ _ _ => rfl
  | _ :: _ => by
    rw [skipMembers]
    exact passesGap_peekSolid.bind

/-! ### Where a number ends -/

/-- A number would not go on with the text. -/
def Apart (rest : List Char) : Prop :=
  ∀ c ∈ rest.head?, c.isDigit = false ∧ c ≠ '.' ∧ c ≠ 'e' ∧ c ≠ 'E'

theorem apart_comma (cs : List Char) : Apart (',' :: cs) := by
  intro c hc
  obtain rfl : ',' = c := Option.some.inj hc
  decide

theorem apart_bracket (cs : List Char) : Apart (']' :: cs) := by
  intro c hc
  obtain rfl : ']' = c := Option.some.inj hc
  decide

theorem apart_brace (cs : List Char) : Apart ('\x7d' :: cs) := by
  intro c hc
  obtain rfl : '\x7d' = c := Option.some.inj hc
  decide

theorem Apart.gap {gap rest : List Char} (hgap : IsGap gap) (hrest : Apart rest) :
    Apart (gap ++ rest) := by
  cases gap with
  | nil => exact hrest
  | cons c gap =>
    intro d hd
    obtain rfl : c = d := Option.some.inj hd
    have hspace : isSpace c = true := hgap c List.mem_cons_self
    simp only [isSpace, Bool.or_eq_true, decide_eq_true_eq] at hspace
    rcases hspace with ((rfl | rfl) | rfl) | rfl <;> decide

/-- The reader takes `text` off whatever begins with it and goes on with something
that is no part of a number, and takes it for `a`. -/
def ReadsApart (read : Reader α) (text : List Char) (a : α) : Prop :=
  ∀ rest, Apart rest → read.run (text ++ rest) = .ok (a, rest)

theorem Reads.apart {read : Reader α} {text : List Char} {a : α} (h : Reads read text a) :
    ReadsApart read text a := fun rest _ => h rest

theorem ReadsApart.bind_pure {read : Reader α} {next : α → Reader β} {text : List Char} {a : α}
    {b : β} (h : ReadsApart read text a) (hnext : next a = pure b) :
    ReadsApart (read >>= next) text b := by
  intro rest hrest
  rw [run_bind_of_ok (h rest hrest), hnext]
  rfl

/-! ### Numbers -/

theorem run_peek (cs : List Char) : peek.run cs = .ok (cs.head?, cs) := rfl

/-- Digits are taken up to something else. -/
theorem run_readDigits {ds rest : List Char} (hds : ∀ d ∈ ds, d.isDigit = true)
    (hrest : ∀ c ∈ rest.head?, c.isDigit = false) :
    readDigits.run (ds ++ rest) = .ok (ds, rest) := by
  have htake : rest.takeWhile Char.isDigit = [] ∧ rest.dropWhile Char.isDigit = rest := by
    cases rest with
    | nil => exact ⟨rfl, rfl⟩
    | cons c rest => simp [hrest c rfl]
  simp only [readDigits, StateT.run, List.takeWhile_append_of_pos hds,
    List.dropWhile_append_of_pos hds, htake, List.append_nil]

theorem run_readWhole {whole rest : List Char} (h : IsWhole whole)
    (hrest : ∀ c ∈ rest.head?, c.isDigit = false) (atEnd : Fault) :
    (readWhole atEnd).run (whole ++ rest) = .ok (whole, rest) := by
  obtain ⟨⟨hne, hdigits⟩, hzero⟩ := h
  have hread := run_readDigits hdigits hrest
  obtain ⟨d, ds, rfl⟩ := List.exists_cons_of_ne_nil hne
  have hd := hdigits d List.mem_cons_self
  have hneedless : ¬ (d = '0' ∧ (d :: ds).length ≠ 1) := by
    rintro ⟨rfl, hlen⟩
    rw [hzero rfl] at hlen
    exact hlen rfl
  rw [readWhole, run_bind_of_ok (run_peek _)]
  simp only [List.cons_append, List.head?_cons]
  rw [← List.cons_append, run_bind_of_ok hread]
  simp only [hd, Bool.true_eq_false, if_false, if_neg hneedless]
  rfl

theorem run_readSomeDigits {ds rest : List Char} (h : IsDigits ds)
    (hrest : ∀ c ∈ rest.head?, c.isDigit = false) (atEnd : Fault) :
    (readSomeDigits atEnd).run (ds ++ rest) = .ok (ds, rest) := by
  have hempty : ds.isEmpty = false := by simpa using h.1
  rw [readSomeDigits, run_bind_of_ok (run_readDigits h.2 hrest)]
  simp only [hempty, Bool.false_eq_true, if_false]
  rfl

theorem IsExponent.head? {cs rest : List Char} (h : IsExponent cs) (hrest : Apart rest) :
    ∀ c ∈ (cs ++ rest).head?, c.isDigit = false ∧ c ≠ '.' := by
  intro c hc
  rcases h with rfl | ⟨mark, sign, ds, hmark, -, -, rfl⟩
  · exact ⟨(hrest c hc).1, (hrest c hc).2.1⟩
  · obtain rfl : mark = c := Option.some.inj hc
    rcases hmark with rfl | rfl <;> decide

/-- A number without its sign is read as a whole. -/
theorem run_readNumeral {whole fraction exponent rest : List Char} (hwhole : IsWhole whole)
    (hfraction : IsFraction fraction) (hexponent : IsExponent exponent) (hrest : Apart rest)
    (atEnd : Fault) : ∃ n : Numeral,
      (readNumeral atEnd).run (whole ++ (fraction ++ (exponent ++ rest))) = .ok (n, rest) ∧
        (fraction = [] → exponent = [] → n = { whole }) := by
  have hafter := hexponent.head? hrest
  have hread : (readWhole atEnd).run (whole ++ (fraction ++ (exponent ++ rest))) =
      .ok (whole, fraction ++ (exponent ++ rest)) := by
    refine run_readWhole hwhole (fun c hc => ?_) atEnd
    rcases hfraction with rfl | ⟨ds, -, rfl⟩
    · exact (hafter c hc).1
    · obtain rfl : '.' = c := Option.some.inj hc
      decide
  rw [readNumeral, run_bind_of_ok hread]
  extract_lets noFraction plus minus afterFraction
  -- whatever the fraction was, the power of ten is read in the same way
  have hlast : ∀ part : Option (List Char), ∃ n : Numeral,
      (afterFraction () part).run (exponent ++ rest) = .ok (n, rest) ∧
        (exponent = [] → n = { whole, fraction := part }) := by
    intro part
    simp only [afterFraction]
    rcases hexponent with rfl | ⟨mark, sign, ds, hmark, hsign, hds, rfl⟩
    · refine ⟨{ whole, fraction := part }, ?_, fun _ => rfl⟩
      rw [List.nil_append, run_bind_of_ok (run_peek rest)]
      cases hhead : rest.head? with
      | none => rfl
      | some c =>
        obtain ⟨-, -, he, hE⟩ := hrest c hhead
        simp only [he, hE, or_self, if_false]
        rfl
    · have hdigits := run_readSomeDigits hds (fun c hc => (hrest c hc).1) atEnd
      rw [List.cons_append, run_bind_of_ok (run_peek _)]
      simp only [List.head?_cons, if_pos hmark]
      rw [run_bind_of_ok (run_advance _ _), List.append_assoc]
      simp only [reduceCtorEq, false_implies, and_true]
      rcases hsign with rfl | rfl | rfl
      · obtain ⟨d, ds, rfl⟩ := List.exists_cons_of_ne_nil hds.1
        have hd := hds.2 d List.mem_cons_self
        refine ⟨{ whole, fraction := part, exponent := some (digitsValue (d :: ds)) }, ?_⟩
        rw [List.nil_append, run_bind_of_ok (run_peek _)]
        simp only [List.cons_append, List.head?_cons]
        split
        · rename_i hsign
          obtain rfl := Option.some.inj hsign
          exact absurd hd (by decide)
        · rename_i hsign
          obtain rfl := Option.some.inj hsign
          exact absurd hd (by decide)
        · rw [← List.cons_append, run_bind_of_ok hdigits]
          rfl
      · refine ⟨{ whole, fraction := part, exponent := some (digitsValue ds) }, ?_⟩
        rw [List.singleton_append, run_bind_of_ok (run_peek _)]
        simp only [List.head?_cons]
        rw [run_bind_of_ok (run_advance _ _), run_bind_of_ok hdigits]
        rfl
      · refine ⟨{ whole, fraction := part, exponent := some (-digitsValue ds) }, ?_⟩
        rw [List.singleton_append, run_bind_of_ok (run_peek _)]
        simp only [List.head?_cons]
        rw [run_bind_of_ok (run_advance _ _), run_bind_of_ok hdigits]
        rfl
  rcases hfraction with rfl | ⟨ds, hds, rfl⟩
  · obtain ⟨n, hn, heq⟩ := hlast none
    refine ⟨n, ?_, fun _ => heq⟩
    rw [List.nil_append, run_bind_of_ok (run_peek _), if_neg]
    · exact hn
    · intro hpoint
      exact (hafter '.' hpoint).2 rfl
  · obtain ⟨n, hn, -⟩ := hlast (some ds)
    refine ⟨n, ?_, by simp⟩
    have hdigits := run_readSomeDigits hds (fun c hc => (hafter c hc).1) atEnd
    rw [List.cons_append, run_bind_of_ok (run_peek _), List.head?_cons, if_pos rfl,
      run_bind_of_ok (run_advance _ _), run_bind_of_ok hdigits]
    exact hn

theorem IsNumeral.run_readNumeral {cs rest : List Char} (h : IsNumeral cs) (hrest : Apart rest)
    (atEnd : Fault) : ∃ n, (readNumeral atEnd).run (cs ++ rest) = .ok (n, rest) := by
  obtain ⟨whole, fraction, exponent, hwhole, hfraction, hexponent, rfl⟩ := h
  obtain ⟨n, hn, -⟩ := Json.run_readNumeral hwhole hfraction hexponent hrest atEnd
  exact ⟨n, by rw [List.append_assoc, List.append_assoc, hn]⟩

/-- What is written for a natural number below the bound is read as that number. -/
theorem readsApart_readNatural {n : Nat} (hn : n < naturalBound) :
    ReadsApart readNatural (Nat.toDigits 10 n) n := by
  intro rest hrest
  obtain ⟨numeral, hread, hwhole⟩ := run_readNumeral (isWhole_toDigits n) (.inl rfl) (.inl rfl)
    hrest .ended
  obtain rfl := hwhole rfl rfl
  rw [List.nil_append, List.nil_append] at hread
  have hnatural : Numeral.natural? { whole := Nat.toDigits 10 n } = some n := by
    have hvalue : digitsValue (Nat.toDigits 10 n) = n :=
      Nat.ofDigitChars_toDigits (by decide) (by decide)
    simp only [Numeral.natural?, hvalue, if_pos hn]
  obtain ⟨d, ds, hdigits, hd⟩ := (isNumeral_toDigits n).exists_cons
  have hminus : d ≠ '-' := by
    rintro rfl
    exact absurd hd (by decide)
  have hpeek : peekSolid.run (Nat.toDigits 10 n ++ rest) =
      .ok (some d, Nat.toDigits 10 n ++ rest) := by
    rw [hdigits]
    exact run_peekSolid (isSpace_of_isDigit hd) _
  rw [readNatural, run_bind_of_ok hpeek]
  simp only [if_neg hminus, hd, if_true]
  rw [readNumber, bind_assoc, run_bind_of_ok hread]
  simp only [hnatural]
  rfl

/-! ### Strings and names -/

/-- Characters between quotes are passed over up to the closing quote, within any text
that is longer than they are. -/
theorem run_skipChars {body : List Char} (h : IsChars body) (rest : List Char) :
    ∀ within : List Char, body.length < within.length →
      ∃ cs, (readChars skipEscape within).run (body ++ '"' :: rest) = .ok (cs, rest) := by
  induction h with
  | nil =>
    intro within hlen
    obtain ⟨w, within, rfl⟩ := List.exists_cons_of_length_pos hlen
    exact ⟨[], rfl⟩
  | plain hc _ ih =>
    intro within hlen
    obtain ⟨w, within, rfl⟩ := List.exists_cons_of_length_pos (Nat.zero_lt_of_lt hlen)
    obtain ⟨cs, hcs⟩ := ih within (by simpa using hlen)
    exact ⟨_, run_readChars_plain hc hcs⟩
  | @short c d body hd _ ih =>
    intro within hlen
    obtain ⟨w, within, rfl⟩ := List.exists_cons_of_length_pos (Nat.zero_lt_of_lt hlen)
    obtain ⟨cs, hcs⟩ := ih within (by simp at hlen; omega)
    have hc : c ≠ 'u' := by
      rintro rfl
      cases hd
    rw [List.cons_append, List.cons_append]
    refine ⟨_, run_readChars_escape (c := d) ?_ hcs⟩
    rw [skipEscape, run_bind_of_ok (run_next _ _), if_neg hc, hd]
    rfl
  | numbered hds _ ih =>
    intro within hlen
    obtain ⟨w, within, rfl⟩ := List.exists_cons_of_length_pos (Nat.zero_lt_of_lt hlen)
    obtain ⟨cs, hcs⟩ := ih within (by simp at hlen; omega)
    rw [List.cons_append, List.cons_append, List.append_assoc]
    refine ⟨_, run_readChars_escape (c := 'u') ?_ hcs⟩
    rw [skipEscape, run_bind_of_ok (run_next _ _), if_pos rfl,
      run_bind_of_ok (run_readHex hds _)]
    rfl

theorem reads_skipString {body : List Char} (h : IsChars body) :
    Reads skipString (body ++ ['"']) () := by
  intro rest
  obtain ⟨cs, hcs⟩ := run_skipChars h rest (body ++ '"' :: rest) (by simp)
  rw [List.append_assoc, List.singleton_append, skipString, run_bind_of_ok (run_get _),
    run_bind_of_ok hcs]
  rfl

theorem run_readColon {before : List Char} (hbefore : IsGap before) (cs : List Char) :
    readColon.run (before ++ ':' :: cs) = .ok ((), cs) := by
  rw [passesGap_readColon _ _ hbefore, readColon, run_bind_of_ok (run_peekSolid rfl _)]
  rfl

/-- A name and its colon, with white space around the name. -/
theorem run_skipName {before name after : List Char} (hbefore : IsGap before)
    (hname : IsChars name) (hafter : IsGap after) (cs : List Char) :
    skipName.run (before ++ '"' :: (name ++ '"' :: (after ++ ':' :: cs))) = .ok ((), cs) := by
  have hstring := reads_skipString hname (after ++ ':' :: cs)
  rw [List.append_assoc, List.singleton_append] at hstring
  have hpasses : PassesGap skipName := passesGap_peekSolid.bind
  rw [hpasses _ _ hbefore, skipName, run_bind_of_ok (run_peekSolid rfl _)]
  simp only
  rw [run_bind_of_ok (run_advance _ _), run_bind_of_ok hstring]
  exact run_readColon hafter cs

/-! ### Values -/

/-- Values that are not longer than a text are passed over within it. -/
def SkipsValues (within : List Char) : Prop :=
  ∀ text, IsValue text → text.length ≤ within.length → ReadsApart (skipValueIn within) text ()

/-- Further items that are shorter than a text are passed over within it. -/
def SkipsItems (within : List Char) : Prop :=
  ∀ items, IsItems items → items.length < within.length →
    Reads (skipItems within) (',' :: (items ++ [']'])) ()

/-- Further members that are shorter than a text are passed over within it. -/
def SkipsMembers (within : List Char) : Prop :=
  ∀ members, IsMembers members → members.length < within.length →
    Reads (skipMembers within) (',' :: (members ++ ['\x7d'])) ()

section

variable {within rest : List Char}

theorem IsElement.length_pos {element : List Char} (h : IsElement element) :
    0 < element.length := by
  obtain ⟨-, htext, -⟩ := h
  obtain ⟨c, cs, rfl, -, -⟩ := htext.exists_cons
  simp only [List.length_append, List.length_cons]
  omega

/-- Of a value with white space around it, that after it is left. -/
theorem SkipsValues.element (hvalues : SkipsValues within) {element : List Char}
    (h : IsElement element) (hlen : element.length ≤ within.length) (hrest : Apart rest) :
    ∃ gap, IsGap gap ∧
      (skipValueIn within).run (element ++ rest) = .ok ((), gap ++ rest) := by
  obtain ⟨hbefore, htext, hafter⟩ := h
  rename_i before text after
  refine ⟨after, hafter, ?_⟩
  rw [List.append_assoc, passesGap_skipValueIn within _ _ hbefore, List.append_assoc]
  refine hvalues text htext ?_ (after ++ rest) (hrest.gap hafter)
  simp only [List.length_append] at hlen
  omega

theorem run_skipItems_close (hlen : 0 < within.length) :
    (skipItems within).run (']' :: rest) = .ok ((), rest) := by
  obtain ⟨w, within, rfl⟩ := List.exists_cons_of_length_pos hlen
  rw [skipItems, run_bind_of_ok (run_peekSolid rfl _)]
  rfl

theorem run_skipMembers_close (hlen : 0 < within.length) :
    (skipMembers within).run ('\x7d' :: rest) = .ok ((), rest) := by
  obtain ⟨w, within, rfl⟩ := List.exists_cons_of_length_pos hlen
  rw [skipMembers, run_bind_of_ok (run_peekSolid rfl _)]
  rfl

/-- The items of an array up to its closing bracket. -/
theorem run_skipItems_first (hvalues : SkipsValues within) (hitems : SkipsItems within)
    {items : List Char} (h : IsItems items) (hlen : items.length ≤ within.length)
    (rest : List Char) :
    (do skipValueIn within; skipItems within : Reader Unit).run (items ++ ']' :: rest) =
      .ok ((), rest) := by
  cases h with
  | one hitem =>
    obtain ⟨gap, hgap, hrun⟩ := hvalues.element hitem hlen (apart_bracket rest)
    rw [run_bind_of_ok hrun, passesGap_skipItems within _ _ hgap,
      run_skipItems_close (Nat.lt_of_lt_of_le hitem.length_pos hlen)]
  | @cons item items hitem hmore =>
    rw [List.length_append, List.length_cons] at hlen
    obtain ⟨gap, hgap, hrun⟩ := hvalues.element hitem (by omega)
      (apart_comma (items ++ ']' :: rest))
    have hnext := hitems items hmore (by omega) rest
    rw [List.cons_append, List.append_assoc, List.singleton_append] at hnext
    rw [List.append_assoc, List.cons_append, run_bind_of_ok hrun,
      passesGap_skipItems within _ _ hgap, hnext]

/-- The members of an object up to its closing brace. -/
theorem run_skipMembers_first (hvalues : SkipsValues within) (hmembers : SkipsMembers within)
    {members : List Char} (h : IsMembers members) (hlen : members.length ≤ within.length)
    (rest : List Char) :
    (do skipName; skipValueIn within; skipMembers within : Reader Unit).run
      (members ++ '\x7d' :: rest) = .ok ((), rest) := by
  cases h with
  | one hmember =>
    obtain ⟨hbefore, hname, hafter, hvalue⟩ := hmember
    simp only [List.length_append, List.length_cons] at hlen
    obtain ⟨gap, hgap, hrun⟩ := hvalues.element hvalue (by omega) (apart_brace rest)
    simp only [List.append_assoc, List.cons_append]
    rw [run_bind_of_ok (run_skipName hbefore hname hafter _), run_bind_of_ok hrun,
      passesGap_skipMembers within _ _ hgap, run_skipMembers_close (by omega)]
  | @cons member members hmember hmore =>
    obtain ⟨hbefore, hname, hafter, hvalue⟩ := hmember
    simp only [List.length_append, List.length_cons] at hlen
    obtain ⟨gap, hgap, hrun⟩ := hvalues.element hvalue (by omega)
      (apart_comma (members ++ '\x7d' :: rest))
    have hnext := hmembers members hmore (by omega) rest
    rw [List.cons_append, List.append_assoc, List.singleton_append] at hnext
    simp only [List.append_assoc, List.cons_append]
    rw [run_bind_of_ok (run_skipName hbefore hname hafter _), run_bind_of_ok hrun,
      passesGap_skipMembers within _ _ hgap, hnext]

end

/-- Items begin, after white space, with no closing bracket. -/
theorem IsItems.exists_solid {items : List Char} (h : IsItems items) :
    ∃ (gap : List Char) (c : Char) (cs : List Char), items = gap ++ c :: cs ∧ IsGap gap ∧
      isSpace c = false ∧ c ≠ ']' := by
  have helement : ∀ {element : List Char} (more : List Char), IsElement element →
      ∃ (gap : List Char) (c : Char) (cs : List Char), element ++ more = gap ++ c :: cs ∧
        IsGap gap ∧ isSpace c = false ∧ c ≠ ']' := by
    rintro element more ⟨hbefore, htext, -⟩
    obtain ⟨c, cs, rfl, hspace, hclose⟩ := htext.exists_cons
    exact ⟨_, c, _, by rw [List.append_assoc, List.append_assoc, List.cons_append], hbefore,
      hspace, hclose⟩
  cases h with
  | one hitem =>
    have h := helement [] hitem
    rwa [List.append_nil] at h
  | cons hitem _ => exact helement _ hitem

/-- Members begin, after white space, with a quote. -/
theorem IsMembers.exists_quote {members : List Char} (h : IsMembers members) :
    ∃ gap cs : List Char, members = gap ++ '"' :: cs ∧ IsGap gap := by
  cases h with
  | one hmember =>
    obtain ⟨hbefore, -, -, -⟩ := hmember
    exact ⟨_, _, rfl, hbefore⟩
  | cons hmember _ =>
    obtain ⟨hbefore, -, -, -⟩ := hmember
    exact ⟨_, _, by rw [List.append_assoc, List.cons_append], hbefore⟩

/-- An array with items is passed over within one more character than they are. -/
theorem run_skipValueIn_array {within items : List Char} (hvalues : SkipsValues within)
    (hitems : SkipsItems within) (h : IsItems items) (hlen : items.length ≤ within.length)
    (w : Char) (rest : List Char) :
    (skipValueIn (w :: within)).run ('[' :: (items ++ ']' :: rest)) = .ok ((), rest) := by
  have hrun := run_skipItems_first hvalues hitems h hlen rest
  obtain ⟨gap, c, cs, rfl, hgap, hspace, hclose⟩ := h.exists_solid
  rw [List.append_assoc, List.cons_append] at hrun ⊢
  have hpeek := (passesGap_peekSolid _ _ hgap).trans (run_peekSolid hspace (cs ++ ']' :: rest))
  rw [(passesGap_skipValueIn within).bind _ _ hgap] at hrun
  rw [skipValueIn, run_bind_of_ok (run_peekSolid rfl _)]
  simp only [Char.reduceEq, Char.reduceIsDigit, Bool.false_eq_true, if_true, if_false]
  rw [run_bind_of_ok (run_advance _ _), run_bind_of_ok hpeek, if_neg (by simpa using hclose)]
  exact hrun

/-- An object with members is passed over within one more character than they are. -/
theorem run_skipValueIn_object {within members : List Char} (hvalues : SkipsValues within)
    (hmembers : SkipsMembers within) (h : IsMembers members)
    (hlen : members.length ≤ within.length) (w : Char) (rest : List Char) :
    (skipValueIn (w :: within)).run ('\x7b' :: (members ++ '\x7d' :: rest)) = .ok ((), rest) := by
  have hrun := run_skipMembers_first hvalues hmembers h hlen rest
  have hpasses : PassesGap skipName := passesGap_peekSolid.bind
  obtain ⟨gap, cs, rfl, hgap⟩ := h.exists_quote
  rw [List.append_assoc, List.cons_append] at hrun ⊢
  have hpeek := (passesGap_peekSolid _ _ hgap).trans
    (run_peekSolid (c := '"') rfl (cs ++ '\x7d' :: rest))
  rw [hpasses.bind _ _ hgap] at hrun
  rw [skipValueIn, run_bind_of_ok (run_peekSolid rfl _)]
  simp only [Char.reduceEq, Char.reduceIsDigit, Bool.false_eq_true, if_true, if_false]
  rw [run_bind_of_ok (run_advance _ _), run_bind_of_ok hpeek, if_neg (by decide)]
  exact hrun

/-- A value is passed over within one more character than the values in it. -/
theorem skipsValues_cons {within : List Char} (hvalues : SkipsValues within)
    (hitems : SkipsItems within) (hmembers : SkipsMembers within) (w : Char) :
    SkipsValues (w :: within) := by
  intro text h hlen rest hrest
  have hclose : ∀ {c : Char} {cs : List Char}, IsGap cs → isSpace c = false →
      peekSolid.run (cs ++ c :: rest) = .ok (some c, c :: rest) :=
    fun hgap hc => (passesGap_peekSolid _ _ hgap).trans (run_peekSolid hc rest)
  cases h with
  | literal hcs =>
    simp only [literals, List.mem_cons, List.not_mem_nil, or_false] at hcs
    rcases hcs with rfl | rfl | rfl
    · rw [List.cons_append, skipValueIn, run_bind_of_ok (run_peekSolid rfl _)]
      simp only [Char.reduceEq, if_true]
      rw [run_bind_of_ok (run_advance _ _), reads_readWord _ rest]
    · rw [List.cons_append, skipValueIn, run_bind_of_ok (run_peekSolid rfl _)]
      simp only [Char.reduceEq, if_true, if_false]
      rw [run_bind_of_ok (run_advance _ _), reads_readWord _ rest]
    · rw [List.cons_append, skipValueIn, run_bind_of_ok (run_peekSolid rfl _)]
      simp only [Char.reduceEq, if_true, if_false]
      rw [run_bind_of_ok (run_advance _ _), reads_readWord _ rest]
  | number hcs =>
    obtain ⟨n, hn⟩ := hcs.run_readNumeral hrest .malformed
    obtain ⟨d, ds, rfl, hd⟩ := hcs.exists_cons
    have hne : ∀ c : Char, c.isDigit = false → d ≠ c := by
      rintro c hc rfl
      simp [hc] at hd
    rw [List.cons_append] at hn ⊢
    rw [skipValueIn, run_bind_of_ok (run_peekSolid (isSpace_of_isDigit hd) _)]
    simp only [hne 'n' (by decide), hne 't' (by decide), hne 'f' (by decide), hne '-' (by decide),
      hd, if_true, if_false]
    rw [run_bind_of_ok hn]
    rfl
  | negative hcs =>
    obtain ⟨n, hn⟩ := hcs.run_readNumeral hrest .malformed
    rw [List.cons_append, skipValueIn, run_bind_of_ok (run_peekSolid rfl _)]
    simp only [Char.reduceEq, if_true, if_false]
    rw [run_bind_of_ok (run_advance _ _), run_bind_of_ok hn]
    rfl
  | string hcs =>
    rw [List.cons_append, skipValueIn, run_bind_of_ok (run_peekSolid rfl _)]
    simp only [Char.reduceEq, Char.reduceIsDigit, Bool.false_eq_true, if_true, if_false]
    rw [run_bind_of_ok (run_advance _ _)]
    exact reads_skipString hcs rest
  | emptyArray hgap =>
    rw [List.cons_append, List.append_assoc, List.singleton_append, skipValueIn,
      run_bind_of_ok (run_peekSolid rfl _)]
    simp only [Char.reduceEq, Char.reduceIsDigit, Bool.false_eq_true, if_true, if_false]
    rw [run_bind_of_ok (run_advance _ _), run_bind_of_ok (hclose hgap rfl)]
    rfl
  | array hcs =>
    simp only [List.length_append, List.length_cons] at hlen
    rw [List.cons_append, List.append_assoc, List.singleton_append]
    exact run_skipValueIn_array hvalues hitems hcs (by omega) w rest
  | emptyObject hgap =>
    rw [List.cons_append, List.append_assoc, List.singleton_append, skipValueIn,
      run_bind_of_ok (run_peekSolid rfl _)]
    simp only [Char.reduceEq, Char.reduceIsDigit, Bool.false_eq_true, if_true, if_false]
    rw [run_bind_of_ok (run_advance _ _), run_bind_of_ok (hclose hgap rfl)]
    rfl
  | object hcs =>
    simp only [List.length_append, List.length_cons] at hlen
    rw [List.cons_append, List.append_assoc, List.singleton_append]
    exact run_skipValueIn_object hvalues hmembers hcs (by omega) w rest

theorem skipsItems_cons {within : List Char} (hvalues : SkipsValues within)
    (hitems : SkipsItems within) (w : Char) : SkipsItems (w :: within) := by
  intro items h hlen rest
  rw [List.length_cons] at hlen
  have hrun := run_skipItems_first hvalues hitems h (by omega) rest
  rw [List.cons_append, List.append_assoc, List.singleton_append, skipItems,
    run_bind_of_ok (run_peekSolid rfl _)]
  simp only
  rw [run_bind_of_ok (run_advance _ _)]
  exact hrun

theorem skipsMembers_cons {within : List Char} (hvalues : SkipsValues within)
    (hmembers : SkipsMembers within) (w : Char) : SkipsMembers (w :: within) := by
  intro members h hlen rest
  rw [List.length_cons] at hlen
  have hrun := run_skipMembers_first hvalues hmembers h (by omega) rest
  rw [List.cons_append, List.append_assoc, List.singleton_append, skipMembers,
    run_bind_of_ok (run_peekSolid rfl _)]
  simp only
  rw [run_bind_of_ok (run_advance _ _)]
  exact hrun

/-- By induction on the text that bounds the steps. -/
theorem skips_within : ∀ within : List Char,
    SkipsValues within ∧ SkipsItems within ∧ SkipsMembers within
  | [] => by
    refine ⟨fun text h hlen => ?_, fun _ _ hlen => absurd hlen (Nat.not_lt_zero _),
      fun _ _ hlen => absurd hlen (Nat.not_lt_zero _)⟩
    obtain ⟨c, cs, rfl, -, -⟩ := h.exists_cons
    exact absurd hlen (Nat.not_succ_le_zero _)
  | w :: within => by
    obtain ⟨hvalues, hitems, hmembers⟩ := skips_within within
    exact ⟨skipsValues_cons hvalues hitems hmembers w, skipsItems_cons hvalues hitems w,
      skipsMembers_cons hvalues hmembers w⟩

/-- **Any value is passed over**, with the white space in front of it. -/
theorem run_skipValue {gap text rest : List Char} (hgap : IsGap gap) (h : IsValue text)
    (hrest : Apart rest) : skipValue.run (gap ++ (text ++ rest)) = .ok ((), rest) := by
  obtain ⟨hvalues, -, -⟩ := skips_within (gap ++ (text ++ rest))
  rw [skipValue, run_bind_of_ok (run_get _), passesGap_skipValueIn _ _ _ hgap]
  refine hvalues text h ?_ rest hrest
  simp only [List.length_append]
  omega

end Json
end Teardown
