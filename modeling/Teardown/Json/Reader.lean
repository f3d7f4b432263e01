/-
# Reading JSON text

A reader takes what it wants from the front of a text and leaves the rest.
Reading is typed: a reader knows what it expects, and the first thing that
goes against it, in reading order, is the fault that is reported. There are
three faults: the text ends too early, the text is malformed, or it is well
formed but of another type.

Nesting that readers follow is bounded by `nestingLimit`; values that are
skipped may nest as they like.

Key definitions: `Json.Fault`, `Json.Reader`, `Json.readString`,
`Json.readNatural`, `Json.skipValue`, `Json.readRecord`, `Json.readList`,
`Json.readName`, `Json.decode`.
-/
import Teardown.Text.Digits

namespace Teardown
namespace Json

/-- What a reader can run into. -/
inductive Fault where
  /-- The text ends too early. -/
  | ended
  /-- The text breaks the rules of JSON. -/
  | malformed
  /-- The text is well formed but not what is expected. -/
  | mismatch
  deriving DecidableEq, Repr

/-- Takes a value from the front of a text. -/
abbrev Reader := StateT (List Char) (Except Fault)

/-- Levels of arrays and objects that a reader follows. -/
def nestingLimit : Nat := 127

/-! ### Characters -/

def isSpace (c : Char) : Bool := c = ' ' || c = '\n' || c = '\t' || c = '\r'

/-- The next character, left in place. -/
def peek : Reader (Option Char) := fun cs => .ok (cs.head?, cs)

/-- The next character that is no space, left in place. -/
def peekSolid : Reader (Option Char) := fun cs =>
  let rest := cs.dropWhile isSpace
  .ok (rest.head?, rest)

/-- Takes the next character. -/
def advance : Reader Unit := fun cs => .ok ((), cs.tail)

/-- Takes the letters of a word. -/
def readWord : List Char → Reader Unit
  | [] => pure ()
  | expected :: word => fun cs =>
      match cs with
      | [] => .error .ended
      | c :: rest => if c = expected then readWord word rest else .error .malformed

/-! ### Strings -/

/-- Takes the four digits of a numbered escape. Fewer than four bytes of text
are a text that ends too early. -/
def readHex : Reader Nat := fun cs =>
  match (cs.take 4).mapM (Text.digit? 16) with
  | some [a, b, c, d] => .ok (((a * 16 + b) * 16 + c) * 16 + d, cs.drop 4)
  | _ =>
      if (cs.take 4).foldr (fun c n => c.utf8Size + n) 0 < 4 then .error .ended
      else .error .malformed

/-- The character of a short escape. -/
def shortEscape? : Char → Option Char
  | '"' => some '"'
  | '\\' => some '\\'
  | '/' => some '/'
  | 'b' => some '\x08'
  | 'f' => some '\x0c'
  | 'n' => some '\n'
  | 'r' => some '\r'
  | 't' => some '\t'
  | _ => none

/-- Takes one character, or the end of the text is a fault. -/
def next : Reader Char := fun cs =>
  match cs with
  | [] => .error .ended
  | c :: rest => .ok (c, rest)

/-- Takes the digits of a numbered escape and, if they are the first half of a
surrogate pair, the escape of the second half. A half on its own is malformed. -/
def readNumbered : Reader Char := do
  let high ← readHex
  if 0xDC00 ≤ high ∧ high ≤ 0xDFFF then throw .malformed
  if high < 0xD800 ∨ 0xDBFF < high then return Char.ofNat high
  if (← next) ≠ '\\' then throw .malformed
  if (← next) ≠ 'u' then throw .malformed
  let low ← readHex
  if low < 0xDC00 ∨ 0xDFFF < low then throw .malformed
  return Char.ofNat (0x10000 + (high - 0xD800) * 0x400 + (low - 0xDC00))

/-- Takes what stands after a backslash. -/
def readEscape : Reader Char := do
  let c ← next
  if c = 'u' then readNumbered
  else
    match shortEscape? c with
    | some d => return d
    | none => throw .malformed

/-- Takes an escape without asking what it stands for. -/
def skipEscape : Reader Char := do
  let c ← next
  if c = 'u' then
    let _ ← readHex
    return c
  else
    match shortEscape? c with
    | some d => return d
    | none => throw .malformed

/-- Takes the characters of a string up to its closing quote, with `escape` for
what follows a backslash. They lie within a text that bounds their number. -/
def readChars (escape : Reader Char) : (within : List Char) → Reader (List Char)
  | [] => throw .ended
  | _ :: within => do
      let c ← next
      if c = '"' then return []
      else if c = '\\' then
        let d ← escape
        return d :: (← readChars escape within)
      else if c.toNat < 0x20 then throw .malformed
      else return c :: (← readChars escape within)

/-- Takes the rest of a string after its opening quote. -/
def readString : Reader String := do
  return String.ofList (← readChars readEscape (← get))

/-- Takes the rest of a string without asking what its escapes stand for. -/
def skipString : Reader Unit := do
  let _ ← readChars skipEscape (← get)

/-! ### Numbers

A number is read as a significand and a power of ten. The significand takes
digits as long as it stays below `naturalBound`; of the digits that it does not
take, those before the point count for the power and the others not at all. -/

/-- Takes the digits at the front. -/
def readDigits : Reader (List Char) := fun cs =>
  .ok (cs.takeWhile Char.isDigit, cs.dropWhile Char.isDigit)

/-- The number that decimal digits denote. -/
def digitsValue (ds : List Char) : Nat := Nat.ofDigitChars 10 ds 0

/-- Takes the whole part of a number: a zero, or digits that start with none. -/
def readWhole (atEnd : Fault) : Reader (List Char) := do
  match ← peek with
  | none => throw atEnd
  | some c =>
      let ds ← readDigits
      if c.isDigit = false then throw .malformed
      if c = '0' ∧ ds.length ≠ 1 then throw .malformed
      return ds

/-- Takes at least one digit. -/
def readSomeDigits (atEnd : Fault) : Reader (List Char) := do
  let ds ← readDigits
  if ds.isEmpty then
    match ← peek with
    | none => throw atEnd
    | some _ => throw .malformed
  return ds

/-- The parts of a number's text: the digits before and after the point, and
the exponent. -/
structure Numeral where
  whole : List Char
  fraction : Option (List Char) := none
  exponent : Option Int := none
  deriving Repr

/-- Takes a number without its sign. A number that breaks off is the fault
`atEnd`. -/
def readNumeral (atEnd : Fault) : Reader Numeral := do
  let whole ← readWhole atEnd
  let mut fraction := none
  if (← peek) = some '.' then
    advance
    fraction := some (← readSomeDigits atEnd)
  match ← peek with
  | some c =>
      if c = 'e' ∨ c = 'E' then
        advance
        let mut negative := false
        match ← peek with
        | some '+' => advance
        | some '-' => advance; negative := true
        | _ => pure ()
        let n : Int := digitsValue (← readSomeDigits atEnd)
        return { whole, fraction, exponent := some (if negative then -n else n) }
      else return { whole, fraction }
  | none => return { whole, fraction }

/-- The bound below which a natural number is read as such. -/
def naturalBound : Nat := Nat.pow 2 64

/-- Adds digits to a significand while it stays below the bound, and gives the
digits that are left. -/
def gather (significand : Nat) : List Char → Nat × List Char
  | [] => (significand, [])
  | d :: ds =>
      let next := 10 * significand + (d.toNat - '0'.toNat)
      if next < naturalBound then gather next ds else (significand, d :: ds)

/-- The significand of a number and its power of ten. -/
def Numeral.scaled (n : Numeral) : Nat × Int :=
  let fraction := n.fraction.getD []
  let (whole, beyond) := gather 0 n.whole
  let (significand, unused) := gather whole fraction
  (significand, beyond.length - (fraction.length - unused.length : Nat) + n.exponent.getD 0)

/-- The nearest natural number with at most 53 binary digits before its zeros; a
tie goes to the even one. -/
def nearestDouble (n : Nat) : Nat :=
  let unit := Nat.pow 2 (n.log2 - 52)
  let low := n / unit
  let rest := n % unit
  if 2 * rest < unit ∨ (2 * rest = unit ∧ low % 2 = 0) then low * unit else (low + 1) * unit

/-- The smallest number that is rounded beyond the double-precision ones. -/
def doubleRange : Nat := Nat.pow 2 1024 - Nat.pow 2 970

/-- Whether a number is beyond the range of double precision, to which its
significand and its power of ten are rounded before they are multiplied. -/
def Numeral.outOfRange (n : Numeral) : Bool :=
  let (significand, power) := n.scaled
  if significand = 0 ∨ power < 0 then false
  else if 308 < power then true
  else decide (doubleRange ≤ nearestDouble significand * nearestDouble (Nat.pow 10 power.toNat))

/-- The natural number that a numeral is, when it is one without point and
exponent and below the bound. -/
def Numeral.natural? (n : Numeral) : Option Nat :=
  match n.fraction, n.exponent with
  | none, none =>
      let value := digitsValue n.whole
      if value < naturalBound then some value else none
  | _, _ => none

/-- Takes a number that starts with a digit or, when `negative`, whose sign was
taken. Its value if that is natural; a number out of range is malformed. -/
def readNumber (negative : Bool) : Reader (Option Nat) := do
  let n ← readNumeral .ended
  match n.natural? with
  | some value => return if negative then none else some value
  | none => if n.outOfRange then throw .malformed else return none

/-! ### Values that are not looked at -/

/-- Takes the colon between a name and its value. -/
def readColon : Reader Unit := do
  match ← peekSolid with
  | none => throw .ended
  | some ':' => advance
  | some _ => throw .malformed

/-- Takes a member's name and the colon after it. -/
def skipName : Reader Unit := do
  match ← peekSolid with
  | none => throw .ended
  | some '"' => advance
  | some _ => throw .malformed
  skipString
  readColon

mutual

/-- Takes a value of any type that lies within a text: every step takes at least
one character of it. -/
def skipValueIn : (within : List Char) → Reader Unit
  | [] => throw .ended
  | _ :: within => do
      match ← peekSolid with
      | none => throw .ended
      | some c =>
          if c = 'n' then advance; readWord ['u', 'l', 'l']
          else if c = 't' then advance; readWord ['r', 'u', 'e']
          else if c = 'f' then advance; readWord ['a', 'l', 's', 'e']
          else if c = '-' then advance; let _ ← readNumeral .malformed
          else if c.isDigit then let _ ← readNumeral .malformed
          else if c = '"' then advance; skipString
          else if c = '[' then
            advance
            if (← peekSolid) = some ']' then advance
            else
              skipValueIn within
              skipItems within
          else if c = '\x7b' then
            advance
            if (← peekSolid) = some '\x7d' then advance
            else
              skipName
              skipValueIn within
              skipMembers within
          else throw .malformed

/-- Takes the rest of an array after an item. -/
def skipItems : (within : List Char) → Reader Unit
  | [] => throw .ended
  | _ :: within => do
      match ← peekSolid with
      | none => throw .ended
      | some ',' =>
          advance
          skipValueIn within
          skipItems within
      | some ']' => advance
      | some _ => throw .malformed

/-- Takes the rest of an object after a member. -/
def skipMembers : (within : List Char) → Reader Unit
  | [] => throw .ended
  | _ :: within => do
      match ← peekSolid with
      | none => throw .ended
      | some ',' =>
          advance
          skipName
          skipValueIn within
          skipMembers within
      | some '\x7d' => advance
      | some _ => throw .malformed

end

/-- Takes a value of any type. -/
def skipValue : Reader Unit := do skipValueIn (← get)

/-! ### Typed values -/

/-- What to report at a value of another type than expected: the value is
still read as far as its type, so that it may turn out malformed first. -/
def refuse {α : Type} : Reader α := do
  match ← peekSolid with
  | none => throw .ended
  | some c =>
      if c = 'n' then advance; readWord ['u', 'l', 'l']; throw .mismatch
      else if c = 't' then advance; readWord ['r', 'u', 'e']; throw .mismatch
      else if c = 'f' then advance; readWord ['a', 'l', 's', 'e']; throw .mismatch
      else if c = '-' then advance; let _ ← readNumber true; throw .mismatch
      else if c.isDigit then let _ ← readNumber false; throw .mismatch
      else if c = '"' then advance; let _ ← readString; throw .mismatch
      else if c = '[' ∨ c = '\x7b' then throw .mismatch
      else throw .malformed

/-- Takes a string. -/
def readText : Reader String := do
  match ← peekSolid with
  | some '"' => advance; readString
  | _ => refuse

/-- Takes a truth value. -/
def readBool : Reader Bool := do
  match ← peekSolid with
  | some 't' => advance; readWord ['r', 'u', 'e']; return true
  | some 'f' => advance; readWord ['a', 'l', 's', 'e']; return false
  | _ => refuse

/-- Takes a natural number below the bound. -/
def readNatural : Reader Nat := do
  match ← peekSolid with
  | none => throw .ended
  | some c =>
      if c = '-' then advance; let _ ← readNumber true; throw .mismatch
      else if c.isDigit then
        match ← readNumber false with
        | some n => return n
        | none => throw .mismatch
      else refuse

/-- Takes one of the names that `ofName?` knows, on its own or, where
`nested` permits an object, as an object's only member, whose value is null. -/
def readName {α : Type} (ofName? : String → Option α) (nested : Bool) : Reader α := do
  match ← peekSolid with
  | none => throw .ended
  | some '"' =>
      let s ← readText
      match ofName? s with
      | some a => return a
      | none => throw .mismatch
  | some '\x7b' =>
      if nested = false then throw .malformed
      advance
      match ← peekSolid with
      | none => throw .ended
      | some '"' => pure ()
      | some _ => throw .malformed
      let s ← readText
      match ofName? s with
      | none => throw .mismatch
      | some a =>
          match ← peekSolid with
          | none => throw .ended
          | some ':' => advance
          | some _ => throw .malformed
          match ← peekSolid with
          | some 'n' => advance; readWord ['u', 'l', 'l']
          | _ => refuse
          match ← peekSolid with
          | none => throw .ended
          | some '\x7d' => advance; return a
          | some _ => throw .malformed
  | some _ => throw .malformed

/-- Takes the items of an array up to its closing bracket, within a text that
bounds their number. After the first item, `later` holds and a comma comes
before the next. -/
def readItems {α : Type} (item : Reader α) :
    (within : List Char) → (later : Bool) → Reader (List α)
  | [], _ => throw .ended
  | _ :: within, later => do
      match ← peekSolid with
      | none => throw .ended
      | some c =>
          if c = ']' then advance; return []
          else
            if later then
              if c ≠ ',' then throw .malformed
              advance
              match ← peekSolid with
              | none => throw .ended
              | some d => if d = ']' then throw .malformed
            let a ← item
            return a :: (← readItems item within true)

/-- Takes an array of items; without a reader for them none may be opened here. -/
def readList {α : Type} (item : Option (Reader α)) : Reader (List α) := do
  match ← peekSolid with
  | some '[' =>
      match item with
      | none => throw .malformed
      | some item =>
          advance
          readItems item (← get) false
  | _ => refuse

/-! ### Records

A record is an object with named members, of which those with unknown names
are skipped, or an array of its fields in order, of which the last ones may be
missing. -/

/-- A field of a record that is being read as a `σ`. -/
structure Field (σ : Type) where
  name : String
  /-- Whether the field was given before. -/
  given : σ → Bool
  read : σ → Reader σ

/-- Takes the members of an object up to its closing brace, within a text that
bounds their number. -/
def readMembers {σ : Type} (fields : List (Field σ)) :
    (within : List Char) → (later : Bool) → σ → Reader σ
  | [], _, _ => throw .ended
  | _ :: within, later, s => do
      match ← peekSolid with
      | none => throw .ended
      | some c =>
          if c = '\x7d' then advance; return s
          else
            if later then
              if c ≠ ',' then throw .malformed
              advance
            match ← peekSolid with
            | none => throw .ended
            | some '"' => advance
            | some _ => throw .malformed
            let name ← readString
            match fields.find? fun f => f.name = name with
            | some f =>
                if f.given s then throw .mismatch
                readColon
                readMembers fields within true (← f.read s)
            | none =>
                readColon
                skipValue
                readMembers fields within true s

/-- Takes a record's fields in order, as the items of an array, and leaves the
closing bracket. -/
def readTuple {σ : Type} : List (Field σ) → (later : Bool) → σ → Reader σ
  | [], _, s => return s
  | f :: fields, later, s => do
      match ← peekSolid with
      | none => throw .ended
      | some c =>
          if c = ']' then return s
          else
            if later then
              if c ≠ ',' then throw .malformed
              advance
              match ← peekSolid with
              | none => throw .ended
              | some d => if d = ']' then throw .malformed
            readTuple fields true (← f.read s)

/-- Takes a record; without fields none may be opened here. What was given is
checked by `finish`, and only then whether an array ends there. -/
def readRecord {σ α : Type} (fields : Option (List (Field σ))) (start : σ)
    (finish : σ → Except Fault α) : Reader α := do
  match ← peekSolid with
  | some '\x7b' =>
      match fields with
      | none => throw .malformed
      | some fields =>
          advance
          finish (← readMembers fields (← get) false start)
  | some '[' =>
      match fields with
      | none => throw .malformed
      | some fields =>
          advance
          let a ← finish (← readTuple fields false start)
          match ← peekSolid with
          | none => throw .ended
          | some ']' => advance; return a
          | some _ => throw .malformed
  | _ => refuse

/-- Reads a whole text: one value and nothing after it but spaces. -/
def decode {α : Type} (read : Reader α) (text : String) : Except Fault α := do
  let (a, rest) ← read text.toList
  if (rest.dropWhile isSpace).isEmpty then return a else throw .malformed

end Json
end Teardown
