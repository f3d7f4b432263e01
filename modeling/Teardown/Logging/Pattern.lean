/-
# Patterns

What a log filter may ask of a field's value: to be a number, or to match a
regular expression. A filter that asks for anything else is no filter, so this
module tells which texts are patterns; what one matches is not asked.

An expression is a row of parts, or several rows with bars between them. A part
is a character, a class of characters in brackets, a place, a group in
parentheses, or one of these repeated. A group may have a name of its own and
may change the modes that its parts are read in. Expressions match text: one
that could match the bytes of a character singly is none, and neither is one
that needs to know more of a character than its number, such as whether it is a
letter.

Key definitions: `Pattern.isExpression`, `Pattern.isNumber`, `Pattern.isValid`.
-/
import Teardown.Text.Alphanumeric
import Teardown.Text.Blank
import Teardown.Text.Digits

namespace Teardown
namespace Pattern

/-- How parts of an expression are read. -/
structure Modes where
  /-- Blanks and comments between the parts are passed over. -/
  spaced : Bool := false
  /-- Capital and small letters match each other. -/
  folded : Bool := false
  /-- The units that are matched are characters; without it they are bytes. -/
  wide : Bool := true
  deriving DecidableEq, Repr

/-- What is left of an expression, and what its beginning means for it. -/
structure Source where
  rest : List Char
  modes : Modes := {}
  /-- The names that groups have. -/
  names : List (List Char) := []
  deriving Repr

/-- Takes a piece from the front of an expression. -/
abbrev Reader := StateT Source Option

/-! ### Characters -/

/-- The next character, left in place. -/
def peek : Reader (Option Char) := return (← get).rest.head?

/-- Takes the next character. -/
def next : Reader Char := do
  match (← get).rest with
  | [] => failure
  | c :: rest =>
      modify fun s => { s with rest }
      return c

/-- Takes the next character if it is a certain one. -/
def nextIs (c : Char) : Reader Bool := do
  if (← peek) = some c then
    let _ ← next
    return true
  return false

/-- A text without the blanks and comments at its front. A comment goes from a
number sign to the end of the line. -/
def solid : (comment : Bool) → List Char → List Char
  | _, [] => []
  | true, c :: cs => solid (c != '\n') cs
  | false, c :: cs =>
      if Text.isBlank c then solid false cs else if c = '#' then solid true cs else c :: cs

/-- Takes blanks and comments where they are passed over. -/
def skipBlanks : Reader Unit :=
  modify fun s => if s.modes.spaced then { s with rest := solid false s.rest } else s

/-- Takes the next character that is no blank. -/
def nextSolid : Reader Char := do
  skipBlanks
  next

/-! ### Escapes -/

/-- A part that stands for itself. -/
inductive Atom where
  /-- A character. -/
  | char (c : Char)
  /-- A kind of characters, such as the digits. -/
  | kind
  /-- A place between characters. -/
  | place
  deriving DecidableEq, Repr

/-- Takes a number of hexadecimal digits after those whose value is known. -/
def readCode : (digits value : Nat) → Reader Nat
  | 0, value => return value
  | digits + 1, value => do
      match Text.digit? 16 (← nextSolid) with
      | some d => readCode digits (16 * value + d)
      | none => failure

/-- Takes a character by its number. -/
def readNumbered (digits : Nat) : Reader Char := do
  let n ← readCode digits 0
  guard n.isValidChar
  return Char.ofNat n

/-- The control character that a letter stands for. -/
def control? : Char → Option Char
  | 'a' => some '\x07'
  | 'f' => some '\x0c'
  | 'n' => some '\n'
  | 'r' => some '\r'
  | 't' => some '\t'
  | 'v' => some '\x0b'
  | _ => none

/-- Takes what follows a backslash. Two digits name a byte where bytes are
matched, and it has to be a character on its own. The digits, the blanks, the
letters of words and the borders of words are those of ASCII, and there only
where bytes are matched. No other letter or digit has a meaning. -/
def readEscape : Reader Atom := do
  let wide := (← get).modes.wide
  let c ← next
  if c = 'x' then
    let d ← readNumbered 2
    guard (wide ∨ d.toNat < 0x80)
    return .char d
  else if c = 'u' then return .char (← readNumbered 4)
  else if c = 'U' then return .char (← readNumbered 8)
  else if ['d', 's', 'w'].contains c then
    guard !wide
    return .kind
  else if c = 'A' ∨ c = 'z' then return .place
  else if ['b', 'B', '<', '>'].contains c then
    guard !wide
    return .place
  else
    match control? c with
    | some d => return .char d
    | none =>
        guard (c.toNat < 0x80 ∧ !c.isAlphanum)
        return .char c

/-- Takes what a character that was taken begins. -/
def readAtom (c : Char) : Reader Atom := if c = '\\' then readEscape else return .char c

/-! ### How deep parts nest -/

/-- Levels that the parts of an expression may nest. -/
def nestingLimit : Nat := 250

/-- How deep parts nest that stand side by side; one alone is not a level. -/
def joined : List Nat → Nat
  | [] => 0
  | [depth] => depth
  | depths => depths.foldl max 0 + 1

/-- How deep the two sides of an operator nest, the left one if there is any. -/
def combined (left : Option Nat) (right : List Nat) : Nat :=
  match left with
  | none => joined right
  | some depth => max depth (joined right) + 1

/-! ### Classes -/

/-- Whether a class may hold a character. Bytes are characters of ASCII; and
which characters match each other as capital and small letters is only known of
those. -/
def Modes.admits (m : Modes) (c : Char) : Bool := if m.wide then !m.folded else c.toNat < 0x80

/-- Kinds of characters that a class may name. -/
def kinds : List String :=
  ["alnum", "alpha", "ascii", "blank", "cntrl", "digit", "graph", "lower", "print", "punct",
    "space", "upper", "word", "xdigit"]

/-- Takes the name of a kind between colons, after the bracket that opens it,
and whether it stands for all other characters. -/
def named? : List Char → Option (Bool × List Char)
  | ':' :: cs =>
      let (others, cs) :=
        match cs with
        | '^' :: cs => (true, cs)
        | cs => (false, cs)
      let name := cs.takeWhile (· ≠ ':')
      match cs.drop name.length with
      | ':' :: ']' :: rest =>
          if kinds.contains (String.ofList name) then some (others, rest) else none
      | _ => none
  | _ => none

/-- The character that a hyphen stands before. Where blanks are passed over, so
is the first number sign among them. -/
def afterHyphen (m : Modes) (cs : List Char) : Option Char :=
  if m.spaced then
    match cs.dropWhile Text.isBlank with
    | '#' :: cs => (cs.dropWhile Text.isBlank).head?
    | cs => cs.head?
  else cs.head?

/-- Takes a character or a kind, or a range from one character to another, of
which the first character was taken. A hyphen that ends the class or is doubled
makes no range. -/
def readItem (c : Char) : Reader Unit := do
  let first ← readAtom c
  skipBlanks
  let s ← get
  let range ←
    match s.rest with
    | [] => failure
    | '-' :: rest => pure (!([some ']', some '-'].contains (afterHyphen s.modes rest)))
    | _ => pure false
  if range then
    let _ ← next
    let second ← readAtom (← nextSolid)
    match first, second with
    | .char a, .char b => guard (s.modes.admits a ∧ s.modes.admits b ∧ a ≤ b)
    | _, _ => failure
  else
    match first with
    | .char a => guard (s.modes.admits a)
    | .kind => return
    | .place => failure

/-- Takes the sign of a class of all other characters, if there is one. Bytes
that are no characters are among those. -/
def readNegation : Reader Unit := do
  skipBlanks
  if ← nextIs '^' then guard (← get).modes.wide

/-- Takes the items of a class up to its closing bracket: characters, ranges,
named kinds, classes, and operators with what stands left of them. While the
class is `fresh` hyphens are characters, and so is a closing bracket before any
item. -/
def readItems : (fuel : Nat) → (fresh : Bool) → (left : Option Nat) → List Nat → Reader Nat
  | 0, _, _, _ => failure
  | fuel + 1, fresh, left, items => do
      let c ← nextSolid
      let s ← get
      if fresh && (c = '-' || (c = ']' && items.isEmpty)) then
        guard (s.modes.admits c)
        readItems fuel (c = '-') left (0 :: items)
      else if c = '[' then
        match named? s.rest with
        | some (others, rest) =>
            guard (if s.modes.wide then !s.modes.folded else !others)
            set { s with rest }
            readItems fuel false left (0 :: items)
        | none =>
            readNegation
            let depth ← readItems fuel true none []
            readItems fuel false left (depth :: items)
      else if c = ']' then return combined left items + 1
      else if ['&', '-', '~'].contains c ∧ s.rest.head? = some c then
        let _ ← next
        readItems fuel false (some (combined left items)) []
      else
        readItem c
        readItems fuel false left (0 :: items)

/-! ### Groups -/

/-- Whether a text can name a group. -/
def isName : List Char → Bool
  | [] => false
  | c :: cs =>
      (c = '_' || Text.isAlphabetic c) &&
        cs.all fun c => ['_', '.', '[', ']'].contains c || Text.isAlphanumeric c

/-- Whether letters can change modes: each stands once, as does a hyphen before
those that are turned off. -/
def areFlags (cs : List Char) : Bool :=
  cs.all ['i', 'm', 's', 'U', 'u', 'R', 'x', '-'].contains && decide cs.Nodup &&
    cs.getLast? ≠ some '-'

/-- A mode after flags. -/
def changed (flags : List Char) (flag : Char) (mode : Bool) : Bool :=
  if flags.contains flag then !(flags.takeWhile (· ≠ flag)).contains '-' else mode

/-- The modes after flags. -/
def Modes.change (m : Modes) (flags : List Char) : Modes :=
  { spaced := changed flags 'x' m.spaced,
    folded := changed flags 'i' m.folded,
    wide := changed flags 'u' m.wide }

/-- Takes the name of a group, after the bracket that opens it. No two groups
share one. -/
def readName : Reader Unit := do
  let s ← get
  let name := s.rest.takeWhile (· ≠ '>')
  guard (isName name ∧ name ∉ s.names)
  match s.rest.drop name.length with
  | [] => failure
  | _ :: rest => set { s with rest, names := name :: s.names }

/-- Takes what says how a group is read, after its opening parenthesis. Without
a group to be read, the modes change for what comes next. -/
def readOpening : Reader Bool := do
  skipBlanks
  let s ← get
  match s.rest with
  | '?' :: 'P' :: '<' :: rest | '?' :: '<' :: rest =>
      set { s with rest }
      readName
      return true
  | '?' :: rest =>
      let flags := rest.takeWhile fun c => c ≠ ':' ∧ c ≠ ')'
      guard (areFlags flags)
      let modes := s.modes.change flags
      match rest.drop flags.length with
      | ':' :: rest =>
          set { s with rest, modes }
          return true
      | ')' :: rest =>
          guard (flags ≠ [])
          set { s with rest, modes }
          return false
      | _ => failure
  | _ => return true

/-! ### Expressions -/

/-- How deep the parts of a row nest. -/
def rowDepth (row : List (Option Nat)) : Nat := joined (row.map (·.getD 0))

/-- Takes an expression up to the end or to a closing parenthesis, and tells how
deep it nests. The rows and the parts of the row that were read already are
given by their depths, last first; of what cannot be repeated there is none. -/
def readRows : (fuel : Nat) → (rows : List Nat) → (row : List (Option Nat)) → Reader Nat
  | 0, _, _ => failure
  | fuel + 1, rows, row => do
      skipBlanks
      let m := (← get).modes
      if [none, some ')'].contains (← peek) then return joined (rowDepth row :: rows)
      let c ← next
      if c = '|' then readRows fuel (rowDepth row :: rows) []
      else if c = '(' then
        if ← readOpening then
          let depth ← readRows fuel [] []
          let _ ← next
          modify fun s => { s with modes := m }
          readRows fuel rows (some (depth + 1) :: row)
        else readRows fuel rows (none :: row)
      else if c = '[' then
        readNegation
        let depth ← readItems fuel true none []
        readRows fuel rows (some depth :: row)
      else if ['?', '*', '+'].contains c then
        match row with
        | some depth :: row =>
            let _ ← nextIs '?'
            readRows fuel rows (some (depth + 1) :: row)
        | _ => failure
      else
        if c = '\x7b' then failure
        if c = '.' then guard m.wide
        else if c ≠ '^' ∧ c ≠ '$' then
          match ← readAtom c with
          | .char _ => guard !(m.wide && m.folded)
          | _ => pure ()
        readRows fuel rows (some 0 :: row)

/-- Whether a text is a regular expression. -/
def isExpression (cs : List Char) : Bool :=
  match (readRows (cs.length + 1) [] []).run { rest := cs } with
  | some (depth, s) => s.rest.isEmpty && decide (depth ≤ nestingLimit)
  | none => false

/-! ### Numbers -/

/-- Whether a text is a decimal number without a sign: digits with or without a
point, with or without a power of ten; or what there is instead of a number. -/
def isNumber (cs : List Char) : Bool :=
  let whole := cs.takeWhile Char.isDigit
  let rest := cs.drop whole.length
  let fraction :=
    match rest with
    | '.' :: rest => rest.takeWhile Char.isDigit
    | _ => []
  let rest :=
    match rest with
    | '.' :: rest => rest.drop fraction.length
    | _ => rest
  let power :=
    match rest with
    | [] => true
    | e :: rest =>
        let digits :=
          match rest with
          | '+' :: digits | '-' :: digits => digits
          | _ => rest
        (e = 'e' || e = 'E') && !digits.isEmpty && digits.all Char.isDigit
  (!(whole ++ fraction).isEmpty && power) ||
    [['i', 'n', 'f'], ['i', 'n', 'f', 'i', 'n', 'i', 't', 'y'], ['n', 'a', 'n']].contains
      (cs.map Char.toLower)

/-- Whether a text is a pattern. A number without a plus sign is an expression
as well. -/
def isValid (cs : List Char) : Bool :=
  match cs with
  | '+' :: number => isNumber number
  | _ => isExpression cs

end Pattern
end Teardown
