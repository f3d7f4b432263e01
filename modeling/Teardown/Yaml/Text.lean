/-
# YAML text

YAML text as its readers see it: every character with its line and its column,
and all line breaks alike.

Key definitions: `Yaml.Glyph`, `Yaml.Text`, `Yaml.Text.ofString?`.
-/

namespace Teardown
namespace Yaml

/-- A character at its place. -/
structure Glyph where
  line : Nat
  column : Nat
  char : Char
  deriving DecidableEq, Repr

/-- Text, or what is left of one. -/
abbrev Text := List Glyph

/-! ### From strings -/

/-- Whether a character may stand in YAML text. -/
def isAllowed (c : Char) : Bool :=
  let n := c.toNat
  n == 0x09 || n == 0x0A || n == 0x0D || (0x20 ≤ n && n ≤ 0x7E) || n == 0x85 ||
    (0xA0 ≤ n && n ≠ 0xFFFE && n ≠ 0xFFFF)

/-- One line feed for every line break. -/
def unifyBreaks : List Char → List Char
  | '\r' :: '\n' :: rest => '\n' :: unifyBreaks rest
  | c :: rest =>
      (if c = '\r' ∨ c.toNat = 0x85 ∨ c.toNat = 0x2028 ∨ c.toNat = 0x2029 then '\n' else c) ::
        unifyBreaks rest
  | [] => []

/-- Characters at their places, of which the first has the given one. -/
def placed (line column : Nat) : List Char → Text
  | [] => []
  | c :: rest =>
      ⟨line, column, c⟩ ::
        if c = '\n' then placed (line + 1) 0 rest else placed line (column + 1) rest

/-- A string as its readers see it, if every character is allowed. -/
def Text.ofString? (s : String) : Option Text :=
  if s.toList.all isAllowed then some (placed 0 0 (unifyBreaks s.toList)) else none

/-! ### What stands next -/

def isBlank (c : Char) : Bool := c = ' ' || c = '\t'

/-- Whether a character may stand in the name of an anchor or a handle. -/
def isNameChar (c : Char) : Bool := c.isAlphanum || c = '_' || c = '-'

namespace Text

/-- The characters of a text. -/
def chars (t : Text) : List Char := t.map (·.char)

/-- The next character. -/
def next? (t : Text) : Option Char := t.head?.map (·.char)

/-- Whether a word ends here. -/
def endsWord (t : Text) : Bool := t.next?.all fun c => isBlank c || c = '\n'

/-- Whether the line ends here. -/
def endsLine (t : Text) : Bool := t.next?.all (· = '\n')

/-- Whether three of the same character stand at the start of a line on their own. -/
def atThree (c : Char) : Text → Bool
  | ⟨_, 0, c₁⟩ :: ⟨_, _, c₂⟩ :: ⟨_, _, c₃⟩ :: rest => c₁ = c && c₂ = c && c₃ = c && endsWord rest
  | _ => false

/-- Whether the marker of a document's start or end stands here. -/
def atMarker (t : Text) : Bool := t.atThree '-' || t.atThree '.'

/-- What follows the blanks on the line. -/
def dropBlanks (t : Text) : Text := t.dropWhile fun g => isBlank g.char

/-- The rest of the line. -/
def takeLine (t : Text) : Text := t.takeWhile (·.char ≠ '\n')

/-- What follows the rest of the line, from its line break on. -/
def dropLine (t : Text) : Text := t.dropWhile (·.char ≠ '\n')

/-- What follows the characters of a name here, and the name. -/
def name (t : Text) : List Char × Text :=
  (chars (t.takeWhile fun g => isNameChar g.char), t.dropWhile fun g => isNameChar g.char)

end Text
end Yaml
end Teardown
