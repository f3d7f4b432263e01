/-
# Quoted text

Text as it is shown in descriptions: between double quotes, with a backslash
before a quote or a backslash, short escapes for the common controls and a
numbered escape for every other character that would not print as itself.

Key definitions: `escape`, `quote`.
-/
import Teardown.Text.Graphic

namespace Teardown
namespace Text

/-- The numbered escape: the code point in lowercase hexadecimal, in braces. -/
def numberedEscape (c : Char) : List Char :=
  '\\' :: 'u' :: '\x7b' :: (Nat.toDigits 16 c.toNat ++ ['\x7d'])

/-- A character as it stands between quotes. -/
def escape (c : Char) : List Char :=
  match c with
  | '\x00' => ['\\', '0']
  | '\t' => ['\\', 't']
  | '\r' => ['\\', 'r']
  | '\n' => ['\\', 'n']
  | '\\' => ['\\', '\\']
  | '"' => ['\\', '"']
  | c => if isGraphic c then [c] else numberedEscape c

/-- A text between double quotes. -/
def quote (s : String) : String :=
  String.ofList ('"' :: (s.toList.flatMap escape ++ ['"']))

/-- Printing characters other than the quote and the backslash stand as they are. -/
theorem escape_of_isGraphic {c : Char} (h : isGraphic c = true) (hq : c ≠ '"') (hb : c ≠ '\\') :
    escape c = [c] := by
  unfold escape
  split <;> simp_all [isGraphic]

end Text
end Teardown
