/-
# JSON values and their text

The values that this library writes as JSON, with numbers restricted to the
natural ones, and their text: compact, or over lines with two more spaces for
each level. Members keep the order they are given in.

Between quotes, only the quote, the backslash and the control characters are
escaped; everything else stands as it is.

Key definitions: `Json`, `Json.escape`, `Json.write`, `Json.writeSpread`.
-/

namespace Teardown

/-- A JSON value. -/
inductive Json where
  | null
  | bool (b : Bool)
  | nat (n : Nat)
  | str (s : String)
  | arr (items : List Json)
  | obj (members : List (String × Json))
  deriving Repr

namespace Json

/-- A character as it stands between quotes. -/
def escape (c : Char) : List Char :=
  match c with
  | '"' => ['\\', '"']
  | '\\' => ['\\', '\\']
  | '\x08' => ['\\', 'b']
  | '\x0c' => ['\\', 'f']
  | '\n' => ['\\', 'n']
  | '\r' => ['\\', 'r']
  | '\t' => ['\\', 't']
  | c =>
      if c.toNat < 0x20 then
        ['\\', 'u', '0', '0', Nat.digitChar (c.toNat / 16), Nat.digitChar (c.toNat % 16)]
      else [c]

/-- A text between quotes. -/
def writeString (s : String) : List Char :=
  '"' :: (s.toList.flatMap escape ++ ['"'])

mutual

/-- The compact text of a value. -/
def write : Json → List Char
  | .null => ['n', 'u', 'l', 'l']
  | .bool true => ['t', 'r', 'u', 'e']
  | .bool false => ['f', 'a', 'l', 's', 'e']
  | .nat n => Nat.toDigits 10 n
  | .str s => writeString s
  | .arr items => '[' :: (writeItems items ++ [']'])
  | .obj members => '\x7b' :: (writeMembers members ++ ['\x7d'])

/-- Items with a comma between two of them. -/
def writeItems : List Json → List Char
  | [] => []
  | [j] => j.write
  | j :: k :: rest => j.write ++ ',' :: writeItems (k :: rest)

/-- Members with a comma between two of them. -/
def writeMembers : List (String × Json) → List Char
  | [] => []
  | [(name, j)] => writeString name ++ ':' :: j.write
  | (name, j) :: m :: rest =>
      writeString name ++ ':' :: (j.write ++ ',' :: writeMembers (m :: rest))

end

/-- The compact text of a value. -/
def compact (j : Json) : String := String.ofList j.write

/-! ### Text over several lines -/

/-- The start of a line at a level. -/
def newline (level : Nat) : List Char := '\n' :: List.replicate (2 * level) ' '

mutual

/-- The text of a value over several lines, of which the first starts where
the text stands. -/
def writeSpread (level : Nat) : Json → List Char
  | .arr (j :: rest) =>
      '[' :: (newline (level + 1) ++ j.writeSpread (level + 1) ++ spreadItems (level + 1) rest ++
        newline level ++ [']'])
  | .obj ((name, j) :: rest) =>
      '\x7b' :: (newline (level + 1) ++ writeString name ++ [':', ' '] ++
        j.writeSpread (level + 1) ++ spreadMembers (level + 1) rest ++ newline level ++ ['\x7d'])
  | .arr [] => ['[', ']']
  | .obj [] => ['\x7b', '\x7d']
  | .null => write .null
  | .bool b => write (.bool b)
  | .nat n => write (.nat n)
  | .str s => write (.str s)

/-- Further items, each after a comma and on a line of its own. -/
def spreadItems (level : Nat) : List Json → List Char
  | [] => []
  | j :: rest => ',' :: (newline level ++ j.writeSpread level ++ spreadItems level rest)

/-- Further members, each after a comma and on a line of its own. -/
def spreadMembers (level : Nat) : List (String × Json) → List Char
  | [] => []
  | (name, j) :: rest =>
      ',' :: (newline level ++ writeString name ++ [':', ' '] ++ j.writeSpread level ++
        spreadMembers level rest)

end

/-- The text of a value over several lines. -/
def spread (j : Json) : String := String.ofList (j.writeSpread 0)

end Json
end Teardown
