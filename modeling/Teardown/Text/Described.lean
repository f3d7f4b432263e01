/-
# Descriptions

The shape of a value's description for programmers: an atom, a named wrapper
around one value, a record of named fields, or a list. A description is
written on one line, or spread over lines with four more spaces for each
level and a comma after every item.

Key definitions: `Described`, `Described.line`, `Described.spread`.
-/
import Teardown.Text.Quoted

namespace Teardown

/-- A value as it is described. -/
inductive Described where
  /-- Text that stands as it is. -/
  | atom (text : String)
  /-- A name and one value in parentheses. -/
  | wrapper (name : String) (inner : Described)
  /-- A name and fields in braces. -/
  | record (name : String) (fields : List (String × Described))
  /-- Items in brackets. -/
  | list (items : List Described)

namespace Described

/-- A text, quoted. -/
def text (s : String) : Described := .atom (Text.quote s)

/-- A number in decimal. -/
def number (n : Nat) : Described := .atom (toString n)

/-- A truth value. -/
def flag (b : Bool) : Described := .atom (if b then "true" else "false")

/-- A value that may be missing. -/
def optional : Option Described → Described
  | none => .atom "None"
  | some d => .wrapper "Some" d

mutual

/-- The description on one line. -/
def line : Described → String
  | .atom text => text
  | .wrapper name inner => name ++ "(" ++ inner.line ++ ")"
  | .record name fields => name ++ " \x7b " ++ lineFields fields ++ " \x7d"
  | .list items => "[" ++ lineItems items ++ "]"

/-- Items with a comma between two of them. -/
def lineItems : List Described → String
  | [] => ""
  | [d] => d.line
  | d :: e :: rest => d.line ++ ", " ++ lineItems (e :: rest)

/-- Fields with a comma between two of them. -/
def lineFields : List (String × Described) → String
  | [] => ""
  | [(name, d)] => name ++ ": " ++ d.line
  | (name, d) :: f :: rest => name ++ ": " ++ d.line ++ ", " ++ lineFields (f :: rest)

end

mutual

/-- The description over several lines, the first of which starts where the
text stands and the others after `margin`. -/
def spread (margin : String) : Described → String
  | .atom text => text
  | .wrapper name inner =>
      name ++ "(\n" ++ margin ++ "    " ++ inner.spread (margin ++ "    ") ++ ",\n" ++ margin ++ ")"
  | .record name fields =>
      name ++ " \x7b\n" ++ spreadFields (margin ++ "    ") fields ++ margin ++ "\x7d"
  | .list [] => "[]"
  | .list (d :: rest) =>
      "[\n" ++ margin ++ "    " ++ d.spread (margin ++ "    ") ++ ",\n" ++
        spreadItems (margin ++ "    ") rest ++ margin ++ "]"

/-- Items, each on lines of its own. -/
def spreadItems (margin : String) : List Described → String
  | [] => ""
  | d :: rest => margin ++ d.spread margin ++ ",\n" ++ spreadItems margin rest

/-- Fields, each on lines of its own. -/
def spreadFields (margin : String) : List (String × Described) → String
  | [] => ""
  | (name, d) :: rest => margin ++ name ++ ": " ++ d.spread margin ++ ",\n" ++ spreadFields margin rest

end

end Described
end Teardown
