/-
# YAML scalars

The texts that a document holds, as they are written: plain, between quotes, or
as a block of lines. A plain scalar ends where the text goes on with an
indicator or at too small a column; a quoted one at its quote; a block scalar
with the lines that are indented.

Key definitions: `Yaml.Style`, `Yaml.plain`, `Yaml.quoted`, `Yaml.block`.
-/
import Teardown.Text.Digits
import Teardown.Yaml.Text

namespace Teardown
namespace Yaml

/-- How a scalar is written. -/
inductive Style where
  | plain
  | quoted
  /-- A block whose line breaks are kept. -/
  | literal
  /-- A block whose lines are joined. -/
  | folded
  deriving DecidableEq, Repr

/-! ### Gaps -/

/-- Where a scalar stands between two words: the spaces since the last one, and
the line breaks. -/
structure Gap where
  spaces : List Char := []
  breaks : Nat := 0
  /-- Whether an escaped line break joins what stands before and after it. -/
  joined : Bool := false

/-- Whether a gap leads to a later line. -/
def Gap.crossed (g : Gap) : Bool := g.joined || g.breaks ≠ 0

/-- A gap and one more character of it. -/
def Gap.add (g : Gap) (c : Char) : Gap :=
  if c = '\n' then { g with breaks := g.breaks + 1 } else { g with spaces := c :: g.spaces }

/-- What a gap is read as: one line break is a space, of more one is left out. -/
def Gap.chars (g : Gap) : List Char :=
  if g.joined then List.replicate g.breaks '\n'
  else
    match g.breaks with
    | 0 => g.spaces.reverse
    | 1 => [' ']
    | n + 1 => List.replicate n '\n'

/-! ### Plain scalars -/

def flowIndicators : List Char := [',', '[', ']', '\x7b', '\x7d']

def indicators : List Char :=
  flowIndicators ++ ['#', '&', '*', '!', '|', '>', '\'', '"', '%', '@', '\x60']

/-- Whether a plain scalar can start here. -/
def startsPlain (inFlow : Bool) : Text → Bool
  | [] => false
  | ⟨_, _, c⟩ :: rest =>
      if c = '-' then !(Text.next? rest).any isBlank
      else if c = '?' || c = ':' then !inFlow && !Text.endsWord rest
      else !isBlank c && c ≠ '\n' && !indicators.contains c

/-- Whether a plain scalar that is under way ends before a character, of which
`rest` follows. -/
def endsPlain (inFlow : Bool) (c : Char) (rest : Text) : Bool :=
  (c = ':' && Text.endsWord rest) || (inFlow && flowIndicators.contains c)

/-- Takes the words of a plain scalar, the lines after the first of which stand
at the column `least` or further. In flow a colon before an indicator is
refused. Gives the characters, the text that follows the gap after the last
word, and whether that gap leads to a later line. -/
def plainFrom (inFlow : Bool) (least : Nat) (gap : Gap) : Text → Option (List Char × Text × Bool)
  | [] => some ([], [], gap.crossed)
  | ⟨line, column, c⟩ :: rest =>
      if c = '\t' && gap.crossed && column < least then none
      else if isBlank c || c = '\n' then plainFrom inFlow least (gap.add c) rest
      else if gap.crossed &&
          ((!inFlow && column < least) || Text.atMarker (⟨line, column, c⟩ :: rest)) then
        some ([], ⟨line, column, c⟩ :: rest, true)
      else if c = '#' && (gap.crossed || !gap.spaces.isEmpty) then
        some ([], ⟨line, column, c⟩ :: rest, gap.crossed)
      else if inFlow && c = ':' && (Text.next? rest).any ('?' :: flowIndicators).contains then none
      else if endsPlain inFlow c rest then some ([], ⟨line, column, c⟩ :: rest, gap.crossed)
      else
        match plainFrom inFlow least {} rest with
        | none => none
        | some (cs, after) => some (gap.chars ++ c :: cs, after)

/-- Takes a plain scalar. -/
def plain (inFlow : Bool) (least : Nat) (t : Text) : Option (String × Text × Bool) :=
  (plainFrom inFlow least {} t).map fun (cs, after) => (String.ofList cs, after)

/-! ### Quoted scalars -/

/-- The character of an escape of one letter between double quotes. -/
def escaped? : Char → Option Char
  | '0' => some '\x00'
  | 'a' => some '\x07'
  | 'b' => some '\x08'
  | 't' => some '\t'
  | '\t' => some '\t'
  | 'n' => some '\n'
  | 'v' => some '\x0b'
  | 'f' => some '\x0c'
  | 'r' => some '\r'
  | 'e' => some '\x1b'
  | ' ' => some ' '
  | '"' => some '"'
  | '/' => some '/'
  | '\\' => some '\\'
  | 'N' => some '\u0085'
  | '_' => some '\u00a0'
  | 'L' => some '\u2028'
  | 'P' => some '\u2029'
  | _ => none

/-- The number of digits of a numbered escape. -/
def escapeDigits? : Char → Option Nat
  | 'x' => some 2
  | 'u' => some 4
  | 'U' => some 8
  | _ => none

/-- The character with a number, if there is one. -/
def character? (n : Nat) : Option Char :=
  if n.isValidChar then some (Char.ofNat n) else none

/-- Takes what follows a backslash between double quotes, on the same line. -/
def escape : Text → Option (Char × Text)
  | [] => none
  | ⟨_, _, c⟩ :: rest =>
      match escapeDigits? c with
      | some n =>
          let ds := Text.chars (rest.take n)
          if ds.length = n then
            ((Text.natural? 16 0x110000 ds).bind character?).map fun d => (d, rest.drop n)
          else none
      | none => (escaped? c).map fun d => (d, rest)

/-- Takes a scalar up to its closing quote. -/
def quotedFrom (mark : Char) : (fuel : Nat) → Gap → Text → Option (List Char × Text)
  | 0, _, _ => none
  | _, _, [] => none
  | fuel + 1, gap, ⟨line, column, c⟩ :: rest =>
      if isBlank c || c = '\n' then quotedFrom mark fuel (gap.add c) rest
      else if Text.atMarker (⟨line, column, c⟩ :: rest) then none
      else if c = mark then
        match mark, rest with
        | '\'', ⟨_, _, '\''⟩ :: rest =>
            (quotedFrom mark fuel {} rest).map fun (cs, t) => (gap.chars ++ '\'' :: cs, t)
        | _, _ => some (gap.chars, rest)
      else if c = '\\' && mark = '"' then
        match rest with
        | ⟨_, _, '\n'⟩ :: rest =>
            (quotedFrom mark fuel { joined := true } rest).map fun (cs, t) => (gap.chars ++ cs, t)
        | _ =>
            match escape rest with
            | none => none
            | some (d, rest) =>
                (quotedFrom mark fuel {} rest).map fun (cs, t) => (gap.chars ++ d :: cs, t)
      else (quotedFrom mark fuel {} rest).map fun (cs, t) => (gap.chars ++ c :: cs, t)

/-- Takes a quoted scalar after its opening quote. -/
def quoted (mark : Char) (t : Text) : Option (String × Text) :=
  (quotedFrom mark (t.length + 1) {} t).map fun (cs, rest) => (String.ofList cs, rest)

/-! ### Block scalars -/

/-- What becomes of the line breaks at the end of a block scalar. -/
inductive Tail where
  | strip
  /-- One is kept. -/
  | clip
  | keep
  deriving DecidableEq, Repr

/-- What the header of a block scalar says. -/
structure Header where
  tail : Tail := .clip
  /-- The columns by which the block is indented. -/
  indent : Option Nat := none

/-- Takes a sign for the end of a block scalar. -/
def tailSign : Text → Option Tail × Text
  | ⟨_, _, '+'⟩ :: rest => (some .keep, rest)
  | ⟨_, _, '-'⟩ :: rest => (some .strip, rest)
  | t => (none, t)

/-- Takes a digit for the indentation; `none` if it is a zero. -/
def indentDigit : Text → Option (Option Nat × Text)
  | ⟨line, column, c⟩ :: rest =>
      if c = '0' then none
      else if c.isDigit then some (some (c.toNat - '0'.toNat), rest)
      else some (none, ⟨line, column, c⟩ :: rest)
  | [] => some (none, [])

/-- Takes the header of a block scalar up to the end of its line: a sign and a
digit in either order, and then nothing but a comment. -/
def header (t : Text) : Option (Header × Text) := do
  let (before, t) := tailSign t
  let (indent, t) ← indentDigit t
  let (after, t) := if before.isNone && indent.isSome then tailSign t else (none, t)
  let t := t.dropBlanks
  let t := if t.next? = some '#' then t.dropLine else t
  if t.endsLine then some ({ tail := (before <|> after).getD .clip, indent }, t) else none

/-- Takes the spaces of the indentation and the line breaks of blank lines. An
indentation of zero is not known yet. Gives the number of line breaks, the
column of the widest blank line or of what follows, and what follows. -/
def blankLines (indent : Nat) (breaks widest : Nat) : Text → Option (Nat × Nat × Text)
  | [] => some (breaks, widest, [])
  | ⟨line, column, c⟩ :: rest =>
      if (indent = 0 || column < indent) && c = ' ' then blankLines indent breaks widest rest
      else if (indent = 0 || column < indent) && c = '\t' then none
      else if c = '\n' then blankLines indent (breaks + 1) (max widest column) rest
      else some (breaks, max widest column, ⟨line, column, c⟩ :: rest)

/-- Takes the lines of a block scalar that stand at its indentation. `crossed`
says that a line came before, `breaks` how many blank ones came since, and
`blank` that it started with a blank. -/
def blockLines (style : Style) (tail : Tail) (indent : Nat) :
    (fuel : Nat) → (crossed : Bool) → (breaks : Nat) → (blank : Bool) → Text →
      Option (List Char × Text)
  | 0, _, _, _, _ => none
  | fuel + 1, crossed, breaks, blank, t =>
      let first := if crossed then ['\n'] else []
      match t with
      | ⟨_, column, c⟩ :: _ =>
          if column = indent then do
            let folds := style = .folded && crossed && !blank && !isBlank c
            let glue := if folds then (if breaks = 0 then [' '] else []) else first
            let rest := t.dropLine
            let (more, _, after) ← blankLines indent 0 0 rest.tail
            let (cs, after) ← blockLines style tail indent fuel (!rest.isEmpty) more (isBlank c) after
            return (glue ++ List.replicate breaks '\n' ++ t.takeLine.chars ++ cs, after)
          else some (ending first breaks, t)
      | [] => some (ending first breaks, t)
where
  /-- What is kept of the line breaks at the end. -/
  ending (first : List Char) (breaks : Nat) : List Char :=
    match tail with
    | .strip => []
    | .clip => first
    | .keep => first ++ List.replicate breaks '\n'

/-- Takes a block scalar after its mark, the lines of which stand at the column
`least` or further. Blank lines before the first other line must not be wider
than that one. -/
def block (style : Style) (least : Nat) (t : Text) : Option (String × Text) := do
  let (header, t) ← header t
  let given := (header.indent.map (least - 1 + ·)).getD 0
  let (breaks, widest, t) ← blankLines given 0 0 t.tail
  let indent := if given = 0 then max (max widest least) 1 else given
  let (cs, t) ← blockLines style header.tail indent (t.length + 1) false breaks false t
  return (String.ofList cs, t)

end Yaml
end Teardown
