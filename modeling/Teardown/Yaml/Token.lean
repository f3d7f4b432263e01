/-
# YAML tokens

The marks and scalars of a text in reading order. Block collections have no
marks of their own: one starts where an item stands further right than the
collection around it, and ends before the first item that does not. That a
scalar or a flow collection is a key shows only at the colon after it, so the
place where a key may have started is kept until then.

Anchors are numbered. A number says how many names were anchored before; a name
that is anchored again stands for its new number from there on.

Key definitions: `Yaml.Token`, `Yaml.Token.ofText?`.
-/
import Teardown.Yaml.Scalar
import Teardown.Yaml.Tag

namespace Teardown
namespace Yaml

/-- What a collection is written with in flow. -/
inductive Bracket where
  | square
  | curly
  deriving DecidableEq, Repr

inductive Token where
  /-- A directive that gives the version. -/
  | version (major minor : Nat)
  /-- A directive that says what a handle stands for. -/
  | declared (handle : String) (front : Octets)
  | documentStart
  | documentEnd
  | sequenceStart
  | mappingStart
  /-- The end of a block collection. -/
  | blockEnd
  | opened (b : Bracket)
  | closed (b : Bracket)
  /-- The dash before an item. -/
  | item
  | comma
  | key
  | value
  | anchor (number : Nat)
  | alias (number : Nat)
  | tag (t : Tag)
  | scalar (style : Style) (text : String)
  deriving DecidableEq, Repr

/-- A place where a key may have started. -/
structure KeyStart where
  /-- The number of tokens before it. -/
  before : Nat
  line : Nat
  column : Nat
  /-- Whether nothing but a key can stand there. -/
  required : Bool

/-- What is known of a text up to some place in it. -/
structure Progress where
  /-- What follows. -/
  text : Text
  /-- The tokens so far, the last one first. -/
  tokens : List Token := []
  /-- How many tokens there are so far. -/
  count : Nat := 0
  /-- The columns of the block collections around the place, the innermost first. -/
  columns : List Nat := []
  /-- Where a key may have started. -/
  keyStart : Option KeyStart := none
  /-- Where keys may have started outside of each flow collection around the
  place, the innermost first. -/
  outer : List (Option KeyStart) := []
  /-- Whether a key may start here. -/
  keyAllowed : Bool := true
  /-- The number that each anchored name stands for. -/
  anchors : List (String × Nat) := []
  count_eq : count = tokens.length := by rfl

namespace Progress

/-- Whether the place is within a flow collection. -/
def inFlow (p : Progress) : Bool := !p.outer.isEmpty

/-- The column from which on something belongs to the innermost block collection. -/
def least (p : Progress) : Nat :=
  match p.columns with
  | [] => 0
  | column :: _ => column + 1

def emit (p : Progress) (t : Token) : Progress :=
  { p with
    tokens := t :: p.tokens
    count := p.count + 1
    count_eq := by simp [p.count_eq] }

/-- Puts a token in after the first `before` ones. -/
def insert (p : Progress) (before : Nat) (t : Token) : Progress :=
  let late := p.count - before
  { p with
    tokens := p.tokens.take late ++ t :: p.tokens.drop late
    count := p.count + 1
    count_eq := by
      simp only [p.count_eq, List.length_append, List.length_take, List.length_cons,
        List.length_drop]
      omega }

/-! ### Gaps -/

/-- Skips to the next token: blanks, comments and line breaks. A tab counts as
blank only where no key may start. The mark of a byte order may start a line. -/
def skipGap (inFlow : Bool) (keyAllowed comment : Bool) : Text → Bool × Text
  | [] => (keyAllowed, [])
  | ⟨line, column, c⟩ :: rest =>
      if c = '\n' then skipGap inFlow (keyAllowed || !inFlow) false rest
      else if comment || c = ' ' || (c = '\t' && (inFlow || !keyAllowed)) ||
          (c = '\ufeff' && column = 0) then
        skipGap inFlow keyAllowed comment rest
      else if c = '#' then skipGap inFlow keyAllowed true rest
      else (keyAllowed, ⟨line, column, c⟩ :: rest)

/-- The progress after the gap to the next token. -/
def afterGap (p : Progress) : Progress :=
  let (keyAllowed, text) := skipGap p.inFlow p.keyAllowed false p.text
  { p with keyAllowed, text }

/-! ### Keys -/

/-- Gives up that a key may have started. -/
def dropKey (p : Progress) : Option Progress :=
  if p.keyStart.any (·.required) then none else some { p with keyStart := none }

/-- Notes that a key may start at a place, where one is allowed. In the column of
a block mapping there must be one. -/
def noteKey (p : Progress) (line column : Nat) : Option Progress :=
  if p.keyAllowed then do
    let required := !p.inFlow && p.columns.head? = some column
    let p ← p.dropKey
    return { p with keyStart := some { before := p.count, line, column, required } }
  else some p

/-- The number of characters between the start of a key and its colon. -/
def keyWidth : Nat := 1024

/-- Gives up a key that started on an earlier line or too far to the left. -/
def expired (line column : Nat) : Option KeyStart → Option (Option KeyStart)
  | none => some none
  | some k =>
      if k.line < line ∨ k.column + keyWidth < column then
        if k.required then none else some none
      else some (some k)

/-- Gives up all keys that started too far away. -/
def expireKeys (p : Progress) (line column : Nat) : Option Progress := do
  let outer ← p.outer.mapM (expired line column)
  let keyStart ← expired line column p.keyStart
  return { p with outer, keyStart }

/-! ### Block collections -/

/-- Ends the block collections that stand at the column `least` or further. -/
def endBlocks (least : Nat) (p : Progress) : Progress :=
  if p.inFlow then p
  else
    let ended := p.columns.takeWhile (least ≤ ·)
    { p with
      columns := p.columns.drop ended.length
      tokens := ended.map (fun _ => .blockEnd) ++ p.tokens
      count := ended.length + p.count
      count_eq := by simp [p.count_eq] }

/-- Starts a block collection if the column is further right than the innermost one.
The collection goes in after the first `before` tokens. -/
def startBlock (p : Progress) (column before : Nat) (t : Token) : Progress :=
  if p.inFlow || column < p.least then p
  else { p.insert before t with columns := column :: p.columns }

/-! ### Directives -/

/-- Takes a part of a version: at most nine digits. -/
def versionPart (t : Text) : Option (Nat × Text) :=
  let ds := t.takeWhile (·.char.isDigit)
  if 9 < ds.length then none
  else (Text.decimal? (Nat.pow 10 9) (Text.chars ds)).map fun n => (n, t.drop ds.length)

/-- Takes what a directive says, up to the rest of its line. -/
def directiveOf (name : String) (t : Text) : Option (Token × Text) :=
  match name with
  | "YAML" => do
      let (major, t) ← versionPart t.dropBlanks
      match t with
      | ⟨_, _, '.'⟩ :: t =>
          let (minor, t) ← versionPart t
          return (.version major minor, t)
      | _ => none
  | "TAG" =>
      match t.dropBlanks with
      | ⟨_, _, '!'⟩ :: t => do
          let (name, isClosed, t) := handle t
          if name ≠ "" && !isClosed then none
          else if !(Text.next? t).any isBlank then none
          else
            let (front, t) ← someOctets true (Text.dropBlanks t)
            if Text.endsWord t then
              return (.declared ("!" ++ name ++ if isClosed then "!" else "") front, t)
            else none
      | _ => none
  | _ => none

/-- Takes a directive after its percent sign, and its line break. -/
def directive (t : Text) : Option (Token × Text) := do
  let (name, t) := t.name
  if !t.endsWord then none
  let (token, t) ← directiveOf (String.ofList name) t
  let t := t.dropBlanks
  let t := if t.next? = some '#' then t.dropLine else t
  if t.endsLine then return (token, t.tail) else none

/-! ### Tokens -/

/-- Takes the name of an anchor or an alias. -/
def anchorName (t : Text) : Option (String × Text) :=
  let (name, t) := t.name
  let ends := t.endsWord || t.next?.any ['?', ':', ',', ']', '\x7d', '%', '@', '\x60'].contains
  if name.isEmpty || !ends then none else some (String.ofList name, t)

/-- Takes the colon after a key. -/
def takeColon (p : Progress) (column : Nat) (rest : Text) : Option Progress :=
  match p.keyStart with
  | some k =>
      let p := (p.insert k.before .key).startBlock k.column k.before .mappingStart
      some { p.emit .value with keyStart := none, keyAllowed := false, text := rest }
  | none =>
      if p.inFlow then some { p.emit .value with keyAllowed := false, text := rest }
      else if p.keyAllowed then
        some { (p.startBlock column p.count .mappingStart).emit .value with text := rest }
      else none

/-- Takes an indicator before an item or a key, with which a block collection may start. -/
def takeIndicator (p : Progress) (column : Nat) (start mark : Token) (rest : Text) :
    Option Progress :=
  if p.inFlow || p.keyAllowed then do
    let p ← (p.startBlock column p.count start).dropKey
    return { p.emit mark with text := rest }
  else none

/-- Takes the token that starts with the character at a place, of which `rest` follows. -/
def take (p : Progress) (line column : Nat) (c : Char) (rest : Text) : Option Progress :=
  let text : Text := ⟨line, column, c⟩ :: rest
  if c = '%' && column = 0 then do
    let p ← (p.endBlocks 0).dropKey
    let (token, text) ← directive rest
    return { p.emit token with keyAllowed := false, text }
  else if text.atMarker then do
    let p ← (p.endBlocks 0).dropKey
    let token := if c = '-' then .documentStart else .documentEnd
    return { p.emit token with keyAllowed := false, text := rest.drop 2 }
  else if c = '[' || c = '\x7b' then do
    let p ← p.noteKey line column
    let bracket := if c = '[' then .square else .curly
    return { p.emit (.opened bracket) with
      keyStart := none, outer := p.keyStart :: p.outer, keyAllowed := true, text := rest }
  else if c = ']' || c = '\x7d' then do
    let p ← p.dropKey
    let bracket := if c = ']' then .square else .curly
    return { p.emit (.closed bracket) with
      keyStart := p.outer.head?.getD none, outer := p.outer.tail, keyAllowed := false, text := rest }
  else if c = ',' then do
    let p ← p.dropKey
    return { p.emit .comma with keyAllowed := true, text := rest }
  else if c = '-' && Text.endsWord rest then
    (p.takeIndicator column .sequenceStart .item rest).map fun p => { p with keyAllowed := true }
  else if c = '?' && (p.inFlow || Text.endsWord rest) then
    (p.takeIndicator column .mappingStart .key rest).map fun p => { p with keyAllowed := !p.inFlow }
  else if c = ':' && (p.inFlow || Text.endsWord rest) then p.takeColon column rest
  else if c = '*' then do
    let p ← p.noteKey line column
    let (name, text) ← anchorName rest
    let number ← p.anchors.lookup name
    return { p.emit (.alias number) with keyAllowed := false, text }
  else if c = '&' then do
    let p ← p.noteKey line column
    let (name, text) ← anchorName rest
    let number := p.anchors.length
    let anchors := (name, number) :: p.anchors.filter (·.1 ≠ name)
    return { p.emit (.anchor number) with keyAllowed := false, anchors, text }
  else if c = '!' then do
    let p ← p.noteKey line column
    let (tag, text) ← Tag.read p.inFlow rest
    return { p.emit (.tag tag) with keyAllowed := false, text }
  else if (c = '|' || c = '>') && !p.inFlow then do
    let p ← p.dropKey
    let style := if c = '|' then .literal else .folded
    let (scalar, text) ← block style p.least rest
    return { p.emit (.scalar style scalar) with keyAllowed := true, text }
  else if c = '\'' || c = '"' then do
    let p ← p.noteKey line column
    let (scalar, text) ← quoted c rest
    return { p.emit (.scalar .quoted scalar) with keyAllowed := false, text }
  else if startsPlain p.inFlow text then do
    let p ← p.noteKey line column
    let (scalar, text, crossed) ← plain p.inFlow p.least text
    return { p.emit (.scalar .plain scalar) with keyAllowed := crossed, text }
  else none

/-- Takes all tokens. -/
def takeAll : (fuel : Nat) → Progress → Option (List Token)
  | 0, _ => none
  | fuel + 1, p =>
      let p := p.afterGap
      match p.text with
      | [] => ((p.endBlocks 0).dropKey).map (·.tokens.reverse)
      | ⟨line, column, c⟩ :: rest => do
          let p ← p.expireKeys line column
          takeAll fuel (← (p.endBlocks (column + 1)).take line column c rest)

end Progress

/-- The tokens of a text. -/
def Token.ofText? (t : Text) : Option (List Token) :=
  Progress.takeAll (t.length + 1) { text := t }

end Yaml
end Teardown
