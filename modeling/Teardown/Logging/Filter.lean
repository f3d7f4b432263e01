/-
# Log filters

Which events are logged. A filter is a list of directives: a level for a
target and everything below it, or a level for the rest. A directive may ask
for a field, or be for spans, of which an event knows nothing. The directive
that says most about an event decides, and an event that no directive is for is
not logged.

Key definitions: `Directive`, `Filter.parse?`, `Filter.allows`.
-/
import Teardown.Event
import Teardown.Logging.Pattern
import Teardown.Text.Alphanumeric
import Teardown.Text.Blank
import Teardown.Text.Digits
import Teardown.Text.Lowered

namespace Teardown

/-- A level for what a directive is for. Without a level nothing is logged. -/
structure Directive where
  /-- What the target starts with; without one any target does. -/
  target : Option String := none
  /-- A field that an event must have. -/
  field : Option String := none
  /-- Whether the directive is for a span or for the value of a span's field. -/
  forSpans : Bool := false
  level : Option Level
  deriving DecidableEq, Repr

/-- The directives of a filter, where a later one overrides an earlier one. -/
abbrev Filter := List Directive

namespace Filter

/-! ### Reading -/

/-- Every level with its name, by its number. -/
def levels : List (String × Option Level) :=
  [("off", none), ("error", some .error), ("warn", some .warn), ("info", some .info),
    ("debug", some .debug), ("trace", some .trace)]

/-- A level by its name, in capitals or not, or by its number. -/
def level? (s : String) : Option (Option Level) :=
  let digits :=
    match s.toList with
    | '+' :: ds => ds
    | ds => ds
  match Text.decimal? levels.length digits with
  | some n => levels[n]?.map (·.2)
  | none => levels.lookup (Text.lowered s)

/-- Whether a directive can start with a character. -/
def starts (c : Char) : Bool := ['[', '-', ':', '_'].contains c || Text.isAlphanumeric c

/-- The bytes of a text. -/
def bytes (s : List Char) : Nat := s.foldr (fun c n => c.utf8Size + n) 0

/-- A text without its first bytes, if they are characters. -/
def dropBytes? : Nat → List Char → Option (List Char)
  | 0, s => some s
  | _ + 1, [] => none
  | n + 1, c :: s => if c.utf8Size ≤ n + 1 then dropBytes? (n + 1 - c.utf8Size) s else none

/-- The first bytes of a text, if they are characters. -/
def takeBytes? : Nat → List Char → Option (List Char)
  | 0, _ => some []
  | _ + 1, [] => none
  | n + 1, c :: s =>
      if c.utf8Size ≤ n + 1 then (takeBytes? (n + 1 - c.utf8Size) s).map (c :: ·) else none

/-- The bytes of a text from one to another. -/
def slice? (s : List Char) (start stop : Nat) : Option (List Char) :=
  (dropBytes? start s).bind (takeBytes? (stop - start))

/-- Reads the level from a byte on. Nothing stands for every level. -/
def levelFrom? (s : List Char) (start : Nat) : Option (Option Level) := do
  match ← dropBytes? start s with
  | [] => return some .trace
  | text => level? (String.ofList text)

/-- Reads the level of a directive that goes on after a condition. -/
def levelAfter? (s : List Char) (start : Nat) : List Char → Option (Option Level)
  | [] => some (some .trace)
  | '=' :: _ => levelFrom? s (start + 1)
  | _ => none

/-- Reads a field's name and, after an equals sign, a pattern for its value. A
second equals sign ends the pattern. -/
def fieldOf? (text : List Char) : Option (String × Bool) :=
  match text.splitOn '=' with
  | [] => none
  | [name] => if name.isEmpty then none else some (String.ofList name, false)
  | name :: value :: _ => if Pattern.isValid value then some (String.ofList name, true) else none

/-- Reads a directive: a level; or a target, a condition or both, with or
without a level after an equals sign. A condition is the name of a span and, in
braces, a field.

Blanks around a directive say nothing about where its pieces start, and yet they
belong to the text: each piece is taken as many bytes from the start of the text
as it stands from the first character that is no blank. -/
def directive? (s : List Char) : Option Directive := do
  let word := Text.trim s
  if !word.head?.any starts then none
  let name := word.takeWhile fun c => c ≠ '=' ∧ c ≠ '['
  if name = word then
    match level? (String.ofList s) with
    | some level => return { level }
    | none => return { target := some (String.ofList s), level := some .trace }
  let target ←
    if name.isEmpty then pure none
    else (takeBytes? (bytes name) s).map (some ∘ String.ofList)
  match word.drop name.length with
  | '[' :: rest =>
      let span := rest.takeWhile fun c => c ≠ ']' ∧ c ≠ '\x7b'
      let spanStart := bytes name + 1
      let spanStop := spanStart + bytes span
      let _ ← slice? s spanStart spanStop
      match rest.drop span.length with
      | ']' :: rest =>
          return { target, forSpans := true, level := ← levelAfter? s (spanStop + 1) rest }
      | '\x7b' :: rest =>
          let text := rest.takeWhile (· ≠ '\x7d')
          let fieldStop := spanStop + 1 + bytes text
          let (field, asksValue) ← fieldOf? (← slice? s (spanStop + 1) fieldStop)
          match rest.drop text.length with
          | '\x7d' :: ']' :: rest =>
              return { target, field, forSpans := !span.isEmpty || asksValue,
                       level := ← levelAfter? s (fieldStop + 2) rest }
          | _ => none
      | _ => none
  | _ => return { target, level := ← levelFrom? s (bytes name + 1) }

/-- Reads a filter: directives with commas between them. -/
def parse? (s : String) : Option Filter :=
  ((s.toList.splitOn ',').filter (· ≠ [])).mapM directive?

/-! ### Deciding -/

/-- Whether a directive is for an event. -/
def concerns (d : Directive) (e : Event) : Bool :=
  !d.forSpans && (d.target.all fun t => t.toList.isPrefixOf e.target.toList) &&
    d.field.all ("message" :: e.fields.map (·.1)).contains

/-- How much of a target a directive asks for, counted from one. -/
def reach (d : Directive) : Nat := (d.target.map (·.length + 1)).getD 0

/-- Whether the second directive decides rather than the first: it asks for more
of the target, or for as much and for a field, or for a field further on in the
alphabet, or for the same but later. -/
def yields (first second : Directive) : Bool :=
  reach first < reach second ||
    (reach first = reach second && first.field.getD "" ≤ second.field.getD "")

/-- The directive that decides about an event. -/
def decider (f : Filter) (e : Event) : Option Directive :=
  (f.filter (concerns · e)).foldl
    (fun best d => if best.all (yields · d) then some d else best) none

/-- Whether an event is logged. -/
def allows (f : Filter) (e : Event) : Bool :=
  match (f.decider e).bind (·.level) with
  | some level => e.level.depth ≤ level.depth
  | none => false

end Filter
end Teardown
