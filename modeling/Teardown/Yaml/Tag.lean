/-
# YAML tags

A tag says of what type a node is. It is written in full, or as a handle that
stands for the front of it and the rest; handles are declared by the directives
of a document. Tags are read as octets, of which some are written by number.

Key definitions: `Yaml.Tag`, `Yaml.Tag.read`, `Yaml.Tag.full?`.
-/
import Teardown.Text.Digits
import Teardown.Yaml.Text

namespace Teardown
namespace Yaml

/-- A tag, or a part of one. An octet of zero ends it. -/
abbrev Octets := List UInt8

/-- The octets of a string. -/
def octets (s : String) : Octets := s.toUTF8.toList

/-! ### Octets in text -/

/-- Whether a character may stand in a tag. Where a tag is written in full,
commas and square brackets may as well. -/
def isTagChar (inFull : Bool) (c : Char) : Bool :=
  isNameChar c || ";/?:@&=+$.!~*'()".toList.contains c || (inFull && [',', '[', ']'].contains c)

/-- The number of octets that belong to a first one. -/
def octetWidth? (n : Nat) : Option Nat :=
  if n < 0x80 then some 1
  else if n < 0xC0 then none
  else if n < 0xE0 then some 2
  else if n < 0xF0 then some 3
  else if n < 0xF8 then some 4
  else none

/-- Takes the characters of a tag. After a percent sign comes an octet in two
digits; the octets of one character stand together, and `more` of them are
expected here. -/
def tagOctets (inFull : Bool) (more : Nat) : Text → Option (Octets × Text)
  | ⟨_, _, '%'⟩ :: ⟨_, _, high⟩ :: ⟨_, _, low⟩ :: rest => do
      let n ← Text.natural? 16 256 [high, low]
      let left ←
        match more with
        | 0 => (octetWidth? n).map (· - 1)
        | more + 1 => if 0x80 ≤ n ∧ n < 0xC0 then some more else none
      let (os, after) ← tagOctets inFull left rest
      return (UInt8.ofNat n :: os, after)
  | ⟨line, column, c⟩ :: rest =>
      if more ≠ 0 ∨ c = '%' then none
      else if isTagChar inFull c then
        (tagOctets inFull 0 rest).map fun (os, after) => (UInt8.ofNat c.toNat :: os, after)
      else some ([], ⟨line, column, c⟩ :: rest)
  | [] => if more = 0 then some ([], []) else none

/-- Takes at least one octet. -/
def someOctets (inFull : Bool) (t : Text) : Option (Octets × Text) := do
  let (os, rest) ← tagOctets inFull 0 t
  if os.isEmpty then none else return (os, rest)

/-! ### Handles -/

/-- Takes a handle after its exclamation mark: the characters of a name, and
whether a second exclamation mark closes it. -/
def handle (t : Text) : String × Bool × Text :=
  match t.name with
  | (name, ⟨_, _, '!'⟩ :: rest) => (String.ofList name, true, rest)
  | (name, rest) => (String.ofList name, false, rest)

/-- A tag as it is written. -/
structure Tag where
  /-- The handle; without one the tag is written in full. -/
  handle : Option String
  suffix : Octets
  deriving DecidableEq, Repr

namespace Tag

/-- Takes a tag after its exclamation mark, up to what may follow it. A lone
mark is a tag in full. -/
def read (inFlow : Bool) : Text → Option (Tag × Text)
  | ⟨_, _, '<'⟩ :: t => do
      let (suffix, t) ← someOctets true t
      match t with
      | ⟨_, _, '>'⟩ :: t => closed { handle := none, suffix } t
      | _ => none
  | t => do
      match Yaml.handle t with
      | (name, true, t) =>
          let (suffix, t) ← someOctets false t
          closed { handle := some ("!" ++ name ++ "!"), suffix } t
      | (name, false, t) =>
          let (os, t) ← tagOctets false 0 t
          let suffix := octets name ++ os
          if suffix.head?.all (· = 0) then closed { handle := none, suffix := octets "!" } t
          else closed { handle := some "!", suffix } t
where
  /-- A tag, if one may end here. -/
  closed (tag : Tag) (t : Text) : Option (Tag × Text) :=
    if t.endsWord || (inFlow && t.next? = some ',') then some (tag, t) else none

/-- The handles that need no declaration. -/
def knownHandles : List (String × Octets) :=
  [("!", octets "!"), ("!!", octets "tag:yaml.org,2002:")]

/-- Octets up to one of zero. -/
def ended (os : Octets) : Octets := os.takeWhile (· ≠ 0)

/-- A tag in full, if its handle is declared or known. -/
def full? (declared : List (String × Octets)) (tag : Tag) : Option Octets :=
  match tag.handle with
  | none => some (ended tag.suffix)
  | some handle =>
      ((declared ++ knownHandles).lookup handle).map fun front => ended front ++ ended tag.suffix

end Tag
end Yaml
end Teardown
