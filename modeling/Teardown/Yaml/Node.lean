/-
# YAML nodes

The tree that tokens describe: scalars, sequences, mappings, and aliases for
anchored nodes. Where a node may be left out, it is an empty plain scalar.

Key definitions: `Yaml.Node`, `Yaml.Node.read`.
-/
import Teardown.Yaml.Token

namespace Teardown
namespace Yaml

/-- A node. An anchor is the number of a name. -/
inductive Node where
  | scalar (anchor : Option Nat) (style : Style) (tag : Option Octets) (text : String)
  | alias (number : Nat)
  | sequence (anchor : Option Nat) (items : List Node)
  | mapping (anchor : Option Nat) (members : List (Node × Node))
  deriving Repr

namespace Node

/-- What stands where a node was left out. -/
def empty : Node := .scalar none .plain none ""

/-- Takes an anchor and a tag, in either order. -/
def marks : List Token → Option Nat × Option Tag × List Token
  | .anchor n :: .tag t :: ts => (some n, some t, ts)
  | .tag t :: .anchor n :: ts => (some n, some t, ts)
  | .anchor n :: ts => (some n, none, ts)
  | .tag t :: ts => (none, some t, ts)
  | ts => (none, none, ts)

/-- Where a node may stand. -/
inductive Place where
  /-- In a document or after a dash. -/
  | block
  /-- After a key or a colon, where a sequence need not be further right than
  the mapping. -/
  | member
  | flow
  deriving DecidableEq, Repr

/-- Whether a node is left out before these tokens: a key or value of a block
mapping, or an item of a sequence without a start of its own. -/
def endsMember : List Token → Bool
  | .key :: _ | .value :: _ | .blockEnd :: _ => true
  | _ => false

variable (declared : List (String × Octets))

mutual

/-- Takes a node. -/
def read : (fuel : Nat) → Place → List Token → Option (Node × List Token)
  | 0, _, _ => none
  | fuel + 1, place, ts =>
      match ts with
      | .alias n :: ts => some (.alias n, ts)
      | ts => do
          let (anchor, written, ts) := marks ts
          let tag ← written.mapM (Tag.full? declared)
          match ts with
          | .scalar style text :: ts => return (.scalar anchor style tag text, ts)
          | .opened .square :: ts =>
              let (items, ts) ← readFlowItems fuel true ts
              return (.sequence anchor items, ts)
          | .opened .curly :: ts =>
              let (members, ts) ← readFlowMembers fuel true ts
              return (.mapping anchor members, ts)
          | ts =>
              match place, ts with
              | .member, .item :: ts =>
                  let (items, ts) ← readLooseItems fuel (.item :: ts)
                  return (.sequence anchor items, ts)
              | .block, .sequenceStart :: ts | .member, .sequenceStart :: ts =>
                  let (items, ts) ← readItems fuel ts
                  return (.sequence anchor items, ts)
              | .block, .mappingStart :: ts | .member, .mappingStart :: ts =>
                  let (members, ts) ← readMembers fuel ts
                  return (.mapping anchor members, ts)
              | _, ts =>
                  if anchor.isSome || tag.isSome then return (.scalar anchor .plain tag "", ts)
                  else none

/-- Takes the items of a block sequence and its end. -/
def readItems : (fuel : Nat) → List Token → Option (List Node × List Token)
  | 0, _ => none
  | fuel + 1, ts =>
      match ts with
      | .item :: ts => do
          let (node, ts) ←
            match ts with
            | .item :: _ | .blockEnd :: _ => some (empty, ts)
            | _ => read fuel .block ts
          let (items, ts) ← readItems fuel ts
          return (node :: items, ts)
      | .blockEnd :: ts => some ([], ts)
      | _ => none

/-- Takes the items of a sequence without a start of its own. -/
def readLooseItems : (fuel : Nat) → List Token → Option (List Node × List Token)
  | 0, _ => none
  | fuel + 1, ts =>
      match ts with
      | .item :: ts => do
          let (node, ts) ←
            match ts with
            | .item :: _ => some (empty, ts)
            | _ => if endsMember ts then some (empty, ts) else read fuel .block ts
          let (items, ts) ← readLooseItems fuel ts
          return (node :: items, ts)
      | ts => some ([], ts)

/-- Takes the members of a block mapping and its end. -/
def readMembers : (fuel : Nat) → List Token → Option (List (Node × Node) × List Token)
  | 0, _ => none
  | fuel + 1, ts =>
      match ts with
      | .key :: ts => do
          let (key, ts) ← if endsMember ts then some (empty, ts) else read fuel .member ts
          let (value, ts) ←
            match ts with
            | .value :: ts => if endsMember ts then some (empty, ts) else read fuel .member ts
            | _ => some (empty, ts)
          let (members, ts) ← readMembers fuel ts
          return ((key, value) :: members, ts)
      | .blockEnd :: ts => some ([], ts)
      | _ => none

/-- Takes what follows a key in flow: the value, if there is a colon. -/
def readFlowValue : (fuel : Nat) → (close : Bracket) → List Token → Option (Node × List Token)
  | 0, _, _ => none
  | fuel + 1, close, ts =>
      match ts with
      | .value :: ts =>
          match ts with
          | .comma :: _ => some (empty, ts)
          | .closed b :: _ => if b = close then some (empty, ts) else none
          | _ => read fuel .flow ts
      | ts => some (empty, ts)

/-- Takes the items of a flow sequence and its closing bracket. An item may be a
mapping of one member. Where its key is left out, the token in the place of the
key is passed over. -/
def readFlowItems : (fuel : Nat) → (first : Bool) → List Token → Option (List Node × List Token)
  | 0, _, _ => none
  | fuel + 1, first, ts =>
      match first, ts with
      | _, .closed .square :: ts => some ([], ts)
      | false, .comma :: .closed .square :: ts => some ([], ts)
      | first, ts => do
          let ts ←
            match first, ts with
            | true, ts => some ts
            | false, .comma :: ts => some ts
            | false, _ => none
          match ts with
          | .key :: ts =>
              let (key, ts) ←
                match ts with
                | .value :: ts | .comma :: ts | .closed .square :: ts => some (empty, ts)
                | ts => read fuel .flow ts
              let (value, ts) ← readFlowValue fuel .square ts
              let (items, ts) ← readFlowItems fuel false ts
              return (.mapping none [(key, value)] :: items, ts)
          | ts =>
              let (node, ts) ← read fuel .flow ts
              let (items, ts) ← readFlowItems fuel false ts
              return (node :: items, ts)

/-- Takes the members of a flow mapping and its closing bracket. -/
def readFlowMembers : (fuel : Nat) → (first : Bool) → List Token →
    Option (List (Node × Node) × List Token)
  | 0, _, _ => none
  | fuel + 1, first, ts =>
      match first, ts with
      | _, .closed .curly :: ts => some ([], ts)
      | false, .comma :: .closed .curly :: ts => some ([], ts)
      | first, ts => do
          let ts ←
            match first, ts with
            | true, ts => some ts
            | false, .comma :: ts => some ts
            | false, _ => none
          match ts with
          | .key :: ts =>
              let (key, ts) ←
                match ts with
                | .value :: _ | .comma :: _ | .closed .curly :: _ => some (empty, ts)
                | _ => read fuel .flow ts
              let (value, ts) ← readFlowValue fuel .curly ts
              let (members, ts) ← readFlowMembers fuel false ts
              return ((key, value) :: members, ts)
          | ts =>
              let (key, ts) ← read fuel .flow ts
              let (members, ts) ← readFlowMembers fuel false ts
              return ((key, empty) :: members, ts)

end

/-! ### Anchors -/

mutual

/-- The last node that has an anchor, of a node and all within it. -/
def anchored? (number : Nat) : Node → Option Node
  | .scalar anchor style tag text =>
      if anchor = some number then some (.scalar anchor style tag text) else none
  | .alias _ => none
  | .sequence anchor items =>
      (anchoredItem? number items).or
        (if anchor = some number then some (.sequence anchor items) else none)
  | .mapping anchor members =>
      (anchoredMember? number members).or
        (if anchor = some number then some (.mapping anchor members) else none)

/-- The same for the items of a sequence. -/
def anchoredItem? (number : Nat) : List Node → Option Node
  | [] => none
  | item :: items => (anchoredItem? number items).or (item.anchored? number)

/-- The same for the members of a mapping. -/
def anchoredMember? (number : Nat) : List (Node × Node) → Option Node
  | [] => none
  | (key, value) :: members =>
      (anchoredMember? number members).or ((value.anchored? number).or (key.anchored? number))

end

end Node
end Yaml
end Teardown
