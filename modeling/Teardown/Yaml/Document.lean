/-
# YAML documents

A text holds at most one document: directives, the mark of its start, which may
be left out where there are no directives, a node, and marks of its end.

Key definitions: `Yaml.Document`, `Yaml.Document.ofText?`, `Yaml.Document.target`.
-/
import Teardown.Yaml.Node

namespace Teardown
namespace Yaml

/-- A document, which may lack a node. -/
structure Document where
  root : Option Node
  deriving Repr

/-! ### Directives -/

/-- What the directives of a document say. -/
structure Prologue where
  hasVersion : Bool := false
  declared : List (String × Octets) := []

/-- Takes directives. The version is given once at most and is 1.1 or 1.2, and
every handle is declared once at most. -/
def prologue (p : Prologue) : List Token → Option (Prologue × List Token)
  | .version major minor :: ts =>
      if p.hasVersion || major ≠ 1 || (minor ≠ 1 && minor ≠ 2) then none
      else prologue { p with hasVersion := true } ts
  | .declared handle front :: ts =>
      if (p.declared.lookup handle).isSome then none
      else prologue { p with declared := p.declared ++ [(handle, front)] } ts
  | ts => some (p, ts)

/-! ### Reading -/

/-- Whether a document that was started holds no node. -/
def isBare : List Token → Bool
  | [] | .version .. :: _ | .declared .. :: _ | .documentStart :: _ | .documentEnd :: _ => true
  | _ => false

/-- Takes the node of a document. -/
def readRoot (declared : List (String × Octets)) (ts : List Token) : Option (Node × List Token) :=
  Node.read declared (3 * ts.length + 3) .block ts

/-- The document of tokens. Nothing comes after it but marks of its end. -/
def Document.ofTokens? (ts : List Token) : Option Document := do
  if ts.isEmpty then return { root := none }
  let (p, ts) ← prologue {} ts
  let (root, ts) ←
    match ts with
    | .documentStart :: ts =>
        if isBare ts then some (Node.empty, ts) else readRoot p.declared ts
    | ts => if p.hasVersion || !p.declared.isEmpty then none else readRoot [] ts
  if ts.all (· = .documentEnd) then return { root := some root } else none

namespace Document

/-- The document of a text. -/
def ofText? (s : String) : Option Document :=
  (Text.ofString? s).bind fun t => (Token.ofText? t).bind ofTokens?

/-- The node that an alias stands for; any other node stands for itself. -/
def target (d : Document) : Node → Option Node
  | .alias number => d.root.bind (Node.anchored? number)
  | node => some node

end Document
end Yaml
end Teardown
