/-
# Stored settings

Settings as JSON and YAML text. What is left out keeps its default, and
members with other names do not matter. In JSON the settings may also be given
as an array of their values in order.

Key definitions: `Settings.encodeJson`, `Settings.encodeYaml`,
`Settings.decodeJson`, `Settings.decodeYaml`.
-/
import Teardown.Json.Reader
import Teardown.Settings.Basic
import Teardown.Text.Digits
import Teardown.Yaml.Document

namespace Teardown
namespace Settings

/-- The settings as compact JSON text. -/
def encodeJson (c : Settings) : String := c.toJson.compact

/-- The settings as YAML text. -/
def encodeYaml (c : Settings) : String :=
  "suppressed_limit: " ++ toString c.suppressedLimit.toNat ++ "\nwarn_on_unraised_drop: " ++
    (if c.warnsOnDrop then "true" else "false") ++ "\n"

/-- What was read of settings so far. -/
structure Draft where
  limit : Option UInt64 := none
  warns : Option Bool := none
  deriving DecidableEq, Repr

/-- The settings of a draft: what was not given has its default. -/
def Draft.settings (d : Draft) : Settings :=
  let plain : Settings := {}
  { suppressedLimit := d.limit.getD plain.suppressedLimit
    warnsOnDrop := d.warns.getD plain.warnsOnDrop }

/-! ### JSON -/

/-- The fields of settings in JSON. -/
def jsonFields : List (Json.Field Draft) := [
  { name := "suppressed_limit", given := (·.limit.isSome)
    read := fun d => do return { d with limit := some (UInt64.ofNat (← Json.readNatural)) } },
  { name := "warn_on_unraised_drop", given := (·.warns.isSome)
    read := fun d => do return { d with warns := some (← Json.readBool) } }]

/-- Reads settings from JSON text. -/
def decodeJson (text : String) : Except Json.Fault Settings :=
  Json.decode (Json.readRecord (some jsonFields) {} fun d => .ok d.settings) text

/-! ### YAML -/

/-- The limit of a plain scalar: decimal digits that do not start with a needless
zero, or hexadecimal, octal or binary ones after their mark; a plus sign may
come first. -/
def yamlLimit? (s : String) : Option UInt64 :=
  let unsigned :=
    match s.toList with
    | '+' :: rest => rest
    | cs => cs
  let value :=
    match unsigned with
    | '0' :: 'x' :: ds => Text.natural? 16 UInt64.size ds
    | '0' :: 'o' :: ds => Text.natural? 8 UInt64.size ds
    | '0' :: 'b' :: ds => Text.natural? 2 UInt64.size ds
    | '0' :: _ :: _ => none
    | ds => Text.decimal? UInt64.size ds
  value.map UInt64.ofNat

/-- The truth value of a plain scalar. -/
def yamlFlag? (s : String) : Option Bool :=
  if s ∈ ["true", "True", "TRUE"] then some true
  else if s ∈ ["false", "False", "FALSE"] then some false
  else none

/-- The text that stands for a value of a type: that of a plain scalar, or of a
literal block that is tagged with the type. -/
def typedText? (type : Yaml.Octets) : Yaml.Node → Option String
  | .scalar _ .plain _ text => some text
  | .scalar _ .literal (some tag) text => if tag = type then some text else none
  | _ => none

/-- The tag of numbers. -/
def numberTag : Yaml.Octets := Yaml.octets "tag:yaml.org,2002:int"

/-- The tag of truth values. -/
def flagTag : Yaml.Octets := Yaml.octets "tag:yaml.org,2002:bool"

/-- Takes a member of a mapping. A key must be a scalar, and the two known ones
may come once each. -/
def takeMember (document : Yaml.Document) (d : Draft) (key value : Yaml.Node) : Option Draft := do
  match ← document.target key with
  | .scalar _ _ _ "suppressed_limit" =>
      if d.limit.isSome then none
      let limit ← (typedText? numberTag (← document.target value)).bind yamlLimit?
      return { d with limit := some limit }
  | .scalar _ _ _ "warn_on_unraised_drop" =>
      if d.warns.isSome then none
      let flag ← (typedText? flagTag (← document.target value)).bind yamlFlag?
      return { d with warns := some flag }
  | .scalar .. => return d
  | _ => none

/-- The settings of a YAML document, of which an empty one has the defaults. -/
def ofDocument? (document : Yaml.Document) : Option Settings :=
  match document.root with
  | none => some {}
  | some (.scalar _ .plain _ "") => some {}
  | some (.mapping _ members) =>
      (members.foldlM (fun d (key, value) => takeMember document d key value) {}).map
        Draft.settings
  | some _ => none

/-- Reads settings from YAML text of at most one document. -/
def decodeYaml (text : String) : Option Settings :=
  (Yaml.Document.ofText? text).bind ofDocument?

end Settings
end Teardown
