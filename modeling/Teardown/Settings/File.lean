/-
# Settings files

Settings are loaded from a file whose extension says how it is written. The
settings must be valid.

Key definitions: `Settings.Entry`, `Settings.LoadError`, `Settings.load`.
-/
import Teardown.Settings.Stored
import Teardown.Text.Lowered
import Teardown.Text.Quoted

namespace Teardown
namespace Settings

/-- What a path leads to. -/
inductive Entry where
  | missing
  | directory
  | file (contents : ByteArray)

/-- Why settings could not be loaded from a path. -/
inductive LoadError where
  | missing (path : String)
  /-- The path leads to a directory or to a file that is not UTF-8. -/
  | unreadable (path : String)
  | malformedYaml (path : String)
  | malformedJson (path : String)
  | unsupported (extension : String)
  | invalid (message : String)
  deriving DecidableEq, Repr

/-- The error in one line. -/
def LoadError.message : LoadError → String
  | missing path => "config file " ++ Text.quote path ++ " does not exist"
  | unreadable path => "failed to read config file " ++ Text.quote path
  | malformedYaml path => "failed to parse YAML config " ++ Text.quote path
  | malformedJson path => "failed to parse JSON config " ++ Text.quote path
  | unsupported extension => "unsupported config extension: " ++ extension
  | invalid message => message

/-! ### Extensions -/

/-- The last part of a path, unless the path ends by going up. -/
def fileName? (path : List Char) : Option (List Char) :=
  match ((path.splitOn '/').filter fun part => part ≠ [] ∧ part ≠ ['.']).getLast? with
  | some ['.', '.'] => none
  | name => name

/-- What follows the last dot of a file name, unless that is its first character. -/
def extensionOf (name : List Char) : List Char :=
  let after := name.reverse.takeWhile (· ≠ '.')
  if name.length ≤ after.length + 1 then [] else after.reverse

/-- The extension of a path without regard to capitals. -/
def extension (path : String) : String :=
  match fileName? path.toList with
  | some name => Text.lowered (String.ofList (extensionOf name))
  | none => ""

/-! ### Loading -/

/-- Reads settings as the extension says. -/
def parse (path ext contents : String) : Except LoadError Settings :=
  if ext = "yaml" ∨ ext = "yml" then
    match decodeYaml contents with
    | some c => .ok c
    | none => .error (.malformedYaml path)
  else if ext = "json" then
    match decodeJson contents with
    | .ok c => .ok c
    | .error _ => .error (.malformedJson path)
  else .error (.unsupported ext)

/-- Loads valid settings from what a path leads to. -/
def load (path : String) : Entry → Except LoadError Settings
  | .missing => .error (.missing path)
  | .directory => .error (.unreadable path)
  | .file contents =>
      match String.fromUTF8? contents with
      | none => .error (.unreadable path)
      | some text => do
          let c ← parse path (extension path) text
          match c.validate with
          | none => return c
          | some message => throw (.invalid message)

end Settings
end Teardown
