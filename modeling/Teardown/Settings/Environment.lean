/-
# Settings from the environment

Two variables override the defaults. A value that cannot be read is ignored,
and white space around it does not matter.

Key definitions: `Settings.readLimit?`, `Settings.readFlag?`, `Settings.ofEnvironment`.
-/
import Teardown.Environment
import Teardown.Settings.Basic
import Teardown.Text.Blank
import Teardown.Text.Digits
import Teardown.Text.Lowered

namespace Teardown
namespace Settings

/-- The variable of the limit. -/
def limitVariable : String := "DEFERRED_SUPPRESSED_LIMIT"

/-- The variable of the warning. -/
def warningVariable : String := "DEFERRED_WARN_ON_UNRAISED_DROP"

/-- A limit as text: decimal digits, which may follow a plus sign. -/
def readLimit? (s : String) : Option UInt64 :=
  let digits :=
    match Text.trim s.toList with
    | '+' :: ds => ds
    | ds => ds
  (Text.decimal? UInt64.size digits).map UInt64.ofNat

/-- A truth value as text, in capitals or not. -/
def readFlag? (s : String) : Option Bool :=
  let word := Text.lowered (String.ofList (Text.trim s.toList))
  if word ∈ ["1", "true", "yes", "on"] then some true
  else if word ∈ ["0", "false", "no", "off"] then some false
  else none

/-- The defaults, overridden by the environment. -/
def ofEnvironment (env : Environment) : Settings :=
  let plain : Settings := {}
  { suppressedLimit := ((env.text? limitVariable).bind readLimit?).getD plain.suppressedLimit
    warnsOnDrop := ((env.text? warningVariable).bind readFlag?).getD plain.warnsOnDrop }

end Settings
end Teardown
