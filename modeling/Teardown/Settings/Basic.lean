/-
# Settings

What can be set about collectors: how many failures a round keeps, and
whether dropping a collector with a failure in it is told to the log.

Key definitions: `Settings`, `Settings.validate`, `Collector.ofSettings`.
-/
import Teardown.Collector.Basic
import Teardown.Json.Value

namespace Teardown

/-- The settings of a collector. -/
structure Settings where
  /-- Failures kept in a round, the primary one included. -/
  suppressedLimit : UInt64 := 5
  warnsOnDrop : Bool := true
  deriving DecidableEq, Repr

namespace Settings

/-- What is wrong with settings of no limit. -/
def limitMessage : String := "suppressed_limit must be at least 1"

/-- What is wrong with the settings, if anything. -/
def validate (c : Settings) : Option String :=
  if c.suppressedLimit = 0 then some limitMessage else none

/-- The settings as a JSON value. -/
def toJson (c : Settings) : Json :=
  .obj [("suppressed_limit", .nat c.suppressedLimit.toNat),
    ("warn_on_unraised_drop", .bool c.warnsOnDrop)]

/-- The settings' parts, for programmers. -/
def describe (c : Settings) : Described :=
  .record "DeferredConfig" [
    ("suppressed_limit", .number c.suppressedLimit.toNat),
    ("warn_on_unraised_drop", .flag c.warnsOnDrop)]

end Settings

/-- A collector with the given settings. -/
def Collector.ofSettings (c : Settings) : Collector :=
  Collector.withLimit { warnsOnDrop := c.warnsOnDrop } c.suppressedLimit.toNat

end Teardown
