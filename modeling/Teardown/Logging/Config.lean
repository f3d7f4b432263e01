/-
# Logging settings

How and where events are logged. In production they are logged as JSON and
from level info on, elsewhere in full and from level debug on; variables of the
environment override the format and the output.

Key definitions: `Logging.Config`, `Logging.Config.ofDefaults`,
`Logging.Config.ofEnvironment`, `Logging.Config.defaultFilter`.
-/
import Teardown.Environment
import Teardown.Event
import Teardown.Text.Lowered

namespace Teardown
namespace Logging

/-- How an event is written. -/
inductive Format where
  | json
  | pretty
  deriving DecidableEq, Repr

/-- Where events are written. -/
inductive Output where
  | stdout
  | stderr
  | file
  deriving DecidableEq, Repr

def Format.describe : Format → String
  | .json => "Json"
  | .pretty => "Pretty"

def Output.describe : Output → String
  | .stdout => "Stdout"
  | .stderr => "Stderr"
  | .file => "File"

/-- Settings of the log. -/
structure Config where
  format : Format
  output : Output := .stderr
  /-- The directory of log files. -/
  directory : String := "logs"
  /-- What the names of log files start with. -/
  stem : String := "deferred-failure"
  environment : String
  deriving DecidableEq, Repr

/-- Whether an environment is a production one. -/
def isProduction (environment : String) : Bool :=
  environment = "production" || environment = "prod"

/-- The level from which on an environment logs if nothing else is said. -/
def defaultLevel (environment : String) : Level :=
  if isProduction environment then .info else .debug

/-- The format of a name, in capitals or not. No letter of a name here or below
is the lower case of a character beyond ASCII. -/
def format? (s : String) : Option Format :=
  if Text.lowered s = "json" then some .json
  else if Text.lowered s = "pretty" then some .pretty
  else none

/-- The output of a name, in capitals or not. -/
def output? (s : String) : Option Output :=
  if Text.lowered s = "stdout" then some .stdout
  else if Text.lowered s = "stderr" then some .stderr
  else if Text.lowered s = "file" then some .file
  else none

namespace Config

/-- The settings that follow from the kind of environment alone. -/
def ofDefaults (env : Environment) : Config :=
  let environment := ((env.text? "ENVIRONMENT").or (env.text? "ENV")).getD "development"
  { format := if isProduction environment then .json else .pretty, environment }

/-- The settings of an environment. A format or output of another name is
ignored. -/
def ofEnvironment (env : Environment) : Config :=
  let plain := ofDefaults env
  { plain with
    format := ((env.text? "LOG_FORMAT").bind format?).getD plain.format
    output := ((env.text? "LOG_OUTPUT").bind output?).getD plain.output
    directory := (env.text? "LOG_DIR").getD plain.directory }

/-- The name of the level from which on events are logged by default. -/
def defaultFilter (c : Config) : String :=
  match defaultLevel c.environment with
  | .info => "info"
  | _ => "debug"

end Config
end Logging
end Teardown
