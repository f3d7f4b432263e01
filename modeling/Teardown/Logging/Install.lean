/-
# Setting up logging

A process logs to one sink, which is set up once. What is set up is told to the
sink itself as its first event. Setting up a log file makes its directories and
the file, also when the process logs elsewhere already.

Key definitions: `Logging.Sink`, `Logging.State`, `Logging.State.install`,
`Logging.State.received`.
-/
import Teardown.Files
import Teardown.Logging.Config
import Teardown.Logging.Filter

namespace Teardown
namespace Logging

/-- Where the events of a process go. -/
inductive Sink where
  | stdout
  | stderr
  | file (place : Files.Place)
  deriving DecidableEq, Repr

/-- A log that is set up. -/
structure Installed where
  sink : Sink
  format : Format
  filter : Filter
  deriving DecidableEq, Repr

/-- What a process has set up so far: its log, and the log files it made. -/
structure State where
  /-- What is there. -/
  files : Files := {}
  made : List Files.Place := []
  installed : Option Installed := none
  /-- What the log was told while it was set up. -/
  told : List Event := []

/-- Why logging could not be set up. -/
inductive InstallError where
  /-- The log directory cannot be made. -/
  | directory
  /-- The log file cannot be opened. -/
  | file
  /-- The process has a log already. -/
  | taken
  deriving DecidableEq, Repr

def InstallError.message : InstallError → String
  | directory => "Failed to create log directory"
  | file => "initializing rolling file appender failed"
  | taken => "failed to install tracing subscriber"

/-! ### Log files -/

/-- The text that stands for the date in the name of a log file. -/
def datePlace : String := "DATE"

/-- The path of the log file of some settings. -/
def Config.file (c : Config) : String :=
  Files.join c.directory (if c.stem.isEmpty then datePlace else c.stem ++ "." ++ datePlace)

namespace State

/-- The filter of a process: the one that `RUST_LOG` holds, if it can be read, or
else the default one. -/
def filterOf (env : Environment) (c : Config) : Filter :=
  ((env.text? "RUST_LOG").bind Filter.parse?).getD [{ level := some (defaultLevel c.environment) }]

/-- Opens the sink of some settings. -/
def openSink (p : State) (c : Config) : Except InstallError (Sink × State) :=
  match c.output with
  | .stdout => .ok (.stdout, p)
  | .stderr => .ok (.stderr, p)
  | .file =>
      match p.files.makeDirectories c.directory with
      | none => .error .directory
      | some files =>
          match files.createFile c.file with
          | none => .error .file
          | some (place, files) =>
              let made := p.made.filter (· ≠ place) ++ [place]
              .ok (.file place, { p with files, made })

/-- Sets up logging. -/
def install (env : Environment) (c : Config) (p : State) : Except InstallError Unit × State :=
  match p.openSink c with
  | .error e => (.error e, p)
  | .ok (sink, p) =>
      match p.installed with
      | some _ => (.error .taken, p)
      | none =>
          let installed := { sink, format := c.format, filter := filterOf env c }
          let event := .loggingStarted c.environment c.format.describe c.output.describe
          (.ok (), { p with installed := some installed, told := p.told ++ [event] })

/-- Sets up logging so many times, with what came of each. -/
def installAll (env : Environment) (c : Config) : (times : Nat) → State →
    List (Except InstallError Unit) × State
  | 0, p => ([], p)
  | times + 1, p =>
      let (result, p) := p.install env c
      let (results, p) := installAll env c times p
      (result :: results, p)

/-- The events that reach a sink, when `events` follow the setting up. -/
def received (p : State) (sink : Sink) (events : List Event) : List Event :=
  match p.installed with
  | some i => if i.sink = sink then (p.told ++ events).filter i.filter.allows else []
  | none => []

end State
end Logging
end Teardown
