/-
# Login errors

A rejected login: who, why, and what the server said.

Key definitions: `LoginStatus`, `LoginError`, `LoginError.display`.
-/
import Teardown.Text.Described

namespace Teardown

/-- Why a login attempt was rejected. -/
inductive LoginStatus where
  | unknown
  | invalidCredential
  | notFound
  | invalidType
  | inactive
  deriving DecidableEq, Repr

namespace LoginStatus

/-- Every status. -/
def all : List LoginStatus := [unknown, invalidCredential, notFound, invalidType, inactive]

/-- The status as it is shown and stored. -/
def name : LoginStatus → String
  | unknown => "unknown"
  | invalidCredential => "invalid_credential"
  | notFound => "not_found"
  | invalidType => "invalid_type"
  | inactive => "inactive"

/-- The status of a stored name. -/
def ofName? (s : String) : Option LoginStatus := all.find? fun k => k.name = s

/-- The status as it stands in descriptions. -/
def describe : LoginStatus → String
  | unknown => "Unknown"
  | invalidCredential => "InvalidCredential"
  | notFound => "NotFound"
  | invalidType => "InvalidType"
  | inactive => "Inactive"

theorem ofName?_name (k : LoginStatus) : ofName? k.name = some k := by
  cases k <;> decide

end LoginStatus

/-- A rejected login. A status that was not given is `unknown`. -/
structure LoginError where
  status : LoginStatus := .unknown
  userName : String
  message : String
  deriving DecidableEq, Repr

namespace LoginError

/-- The error in one line. -/
def display (e : LoginError) : String :=
  "login failed for user '" ++ e.userName ++ "' (" ++ e.status.name ++ "): " ++ e.message

/-- The error's parts, for programmers. -/
def describe (e : LoginError) : Described :=
  .record "UserLoginError" [
    ("status", .atom e.status.describe),
    ("user_name", .text e.userName),
    ("message", .text e.message)]

end LoginError
end Teardown
