/-
# Stored login statuses

A status is stored as its name in JSON.

Key definitions: `LoginStatus.encode`, `LoginStatus.decode`.
-/
import Teardown.Json.Reader
import Teardown.Json.Value
import Teardown.Login

namespace Teardown
namespace LoginStatus

/-- A status as JSON text. -/
def encode (status : LoginStatus) : String := (Json.str status.name).compact

/-- Reads a status from JSON text. -/
def decode (text : String) : Except Json.Fault LoginStatus :=
  Json.decode (Json.readName ofName? true) text

end LoginStatus
end Teardown
