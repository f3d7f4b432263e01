/-
# Stored kinds and reports

A kind as JSON is its name. A report is an object with the kind's name and the
message, and the causes, the suppressed reports and the mark of elision where
there are any. What is left out of the text is empty or false when it is read.

Key definitions: `FailureKind.encode`, `FailureKind.decode`, `Report.toJson`,
`Report.encode`, `Report.decode`.
-/
import Teardown.Failure.Report
import Teardown.Json.Reader
import Teardown.Json.Value

namespace Teardown

namespace FailureKind

/-- A kind as JSON text. -/
def encode (kind : FailureKind) : String := (Json.str kind.name).compact

/-- Reads a kind from JSON text. -/
def decode (text : String) : Except Json.Fault FailureKind :=
  Json.decode (Json.readName ofName? true) text

end FailureKind

namespace Report

mutual

/-- A report as a JSON value. -/
def toJson : Report → Json
  | { kind, message, causes, suppressed, elided } =>
      .obj ([("kind", .str kind.name), ("message", .str message)] ++
        (if causes.isEmpty then [] else [("causes", .arr (causes.map .str))]) ++
        (if suppressed.isEmpty then [] else [("suppressed", .arr (toJsonAll suppressed))]) ++
        (if elided then [("elided", .bool true)] else []))

/-- Each report as a JSON value. -/
def toJsonAll : List Report → List Json
  | [] => []
  | r :: rest => r.toJson :: toJsonAll rest

end

/-- A report as compact JSON text. -/
def encode (r : Report) : String := r.toJson.compact

/-- What was read of a report so far. -/
structure Draft where
  kind : Option FailureKind := none
  message : Option String := none
  causes : Option (List String) := none
  suppressed : Option (List Report) := none
  elided : Option Bool := none

/-- The report of a draft: kind and message must have been given. -/
def Draft.finish (d : Draft) : Except Json.Fault Report :=
  match d.kind, d.message with
  | some kind, some message =>
      .ok { kind, message, causes := d.causes.getD [], suppressed := d.suppressed.getD []
            elided := d.elided.getD false }
  | _, _ => .error .mismatch

/-- The fields of a report, where `nested` says whether arrays and objects may
be opened below it and `below` reads a suppressed report. -/
def fields (nested : Bool) (below : Option (Json.Reader Report)) : List (Json.Field Draft) := [
  { name := "kind", given := (·.kind.isSome)
    read := fun d => do return { d with kind := some (← Json.readName FailureKind.ofName? nested) } },
  { name := "message", given := (·.message.isSome)
    read := fun d => do return { d with message := some (← Json.readText) } },
  { name := "causes", given := (·.causes.isSome)
    read := fun d => do
      return { d with causes := some (← Json.readList (if nested then some Json.readText else none)) } },
  { name := "suppressed", given := (·.suppressed.isSome)
    read := fun d => do return { d with suppressed := some (← Json.readList below) } },
  { name := "elided", given := (·.elided.isSome)
    read := fun d => do return { d with elided := some (← Json.readBool) } }]

/-- Takes a report, opening at most `levels` arrays and objects within each
other. A suppressed report lies two levels further down. -/
def readWithin : (levels : Nat) → Json.Reader Report
  | 0 => Json.readRecord none {} Draft.finish
  | 1 => Json.readRecord (some (fields false none)) {} Draft.finish
  | levels + 2 => Json.readRecord (some (fields true (some (readWithin levels)))) {} Draft.finish

/-- Reads a report from JSON text. -/
def decode (text : String) : Except Json.Fault Report :=
  Json.decode (readWithin Json.nestingLimit) text

end Report
end Teardown
