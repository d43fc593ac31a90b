import UsagePolicy.Json.Magnitude
import UsagePolicy.Json.Parser
import UsagePolicy.Json.Printer
import UsagePolicy.Report
/-!
# Reports as JSON

The written form of a report and its parts, and how they are read. Fields that are not known are
ignored, and an optional field may be null.
-/

namespace UsagePolicy

def Outcome.ofJson? : Json → Option Outcome := Json.choice? all name

def Facet.ofJson? (f : Facet) : Json → Option Outcome := Json.choice? Outcome.all f.label

def Round.ofJson? : Json → Option Round := Json.choice? [first, second] name

def RuleKind.ofJson? : Json → Option RuleKind := Json.choice? all name

def AbortReason.ofJson? : Json → Option AbortReason := Json.choice? all code

def TraceKind.ofJson? : Json → Option TraceKind := Json.choice? all name

def VerdictStatus.ofJson? : Json → Option VerdictStatus := Json.choice? all name

def Timestamp.ofJson? (v : Json) : Option Timestamp := v.string?.bind parse?

def TraceEntry.toJson (e : TraceEntry) : Json :=
  .record [("kind", some (.string e.kind.name)), ("message", some (.string e.message))]

def TraceEntry.ofJson? (v : Json) : Option TraceEntry :=
  match v.fields? ["kind", "message"] with
  | some [some kind, some message] => return ⟨← TraceKind.ofJson? kind, ← message.string?⟩
  | _ => none

def Abort.toJson (a : Abort) : Json :=
  .record [("reason", some (.string a.reason.code)), ("subject", some (.string a.subject))]

def Abort.ofJson? (v : Json) : Option Abort :=
  match v.fields? ["reason", "subject"] with
  | some [some reason, some subject] => return ⟨← AbortReason.ofJson? reason, ← subject.string?⟩
  | _ => none

def VerdictReport.toJson (v : VerdictReport) : Json :=
  .record [("status", some (.string v.status.name)), ("state", v.state.map .string),
    ("outcome", v.outcome.map fun o => .string o.name), ("abort", v.abort.map Abort.toJson)]

def VerdictReport.ofJson? (v : Json) : Option VerdictReport :=
  match v.fields? ["status", "state", "outcome", "abort"] with
  | some [some status, state, outcome, abort] =>
    return ⟨← VerdictStatus.ofJson? status, ← Json.optional? Json.string? state,
      ← Json.optional? Outcome.ofJson? outcome, ← Json.optional? Abort.ofJson? abort⟩
  | _ => none

def Tool.toJson (t : Tool) : Json :=
  .record [("name", some (.string t.name)), ("version", some (.string t.version))]

def Tool.ofJson? (v : Json) : Option Tool :=
  match v.fields? ["name", "version"] with
  | some [some name, some version] => return ⟨← name.string?, ← version.string?⟩
  | _ => none

def ExpectationReport.toJson (e : ExpectationReport) : Json :=
  .record [("expected", some (.string e.expected)), ("matched", some (.bool e.matched))]

def ExpectationReport.ofJson? (v : Json) : Option ExpectationReport :=
  match v.fields? ["expected", "matched"] with
  | some [some expected, some matched] => return ⟨← expected.string?, ← matched.bool?⟩
  | _ => none

namespace CaseReport

def toJson (r : CaseReport) : Json :=
  .record [
    ("schema", some (.string r.schema)),
    ("tool", some r.tool.toJson),
    ("case", some (.string r.name)),
    ("description", r.description.map .string),
    ("policy", some (.string r.policy)),
    ("rule_id", some (.string r.rule)),
    ("rule_kind", some (.string r.kind.name)),
    ("round", some (.string r.round.name)),
    ("started_at", some (.string r.startedAt.render)),
    ("finished_at", some (.string r.finishedAt.render)),
    ("verdict", some r.verdict.toJson),
    ("expectation", r.expectation.map ExpectationReport.toJson),
    ("trace", some (.array (r.trace.map TraceEntry.toJson))),
    ("trace_digest", some (.string r.digest))]

def fieldNames : List String :=
  ["schema", "tool", "case", "description", "policy", "rule_id", "rule_kind", "round",
    "started_at", "finished_at", "verdict", "expectation", "trace", "trace_digest"]

def ofJson? (v : Json) : Option CaseReport :=
  match v.fields? fieldNames with
  | some [some schema, some tool, some name, description, some policy, some rule, some kind,
      some round, some startedAt, some finishedAt, some verdict, expectation, some trace,
      some digest] =>
    return {
      schema := ← schema.string?
      tool := ← Tool.ofJson? tool
      name := ← name.string?
      description := ← Json.optional? Json.string? description
      policy := ← policy.string?
      rule := ← rule.string?
      kind := ← RuleKind.ofJson? kind
      round := ← Round.ofJson? round
      startedAt := ← Timestamp.ofJson? startedAt
      finishedAt := ← Timestamp.ofJson? finishedAt
      verdict := ← VerdictReport.ofJson? verdict
      expectation := ← Json.optional? ExpectationReport.ofJson? expectation
      trace := ← (← trace.items?).mapM TraceEntry.ofJson?
      digest := ← digest.string?
    }
  | _ => none

/-- The text of a report. -/
def serialize (r : CaseReport) : String :=
  r.toJson.pretty

end CaseReport

/-- Why a text is not a case report. -/
inductive ReportError
  | notJson
  | unknownSchema (schema : String)
  | malformed
  deriving DecidableEq

/-- The messages of an error, outermost first. -/
def ReportError.chain : ReportError → List String
  | notJson => ["parse report json", "<json error>"]
  | unknownSchema schema =>
    [s!"unknown report schema: {schema} (expected {CaseReport.schemaName})"]
  | malformed => ["parse case report", "<json error>"]

/-- Reads the text of a report. Values lie in each other at most 127 deep. -/
def CaseReport.parse (text : String) : Except ReportError CaseReport :=
  match (Json.parse? 127 text).filter Json.inRange with
  | none => .error .notJson
  | some v =>
    let schema := ((v.get? "schema").bind Json.string?).getD ""
    if schema ≠ schemaName then .error (.unknownSchema schema)
    else
      match ofJson? v with
      | some r => .ok r
      | none => .error .malformed

end UsagePolicy
