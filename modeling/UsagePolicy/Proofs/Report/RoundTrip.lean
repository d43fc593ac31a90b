import UsagePolicy.Proofs.Json.Records
import UsagePolicy.Proofs.Json.RoundTrip
import UsagePolicy.Proofs.Timestamps
import UsagePolicy.Report.Json
/-!
# Reports are read back

Each part of a report is written as a record without numbers, and read back from it. So is the whole
report, as long as it names the schema that is read; and a report that was read does.
-/

namespace UsagePolicy

/-! ## Names -/

theorem Outcome.ofJson?_name (o : Outcome) : ofJson? (.string o.name) = some o :=
  Json.choice?_string (by cases o <;> decide)

theorem Round.ofJson?_name (r : Round) : ofJson? (.string r.name) = some r :=
  Json.choice?_string (by cases r <;> decide)

theorem RuleKind.ofJson?_name (k : RuleKind) : ofJson? (.string k.name) = some k :=
  Json.choice?_string (by cases k <;> decide)

theorem AbortReason.ofJson?_code (r : AbortReason) : ofJson? (.string r.code) = some r :=
  Json.choice?_string (by cases r <;> decide)

theorem TraceKind.ofJson?_name (k : TraceKind) : ofJson? (.string k.name) = some k :=
  Json.choice?_string (by cases k <;> decide)

theorem VerdictStatus.ofJson?_name (s : VerdictStatus) : ofJson? (.string s.name) = some s :=
  Json.choice?_string (by cases s <;> decide)

theorem Timestamp.ofJson?_render (t : Timestamp) : ofJson? (.string t.render) = some t := by
  rw [ofJson?, Json.string?, Option.bind_some, parse?_render]

/-! ## Parts -/

theorem TraceEntry.ofJson?_toJson (e : TraceEntry) : ofJson? e.toJson = some e := by
  have hfields : e.toJson.fields? ["kind", "message"] =
      some [some (.string e.kind.name), some (.string e.message)] :=
    Json.fields?_record (by simp)
  unfold ofJson?
  rw [hfields]
  dsimp only
  rw [TraceKind.ofJson?_name]
  rfl

theorem Abort.ofJson?_toJson (a : Abort) : ofJson? a.toJson = some a := by
  have hfields : a.toJson.fields? ["reason", "subject"] =
      some [some (.string a.reason.code), some (.string a.subject)] :=
    Json.fields?_record (by simp)
  unfold ofJson?
  rw [hfields]
  dsimp only
  rw [AbortReason.ofJson?_code]
  rfl

theorem Json.optional?_string (text? : Option String) :
    Json.optional? Json.string? (text?.map .string) = some text? :=
  Json.optional?_map (fun text : String => (rfl : Json.string? (.string text) = some text))
    (fun _ => Json.noConfusion) text?

theorem VerdictReport.ofJson?_toJson (v : VerdictReport) : ofJson? v.toJson = some v := by
  have hfields : v.toJson.fields? ["status", "state", "outcome", "abort"] =
      some [some (.string v.status.name), v.state.map .string,
        v.outcome.map fun o => .string o.name, v.abort.map Abort.toJson] :=
    Json.fields?_record (by simp)
  have houtcome := Json.optional?_map Outcome.ofJson?_name (fun _ => Json.noConfusion) v.outcome
  have habort := Json.optional?_map Abort.ofJson?_toJson (fun _ => Json.noConfusion) v.abort
  unfold ofJson?
  rw [hfields]
  dsimp only
  rw [VerdictStatus.ofJson?_name, Json.optional?_string, houtcome, habort]
  rfl

theorem Tool.ofJson?_toJson (t : Tool) : ofJson? t.toJson = some t := by
  have hfields : t.toJson.fields? ["name", "version"] =
      some [some (.string t.name), some (.string t.version)] :=
    Json.fields?_record (by simp)
  unfold ofJson?
  rw [hfields]
  rfl

theorem ExpectationReport.ofJson?_toJson (e : ExpectationReport) : ofJson? e.toJson = some e := by
  have hfields : e.toJson.fields? ["expected", "matched"] =
      some [some (.string e.expected), some (.bool e.matched)] :=
    Json.fields?_record (by simp)
  unfold ofJson?
  rw [hfields]
  rfl

/-! ## Plain records -/

section

variable {height : Nat}

@[simp]
theorem TraceEntry.plain_toJson (e : TraceEntry) : Json.Plain (height + 1) e.toJson :=
  .record (by simp)

@[simp]
theorem Abort.plain_toJson (a : Abort) : Json.Plain (height + 1) a.toJson :=
  .record (by simp)

@[simp]
theorem Tool.plain_toJson (t : Tool) : Json.Plain (height + 1) t.toJson :=
  .record (by simp)

@[simp]
theorem ExpectationReport.plain_toJson (e : ExpectationReport) :
    Json.Plain (height + 1) e.toJson :=
  .record (by simp)

@[simp]
theorem VerdictReport.plain_toJson (v : VerdictReport) : Json.Plain (height + 2) v.toJson :=
  .record (by simp)

theorem CaseReport.plain_toJson (r : CaseReport) : Json.Plain (height + 3) r.toJson :=
  .record (by simp)

end

/-! ## Reports -/

namespace CaseReport

theorem fields?_toJson (r : CaseReport) :
    r.toJson.fields? fieldNames = some [some (.string r.schema), some r.tool.toJson,
      some (.string r.name), r.description.map .string, some (.string r.policy),
      some (.string r.rule), some (.string r.kind.name), some (.string r.round.name),
      some (.string r.startedAt.render), some (.string r.finishedAt.render),
      some r.verdict.toJson, r.expectation.map ExpectationReport.toJson,
      some (.array (r.trace.map TraceEntry.toJson)), some (.string r.digest)] :=
  Json.fields?_record (by simp)

theorem ofJson?_toJson (r : CaseReport) : ofJson? r.toJson = some r := by
  have hexpectation := Json.optional?_map ExpectationReport.ofJson?_toJson
    (fun _ => Json.noConfusion) r.expectation
  unfold ofJson?
  rw [r.fields?_toJson]
  dsimp only
  rw [Tool.ofJson?_toJson, Json.optional?_string, RuleKind.ofJson?_name, Round.ofJson?_name,
    Timestamp.ofJson?_render, Timestamp.ofJson?_render, VerdictReport.ofJson?_toJson, hexpectation]
  show (do
    let trace ← (r.trace.map TraceEntry.toJson).mapM TraceEntry.ofJson?
    some { r with trace }) = some r
  rw [Json.mapM_map TraceEntry.ofJson?_toJson]
  rfl

theorem get?_schema (r : CaseReport) : r.toJson.get? "schema" = some (.string r.schema) := by
  show Json.lookup? "schema" (Json.written _) = _
  exact Json.lookup?_written (by simp) List.mem_cons_self

/-- A plain value is read as a report from its text, if it names the schema. -/
theorem parse_pretty {height : Nat} {v : Json} {r : CaseReport} (hv : Json.Plain height v)
    (hheight : height ≤ 127)
    (hschema : ((v.get? "schema").bind Json.string?).getD "" = schemaName)
    (hread : ofJson? v = some r) : parse v.pretty = .ok r := by
  rw [parse, Json.parse?_pretty hv hheight, Option.filter_some, if_pos hv.inRange]
  dsimp only
  rw [hschema, if_neg (not_not.2 rfl), hread]

theorem parse_serialize (r : CaseReport) (h : r.schema = schemaName) :
    parse r.serialize = .ok r := by
  have hschema : ((r.toJson.get? "schema").bind Json.string?).getD "" = schemaName := by
    rw [r.get?_schema, ← h]
    rfl
  have hplain : Json.Plain 3 r.toJson := r.plain_toJson
  exact parse_pretty hplain (by decide) hschema r.ofJson?_toJson

/-- The schema of a report is that of the value it is read from. -/
theorem schema_of_ofJson? {v : Json} {r : CaseReport} (h : ofJson? v = some r) :
    ∃ schema fields, v.fields? fieldNames = some (some schema :: fields) ∧
      schema.string? = some r.schema := by
  unfold ofJson? at h
  split at h
  · next hfields =>
    obtain ⟨s, hs, h⟩ := Option.bind_eq_some_iff.1 h
    -- the other fields
    iterate 14 obtain ⟨_, -, h⟩ := Option.bind_eq_some_iff.1 h
    rw [← Option.some.inj h]
    exact ⟨_, _, hfields, hs⟩
  · cases h

/-- The schema that is looked up first is the one that the report has. -/
theorem schema_eq {v : Json} {r : CaseReport} (h : ofJson? v = some r)
    (hknown : ((v.get? "schema").bind Json.string?).getD "" = schemaName) :
    r.schema = schemaName := by
  obtain ⟨schema, fields, hfields, hstring⟩ := schema_of_ofJson? h
  cases v with
  | object members =>
      have hlookup : Json.lookup? "schema" members = some schema :=
        (List.cons.inj (Option.some.inj hfields)).1
      rw [Json.get?, hlookup, Option.bind_some, hstring] at hknown
      exact hknown
  -- nothing else has a schema to look up, also the array of all fields has none
  | array items =>
      have hempty : "" = schemaName := hknown
      exact absurd hempty (by decide)
  | _ => cases hfields

/-- Only reports of the known schema are read. -/
theorem schema_of_parse {text : String} {r : CaseReport} (h : parse text = .ok r) :
    r.schema = schemaName := by
  unfold parse at h
  split at h
  · cases h
  · dsimp only at h
    split at h
    · cases h
    · next hknown =>
      split at h
      · next hread =>
        rw [← Except.ok.inj h]
        exact schema_eq hread (not_not.1 hknown)
      · cases h

/-- A report of the known schema is read back from its text. So is every report that some text was
read as: other members, repetitions, order and layout of that text do not matter any more. -/
theorem parse_serialize_roundTrip (r : CaseReport) :
    (r.schema = schemaName → parse r.serialize = .ok r) ∧
      ∀ text, parse text = .ok r → parse r.serialize = .ok r := by
  refine ⟨r.parse_serialize, fun text h => ?_⟩
  exact r.parse_serialize (schema_of_parse h)

/-- A report whose strings need escapes, with times that have a fraction or an offset. -/
def escapedReport : CaseReport where
  schema := schemaName
  tool := ⟨"odrl-eval", "0.1.0"⟩
  name := "camera \"A\" \\ 📷\n\x01"
  description := none
  policy := "urn:policy"
  rule := "urn:rule"
  kind := .permission
  round := .first
  startedAt := ⟨2026, 1, 2, 3, 4, 5, 120000000, -30, by decide⟩
  finishedAt := ⟨2026, 1, 2, 3, 4, 6, 0, 0, by decide⟩
  verdict := ⟨.aborted, none, none, some ⟨.missingAction, "urn:rule"⟩⟩
  expectation := some ⟨"Allowed", false⟩
  trace := [⟨.error, "tab\there"⟩]
  digest := ""

/-- The same report in another order, with a member given twice, one that is not known, an optional
one that is null, and a part that is written as an array. -/
def escapedReportValue : Json :=
  .object [
    ("note", .array [.bool true, .null]),
    ("trace", .array [.object [("message", .string "tab\there"), ("kind", .string "error")]]),
    ("case", .string "camera"),
    ("schema", .string schemaName),
    ("tool", .array [.string "odrl-eval", .string "0.1.0"]),
    ("case", .string escapedReport.name),
    ("description", .null),
    ("policy", .string "urn:policy"),
    ("rule_id", .string "urn:rule"),
    ("rule_kind", .string "permission"),
    ("round", .string "1"),
    ("started_at", .string "2026-01-02t03:04:05.1200-00:30"),
    ("finished_at", .string "2026-01-02T03:04:06+00:00"),
    ("expectation", .object [("matched", .bool false), ("expected", .string "Allowed")]),
    ("verdict", .object [
      ("abort", .object [("reason", .string "missing_action"), ("subject", .string "urn:rule")]),
      ("status", .string "aborted")]),
    ("trace_digest", .string "")]

/-- Another report with an optional part more and one less, and what a text was read as. -/
theorem parse_serialize_roundTrip_escaped :
    let described := { escapedReport with description := some "\u2028", expectation := none }
    (described.schema = schemaName ∧ parse described.serialize = .ok described) ∧
      parse escapedReportValue.pretty = .ok escapedReport ∧
      parse escapedReport.serialize = .ok escapedReport := by
  intro described
  have hplain : Json.Plain 3 escapedReportValue := by
    simp [escapedReportValue]
  have hread : parse escapedReportValue.pretty = .ok escapedReport :=
    parse_pretty hplain (by decide) rfl (by decide +kernel)
  have hdescribed := (parse_serialize_roundTrip described).1 rfl
  exact ⟨⟨rfl, hdescribed⟩, hread, (parse_serialize_roundTrip escapedReport).2 _ hread⟩

end CaseReport

end UsagePolicy
