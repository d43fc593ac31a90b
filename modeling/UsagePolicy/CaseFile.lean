import Std.Data.TreeMap
import UsagePolicy.Json.Value
import UsagePolicy.Toml.Parser
/-!
# Case files

A case file names the rules to evaluate, the policies they stand in, and the presets that answer
for their leaves. Labels are kept as they are written: they are read when the cases are resolved.
-/

namespace UsagePolicy

structure PresetEntries where
  defaults : Std.TreeMap String String := ∅
  instances : Std.TreeMap String String := ∅

structure CaseEntry where
  policy : String
  rule : String
  kind : Option String := none
  round : Option String := none
  expect : Option String := none
  description : Option String := none
  presets : PresetEntries := {}

structure CaseFile where
  schema : Option String := none
  profile : Option String := none
  round : Option String := none
  defaults : Std.TreeMap String String := ∅
  cases : Std.TreeMap String CaseEntry := ∅

namespace Toml

def lookup? (key : String) (entries : List (String × Toml)) : Option Toml :=
  (entries.find? (·.1 == key)).map (·.2)

/-- Reads a field that may be left out. -/
def optional? {α : Type} (read : Toml → Option α) (v : Option Toml) : Option (Option α) :=
  match v with
  | none => some none
  | some v => (read v).map some

/-- Reads a table whose keys are free. -/
def map? {α : Type} (read : Toml → Option α) (v : Toml) : Option (Std.TreeMap String α) :=
  v.entries?.bind fun entries =>
    entries.foldlM (fun m e => (read e.2).map fun a => m.insert e.1 a) ∅

/-- The values of a record's fields. A record is written as a table, in which other keys are
ignored, or as the array of its first fields in order. -/
def fields? (names : List String) : Toml → Option (List (Option Toml))
  | table entries => some (names.map (lookup? · entries))
  | array items => some ((items.map some ++ names.map fun _ => none).take names.length)
  | _ => none

end Toml

def PresetEntries.ofToml? (v : Toml) : Option PresetEntries :=
  match v.fields? ["defaults", "instances"] with
  | some [defaults, instances] => do
    return {
      defaults := (← Toml.optional? (Toml.map? Toml.string?) defaults).getD ∅
      instances := (← Toml.optional? (Toml.map? Toml.string?) instances).getD ∅ }
  | _ => none

def CaseEntry.ofToml? (v : Toml) : Option CaseEntry :=
  match v.fields? ["policy", "rule", "kind", "round", "expect", "description", "presets"] with
  | some [some policy, some rule, kind, round, expect, description, presets] => do
    return {
      policy := ← policy.string?
      rule := ← rule.string?
      kind := ← Toml.optional? Toml.string? kind
      round := ← Toml.optional? Toml.string? round
      expect := ← Toml.optional? Toml.string? expect
      description := ← Toml.optional? Toml.string? description
      presets := (← Toml.optional? PresetEntries.ofToml? presets).getD {} }
  | _ => none

namespace CaseFile

def ofToml? (v : Toml) : Option CaseFile :=
  match v.fields? ["schema", "profile", "round", "defaults", "cases"] with
  | some [schema, profile, round, defaults, cases] => do
    return {
      schema := ← Toml.optional? Toml.string? schema
      profile := ← Toml.optional? Toml.string? profile
      round := ← Toml.optional? Toml.string? round
      defaults := (← Toml.optional? (Toml.map? Toml.string?) defaults).getD ∅
      cases := (← Toml.optional? (Toml.map? CaseEntry.ofToml?) cases).getD ∅ }
  | _ => none

/-- Reads the text of a case file. -/
def parse? (text : String) : Option CaseFile :=
  (Toml.parse? text).bind ofToml?

end CaseFile

/-- The texts by their keys, unless there are none. -/
def Json.ofTexts? (m : Std.TreeMap String String) : Option Json :=
  if m.isEmpty then none else some (.object (m.toList.map fun e => (e.1, .string e.2)))

def CaseEntry.toJson (c : CaseEntry) : Json :=
  .record [
    ("policy", some (.string c.policy)),
    ("rule", some (.string c.rule)),
    ("kind", c.kind.map .string),
    ("round", c.round.map .string),
    ("expect", c.expect.map .string),
    ("description", c.description.map .string),
    ("presets", some (.record [
      ("defaults", Json.ofTexts? c.presets.defaults),
      ("instances", Json.ofTexts? c.presets.instances)]))]

/-- A case file as it was read; what is absent or empty is left out. -/
def CaseFile.toJson (f : CaseFile) : Json :=
  .record [
    ("schema", f.schema.map .string),
    ("profile", f.profile.map .string),
    ("round", f.round.map .string),
    ("defaults", Json.ofTexts? f.defaults),
    ("cases", some (.object (f.cases.toList.map fun e => (e.1, e.2.toJson))))]

end UsagePolicy
