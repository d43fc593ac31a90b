import UsagePolicy.CaseFile
import UsagePolicy.Expectation
import UsagePolicy.Oracle
import UsagePolicy.Round
/-!
# Resolving a case file

Every label is read and every layer applied: profile, file defaults, case presets; override, case
and file round. The first fault in this order is reported, and cases are taken in name order.
-/

namespace UsagePolicy

/-- What the command line sets in place of the case file. -/
structure Overrides where
  profile : Option String := none
  round : Option String := none

structure ResolvedCase where
  name : String
  description : Option String
  policy : String
  rule : String
  kind : Option RuleKind
  round : Round
  presets : Presets
  expect : Option Expectation

structure ResolvedCases where
  profile : Profile
  cases : List ResolvedCase

/-- A default that is not one. -/
inductive DefaultFault
  | unknownCategory (fault : UnknownLabel)
  | unknownOutcome (category : Category) (fault : UnknownLabel)
  deriving DecidableEq

def DefaultFault.message : DefaultFault → String
  | unknownCategory fault =>
    let names := ", ".intercalate (Category.all.map Category.name)
    s!"unknown category: {fault.text} (expected one of {names}): {fault.message}"
  | unknownOutcome category fault => s!"invalid default for {category.name}: {fault.message}"

/-- Why a case file cannot be resolved. -/
inductive ResolveError
  | schema (text : String)
  | profile (text : String)
  | defaults (fault : DefaultFault)
  | overrideRound (text : String)
  | fileRound (text : String)
  | caseRound (case : String) (text : String)
  | caseKind (case : String) (fault : UnknownLabel)
  | caseDefaults (case : String) (fault : DefaultFault)
  | caseInstance (case : String) (node : String) (fault : UnknownLabel)
  | caseExpectation (case : String) (fault : ExpectationFault)
  | caseRule (case : String)
  deriving DecidableEq

def CaseFile.schemaName : String := "odrl-eval.cases.v1"

def ResolveError.roundMessage (text : String) : String :=
  s!"unknown round: {text} (expected '1' or '2')"

def ResolveError.message : ResolveError → String
  | schema text => s!"unsupported schema: {text} (expected {CaseFile.schemaName})"
  | profile text => Profile.unknownMessage text
  | defaults fault => s!"invalid [defaults]: {fault.message}"
  | overrideRound text => s!"invalid round override: {ResolveError.roundMessage text}"
  | fileRound text => s!"invalid top-level round: {ResolveError.roundMessage text}"
  | caseRound case text => s!"invalid round for {case}: {ResolveError.roundMessage text}"
  | caseKind case fault => s!"invalid kind for {case}: {fault.message}"
  | caseDefaults case fault => s!"invalid presets.defaults for {case}: {fault.message}"
  | caseInstance case node fault => s!"invalid preset for {node} in {case}: {fault.message}"
  | caseExpectation case fault => s!"invalid expect for {case}: {fault.message}"
  | caseRule case => s!"case {case} has an empty rule id"

/-- Sets the defaults that are written down, in the order of their keys. -/
def Presets.withDefaults (p : Presets) (entries : List (String × String)) :
    Except DefaultFault Presets :=
  entries.foldlM (fun p entry =>
    match Category.ofName entry.1 with
    | .error fault => .error (.unknownCategory fault)
    | .ok category =>
      match Outcome.ofLabel entry.2 with
      | .error fault => .error (.unknownOutcome category fault)
      | .ok outcome => .ok (p.setDefault category outcome)) p

/-- Sets the presets of nodes that are written down; a fault is reported with its node. -/
def Presets.withInstances (p : Presets) (entries : List (String × String)) :
    Except (String × UnknownLabel) Presets :=
  entries.foldlM (fun p entry =>
    match Outcome.ofLabel entry.2 with
    | .error fault => .error (entry.1, fault)
    | .ok outcome => .ok (p.setInstance entry.1 outcome)) p

/-- Reads a label that may be left out. -/
def readOptional {α ε : Type} (read : String → Except ε α) : Option String → Except ε (Option α)
  | none => .ok none
  | some text => (read text).map some

/-- The round of a case: the override, else its own, else that of the file, else the first. -/
def CaseEntry.resolveRound (name : String) (entry : CaseEntry) (override file : Option Round) :
    Except ResolveError Round :=
  match override, entry.round with
  | some round, _ => .ok round
  | none, some text => (Round.ofLabel text).mapError fun _ => .caseRound name text
  | none, none => .ok (file.getD .first)

def CaseEntry.resolve (name : String) (entry : CaseEntry) (base : Presets)
    (override file : Option Round) : Except ResolveError ResolvedCase := do
  let round ← entry.resolveRound name override file
  let kind ← (readOptional RuleKind.ofLabel entry.kind).mapError (.caseKind name)
  let presets ← (base.withDefaults entry.presets.defaults.toList).mapError (.caseDefaults name)
  let presets ← (presets.withInstances entry.presets.instances.toList).mapError
    fun fault => .caseInstance name fault.1 fault.2
  let expect ← (readOptional Expectation.parse entry.expect).mapError (.caseExpectation name)
  if Text.isBlankText entry.rule then .error (.caseRule name)
  else
    return {
      name := name
      description := entry.description
      policy := entry.policy
      rule := entry.rule
      kind := kind
      round := round
      presets := presets
      expect := expect }

namespace CaseFile

/-- The profile to begin with: the override, else that of the file, else the blank one. -/
def resolveProfile (file : CaseFile) (o : Overrides) : Except ResolveError Profile :=
  let text := (o.profile <|> file.profile).getD Profile.blank.name
  match Profile.ofName? text with
  | some profile => .ok profile
  | none => .error (.profile text)

/-- Reads the round that holds for all cases. -/
def readRound (fault : String → ResolveError) (text : String) : Except ResolveError Round :=
  (Round.ofLabel text).mapError fun _ => fault text

def resolve (file : CaseFile) (o : Overrides) : Except ResolveError ResolvedCases := do
  match file.schema with
  | some schema => if schema ≠ schemaName then throw (.schema schema)
  | none => pure ()
  let profile ← file.resolveProfile o
  let base ← (profile.presets.withDefaults file.defaults.toList).mapError .defaults
  let override ← readOptional (readRound .overrideRound) o.round
  let fileRound ← readOptional (readRound .fileRound) file.round
  let cases ← file.cases.toList.mapM fun entry =>
    entry.2.resolve entry.1 base override fileRound
  return ⟨profile, cases⟩

end CaseFile

/-- A case on a line of its own: name, rule, kind, round and expectation between tabs. -/
def ResolvedCase.line (c : ResolvedCase) : String :=
  "\t".intercalate [c.name, c.rule, (c.kind.map RuleKind.name).getD "auto", c.round.name,
    (c.expect.map Expectation.text).getD "-"]

end UsagePolicy
