import UsagePolicy.CaseFile.Resolve
import UsagePolicy.CommandLine.Options
/-!
# Invocations

The commands and the options that each of them takes. Some options hold for all commands, and may
stand before or behind the name of the command.
-/

namespace UsagePolicy.CommandLine

/-- Where a run writes, and which cases it evaluates. -/
structure RunOptions where
  patterns : List String
  outDir : String
  writesMarkdown : Bool
  markdownOut : String

inductive Command
  | run (options : RunOptions)
  | list
  | markdown (reports : List String) (output : Option String)
  | explain (identifier : String)

structure Invocation where
  cases : String
  overrides : Overrides
  command : Command

def helpRule : OptionRule :=
  { long := "help", short := some 'h', takesValue := false }

def commonRules : List OptionRule :=
  [helpRule, { long := "cases" }, { long := "profile" }, { long := "round" },
    { long := "verbose", short := some 'v', takesValue := false }]

/-- The options that can be given before a command. -/
def leadingRules : List OptionRule :=
  { long := "version", short := some 'V', takesValue := false } :: commonRules

def runRules : List OptionRule :=
  [{ long := "case", repeats := true }, { long := "out-dir" },
    { long := "write-markdown", takesValue := false }, { long := "markdown-out" }]

def markdownRules : List OptionRule :=
  [{ long := "report", repeats := true }, { long := "output", short := some 'o' }]

/-- The options that a command takes besides the common ones. -/
def commandRules? : String → Option (List OptionRule)
  | "run" => some runRules
  | "list" => some []
  | "md" => some markdownRules
  | "explain" => some []
  | _ => none

/-- The command of a name, from its options and arguments. -/
def command? (name : String) (f : Found) : Option Command :=
  match name, f.positionals with
  | "run", [] => some (.run {
      patterns := f.values "case"
      outDir := (f.value? "out-dir").getD "artifacts/odrl-eval"
      writesMarkdown := f.has "write-markdown"
      markdownOut := (f.value? "markdown-out").getD "artifacts/odrl-eval/summary.md" })
  | "list", [] => some .list
  | "md", [] =>
    match f.values "report" with
    | [] => none
    | reports => some (.markdown reports (f.value? "output"))
  | "explain", [identifier] => some (.explain identifier)
  | _, _ => none

/-- The value of a common option: what stands behind the command comes before what stands in front
of it. -/
def common? (leading within : Found) (long : String) : Option String :=
  within.value? long <|> leading.value? long

/-- What follows the word `help`: nothing, or a command. -/
def readHelp : List String → Interruption
  | [] | ["help"] => .help
  | [name] => if (commandRules? name).isSome then .help else .refused
  | _ => .refused

namespace Invocation

/-- Reads a command line without the name of the program. -/
def parse (arguments : List String) : Except Interruption Invocation := do
  let leading ← readArguments leadingRules false {} arguments
  match leading.rest with
  | [] => .error .refused
  | "help" :: rest => .error (readHelp rest)
  | name :: rest =>
    match commandRules? name with
    | none => .error .refused
    | some rules =>
      let within ← readArguments (commonRules ++ rules) true {} rest
      match command? name within with
      | none => .error .refused
      | some command =>
        return {
          cases := (common? leading within "cases").getD "odrl-eval.toml"
          overrides := ⟨common? leading within "profile", common? leading within "round"⟩
          command := command }

end Invocation

end UsagePolicy.CommandLine
