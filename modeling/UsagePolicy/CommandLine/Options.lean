/-!
# Options of a command line

Options are long, after two hyphens, or single letters, of which several may stand together. A value
is the next argument or what follows an equals sign, and for a letter what follows it at once.
-/

namespace UsagePolicy.CommandLine

/-- An option that can be given. -/
structure OptionRule where
  long : String
  short : Option Char := none
  takesValue : Bool := true
  repeats : Bool := false

/-- What ends the reading of a command line before its command is known. -/
inductive Interruption
  | refused
  | help
  | version
  deriving DecidableEq

/-- The options and other arguments of a command, and what follows them. Options that take no value
have the empty one. -/
structure Found where
  options : List (String × String) := []
  positionals : List String := []
  rest : List String := []

namespace Found

/-- The values of an option in the order in which they were given. -/
def values (f : Found) (long : String) : List String :=
  f.options.filterMap fun o => if o.1 = long then some o.2 else none

def value? (f : Found) (long : String) : Option String :=
  (f.values long).head?

def has (f : Found) (long : String) : Bool :=
  f.options.any (·.1 == long)

/-- Adds an option. Only some can be given twice, and two of them end the reading. -/
def add (f : Found) (rule : OptionRule) (value : String) : Except Interruption Found :=
  if rule.long = "help" then .error .help
  else if rule.long = "version" then .error .version
  else if !rule.repeats && f.has rule.long then .error .refused
  else .ok { f with options := f.options ++ [(rule.long, value)] }

def addPositional (f : Found) (text : String) : Found :=
  { f with positionals := f.positionals ++ [text] }

end Found

/-- An argument that can be the value of the option before it. -/
def isValue (argument : String) : Bool :=
  argument = "-" || argument.toList.head? != some '-'

/-- Reads letters; one that takes a value ends them, and waits for it if nothing follows. -/
def readLetters (rules : List OptionRule) (f : Found) :
    List Char → Except Interruption (Found × Option OptionRule)
  | [] => .ok (f, none)
  | c :: rest =>
    match rules.find? (·.short == some c) with
    | none => .error .refused
    | some rule =>
      if rule.takesValue then
        match rest with
        | [] => .ok (f, some rule)
        | '=' :: value | value => (f.add rule (String.ofList value)).map (·, none)
      else
        match f.add rule "" with
        | .ok f => readLetters rules f rest
        | .error i => .error i

/-- Reads a long option; one that takes a value waits for it if there is no equals sign. -/
def readLong (rules : List OptionRule) (f : Found) (text : List Char) :
    Except Interruption (Found × Option OptionRule) :=
  let name := text.takeWhile (· != '=')
  let value := (text.dropWhile (· != '=')).tail?
  match rules.find? (·.long == String.ofList name), value with
  | none, _ => .error .refused
  | some rule, some value =>
    if rule.takesValue then (f.add rule (String.ofList value)).map (·, none) else .error .refused
  | some rule, none =>
    if rule.takesValue then .ok (f, some rule) else (f.add rule "").map (·, none)

/-- Reads arguments. Before a command, the first that is no option begins the rest; within one, all
are options or positionals, and after two hyphens positionals alone. -/
def readArguments (rules : List OptionRule) (withinCommand : Bool) (f : Found) :
    List String → Except Interruption Found
  | [] => .ok f
  | argument :: arguments =>
    let reading := match argument.toList with
      | ['-', '-'] | ['-'] => none
      | '-' :: '-' :: text => some (readLong rules f text)
      | '-' :: letters => some (readLetters rules f letters)
      | _ => none
    match reading with
    | none =>
      if !withinCommand then .ok { f with rest := argument :: arguments }
      else if argument = "--" then .ok { f with positionals := f.positionals ++ arguments }
      else readArguments rules withinCommand (f.addPositional argument) arguments
    | some (.error i) => .error i
    | some (.ok (f, none)) => readArguments rules withinCommand f arguments
    | some (.ok (f, some rule)) =>
      match arguments with
      | [] => .error .refused
      | value :: arguments =>
        if isValue value then
          match f.add rule value with
          | .ok f => readArguments rules withinCommand f arguments
          | .error i => .error i
        else .error .refused

end UsagePolicy.CommandLine
