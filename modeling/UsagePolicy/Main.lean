import Std.Time.DateTime
import UsagePolicy.CommandLine.Plan
/-!
# The program

Reads the files that a command line asks for, and carries its plan out.
-/

namespace UsagePolicy

/-- The time in UTC. -/
def readClock : IO Timestamp := do
  let now := Std.Time.PlainDateTime.ofWallTime ((← Std.Time.Timestamp.now).toWallTime .zero)
  return (Timestamp.ofParts? now.date.year.toInt.toNat now.date.month.val.toNat
    now.date.day.val.toNat now.time.hour.val.toNat now.time.minute.val.toNat
    now.time.second.val.toNat now.time.nanosecond.val.toNat 0).getD .epoch

/-- Adds the files at some paths to those that are known. A file that cannot be read is left out. -/
def readFiles (paths : List String) (files : FileTree) : IO FileTree :=
  paths.foldlM (fun (files : FileTree) (path : String) => do
    try
      let text ← IO.FS.readFile path
      return files.add path (some text)
    catch _ =>
      return files) files

/-- Whether an action went through. -/
def succeeds (action : IO Unit) : IO Bool := do
  try
    action
    return true
  catch _ =>
    return false

/-- Writes a file and makes the directories it needs. -/
def writeFile (path text : String) : IO (Option WriteError) := do
  let parent := (Path.parent? path).getD ""
  let hasDirectory ← if parent = "" then pure true else succeeds (IO.FS.createDirAll parent)
  if !hasDirectory then
    return some (.createDirectory parent)
  else if !(← succeeds (IO.FS.writeFile path text)) then
    return some (.write path)
  else
    return none

/-- Writes files up to the first that cannot be written. -/
def writeFiles : List (String × String) → IO (Option WriteError)
  | [] => return none
  | (path, text) :: rest => do
    match ← writeFile path text with
    | some error => return some error
    | none => writeFiles rest

/-- Carries a plan out and tells how it ends. -/
def carryOut (completion : CommandLine.Completion) :
    List CommandLine.Writes → IO CommandLine.Completion
  | [] => return completion
  | w :: ws => do
    match ← writeFiles w.files with
    | some error => return w.failure error
    | none => carryOut completion ws

def planFor (arguments : List String) : IO CommandLine.Plan := do
  match CommandLine.Invocation.parse arguments with
  | .error i => return .say i.completion
  | .ok i =>
    let known ← readFiles (i.reads .empty) .empty
    let files ← readFiles (i.reads known) known
    let now ← readClock
    return i.plan files fun _ => now

end UsagePolicy

open UsagePolicy in
def main (arguments : List String) : IO UInt32 := do
  let plan ← planFor arguments
  let completion ← carryOut plan.completion plan.writes
  IO.print completion.stdout
  IO.eprint completion.stderr
  return completion.exitCode.toUInt32
