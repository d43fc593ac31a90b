import UsagePolicy.Json.Value
/-!
# Masked reports

A report with placeholders for what differs from run to run: the times at any depth, and the
version of the tool, if the value looks like a case report.
-/

namespace UsagePolicy.Report

def timeKeys : List String := ["started_at", "finished_at"]

mutual

def maskTimes : Json → Json
  | .array items => .array (maskTimesOfItems items)
  | .object members => .object (maskTimesOfMembers members)
  | v => v

def maskTimesOfItems : List Json → List Json
  | [] => []
  | v :: vs => maskTimes v :: maskTimesOfItems vs

def maskTimesOfMembers : List (String × Json) → List (String × Json)
  | [] => []
  | (key, v) :: ms =>
    (key, if key ∈ timeKeys then .string "__TIMESTAMP__" else maskTimes v) :: maskTimesOfMembers ms

end

/-- Changes the values under a key. -/
def modifyMember (key : String) (change : Json → Json) (members : List (String × Json)) :
    List (String × Json) :=
  members.map fun m => if m.1 = key then (m.1, change m.2) else m

def hasKey (members : List (String × Json)) (key : String) : Bool :=
  members.any (·.1 == key)

def reportKeys : List String := ["schema", "tool", "case", "verdict", "trace"]

def maskVersion : Json → Json
  | .object members =>
    if reportKeys.all (hasKey members) then
      .object (modifyMember "tool" (fun
        | .object tool => .object (modifyMember "version" (fun _ => .string "__VERSION__") tool)
        | v => v) members)
    else .object members
  | v => v

def mask (v : Json) : Json :=
  maskTimes (maskVersion v)

end UsagePolicy.Report
