/-!
# JSON values

A value as a document writes it: the members of an object keep their order and their repetitions,
and a number keeps its text.
-/

namespace UsagePolicy

inductive Json
  | null
  | bool (value : Bool)
  | number (text : String)
  | string (text : String)
  | array (items : List Json)
  | object (members : List (String × Json))

namespace Json

/-- An object of those members that have a value. -/
def record (members : List (String × Option Json)) : Json :=
  .object (members.filterMap fun m => m.2.map (m.1, ·))

/-- The value of the last member with a name. -/
def lookup? (name : String) (members : List (String × Json)) : Option Json :=
  (members.reverse.find? (·.1 == name)).map (·.2)

/-- The value under a name, if the value is an object that has it. -/
def get? (name : String) : Json → Option Json
  | object members => lookup? name members
  | _ => none

def string? : Json → Option String
  | string text => some text
  | _ => none

def bool? : Json → Option Bool
  | bool value => some value
  | _ => none

def items? : Json → Option (List Json)
  | array items => some items
  | _ => none

/-- The values of a record's fields. A record is written as an object, in which other members are
ignored, or as the array of all its fields in order. -/
def fields? (names : List String) : Json → Option (List (Option Json))
  | object members => some (names.map (lookup? · members))
  | array items => if items.length = names.length then some (items.map some) else none
  | _ => none

/-- Reads a field that may be left out or null. -/
def optional? {α : Type} (read : Json → Option α) : Option Json → Option (Option α)
  | none | some null => some none
  | some v => (read v).map some

/-- The name of an alternative, written as a string or as the only member, with value null, of an
object. -/
def alternative? : Json → Option String
  | string text => some text
  | object members =>
    match (members.map (·.1)).eraseDups with
    | [name] =>
      match lookup? name members with
      | some null => some name
      | _ => none
    | _ => none
  | _ => none

/-- Reads one of several alternatives by name. -/
def choice? {α : Type} (all : List α) (name : α → String) (v : Json) : Option α :=
  (alternative? v).bind fun text => all.find? (name · == text)

end Json

end UsagePolicy
