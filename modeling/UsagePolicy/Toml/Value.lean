/-!
# TOML values

Numbers, dates and times keep their text: nothing in a case file is one of them.
-/

namespace UsagePolicy

inductive Toml
  | string (text : String)
  | integer (text : String)
  | float (text : String)
  | boolean (value : Bool)
  | datetime (text : String)
  | array (items : List Toml)
  | table (entries : List (String × Toml))

namespace Toml

def string? : Toml → Option String
  | string text => some text
  | _ => none

def entries? : Toml → Option (List (String × Toml))
  | table entries => some entries
  | _ => none

end Toml

end UsagePolicy
