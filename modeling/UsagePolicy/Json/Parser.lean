import UsagePolicy.Json.Token
/-!
# Reading JSON

The tokens of a document are put together one by one. The arrays and objects that are still open
stand in a stack, whose height can be limited.
-/

namespace UsagePolicy.Json

/-- An open array with its items, or an open object with its members and the name of the next; the
latest stands first. -/
inductive Frame
  | array (items : List Json)
  | object (members : List (String × Json)) (name : String)

/-- What the tokens read so far ask for. -/
inductive Reading
  | value (unfinished : List Frame)
  | itemOrEnd (unfinished : List Frame)
  | nameOrEnd (unfinished : List Frame)
  | name (members : List (String × Json)) (unfinished : List Frame)
  | colon (members : List (String × Json)) (name : String) (unfinished : List Frame)
  | done (value : Json) (unfinished : List Frame)

namespace Reading

/-- Begins a value. -/
def begin (limit : Nat) (unfinished : List Frame) : Token → Option Reading
  | .openArray => if unfinished.length < limit then some (itemOrEnd unfinished) else none
  | .openObject => if unfinished.length < limit then some (nameOrEnd unfinished) else none
  | .null => some (done Json.null unfinished)
  | .bool b => some (done (Json.bool b) unfinished)
  | .number n => some (done (Json.number n) unfinished)
  | .string s => some (done (Json.string s) unfinished)
  | _ => none

/-- Takes one more token; at most `limit` arrays and objects are open at the same time. -/
def step (limit : Nat) : Reading → Token → Option Reading
  | value unfinished, t => begin limit unfinished t
  | itemOrEnd unfinished, .closeArray => some (done (array []) unfinished)
  | itemOrEnd unfinished, t => begin limit (.array [] :: unfinished) t
  | nameOrEnd unfinished, .closeObject => some (done (object []) unfinished)
  | nameOrEnd unfinished, .string s => some (colon [] s unfinished)
  | name members unfinished, .string s => some (colon members s unfinished)
  | colon members n unfinished, .colon => some (value (.object members n :: unfinished))
  | done v (.array items :: unfinished), .comma => some (value (.array (v :: items) :: unfinished))
  | done v (.array items :: unfinished), .closeArray =>
    some (done (array (v :: items).reverse) unfinished)
  | done v (.object members n :: unfinished), .comma => some (name ((n, v) :: members) unfinished)
  | done v (.object members n :: unfinished), .closeObject =>
    some (done (object ((n, v) :: members).reverse) unfinished)
  | _, _ => none

end Reading

/-- The value of a row of tokens. -/
def ofTokens? (limit : Nat) (ts : List Token) : Option Json :=
  match ts.foldlM (Reading.step limit) (.value []) with
  | some (.done v []) => some v
  | _ => none

/-- The value of a document in which at most `limit` arrays and objects lie in each other. -/
def parse? (limit : Nat) (text : String) : Option Json :=
  (Token.scan text.toList).bind (ofTokens? limit)

end UsagePolicy.Json
