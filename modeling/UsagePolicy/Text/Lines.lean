/-!
# Lines

A line ends at a line feed, to which a carriage return right before it belongs. What follows the
last line feed is a line unless it is empty.
-/

namespace UsagePolicy.Text

def lineChars : List Char → List (List Char)
  | [] => []
  | '\n' :: rest => [] :: lineChars rest
  | '\r' :: '\n' :: rest => [] :: lineChars rest
  | c :: rest =>
    match lineChars rest with
    | [] => [[c]]
    | line :: lines => (c :: line) :: lines

/-- The lines of a text without their ends. -/
def lines (s : String) : List String :=
  (lineChars s.toList).map String.ofList

/-- What comes before and after the first occurrence of a separator. -/
def splitOnce? (separator : List Char) : List Char → Option (List Char × List Char)
  | [] => if separator.isEmpty then some ([], []) else none
  | c :: rest =>
    if separator.isPrefixOf (c :: rest) then some ([], (c :: rest).drop separator.length)
    else (splitOnce? separator rest).map fun parts => (c :: parts.1, parts.2)

example : lines "a\r\nb\n\nc\r" = ["a", "b", "", "c\r"] := by decide

end UsagePolicy.Text
