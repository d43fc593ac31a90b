/-!
# Paths

Relative and absolute file paths as texts whose parts are separated by slashes.
-/

namespace UsagePolicy.Path

/-- A path without trailing slashes and `.` parts, back to front. -/
def trimmedReverse : List Char → List Char
  | '/' :: rest => trimmedReverse rest
  | '.' :: '/' :: rest => trimmedReverse ('/' :: rest)
  | cs => cs

/-- The last part of a path, unless it is `.` or `..` or there is none. Trailing slashes and `.`
parts after a slash do not count. -/
def fileName? (path : String) : Option String :=
  let part := ((trimmedReverse path.toList.reverse).takeWhile (· != '/')).reverse
  if part = [] ∨ part = ['.'] ∨ part = ['.', '.'] then none else some (String.ofList part)

/-- What follows the last dot of the file name; a dot at its start does not count. -/
def extension? (path : String) : Option String :=
  (fileName? path).bind fun name =>
    let back := name.toList.reverse
    match back.dropWhile (· != '.') with
    | [] | [_] => none
    | _ :: _ :: _ => some (String.ofList (back.takeWhile (· != '.')).reverse)

/-- The part of a path before its last component, and `none` when nothing comes before it. -/
def parent? (path : String) : Option String :=
  match trimmedReverse path.toList.reverse with
  | [] => none
  | cs =>
    let before := cs.dropWhile (· != '/')
    match before with
    | [] => some ""
    | _ =>
      match trimmedReverse before with
      | [] => some "/"
      | up => some (String.ofList up.reverse)

/-- A path below a directory; an absolute path stands for itself. -/
def join (directory path : String) : String :=
  if path.toList.head? = some '/' then path
  else if directory = "" ∨ directory.toList.getLast? = some '/' then directory ++ path
  else directory ++ "/" ++ path

end UsagePolicy.Path
