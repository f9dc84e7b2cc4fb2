/-!
# Paths

A path is a sequence of names with slashes between them. Empty names and `.` stand for the place
itself, and `..` for the place above it. The extension of a path is what follows the last dot of
its last name, unless that dot is the first character.
-/

namespace TableSearch.Path

/-- The parts of a text between slashes. -/
def split : List Char → List (List Char)
  | [] => [[]]
  | c :: rest =>
    match split rest with
    | [] => [[c]]
    | name :: names => if c = '/' then [] :: name :: names else (c :: name) :: names

/-- The names of a path. -/
def names (path : String) : List String := (split path.toList).map String.ofList

/-- The path starts at the top of the file system. -/
def isAbsolute (path : String) : Bool := path.toList.head? = some '/'

/-- The path ends in a slash. -/
def endsInSlash (path : String) : Bool := path.toList.getLast? = some '/'

/-- The name stands for the place itself. -/
def isHere (name : String) : Bool := name = "" || name = "."

/-- The last name of a path, if it names an entry. -/
def fileName? (path : String) : Option String :=
  match (names path).reverse.dropWhile isHere with
  | [] => none
  | name :: _ => if name = ".." then none else some name

/-- What follows the last dot of a name, unless that dot comes first. -/
def extensionOfName? (name : String) : Option String :=
  let backwards := name.toList.reverse
  match backwards.dropWhile (· ≠ '.') with
  | [] => none
  | [_] => none
  | _ => some (String.ofList (backwards.takeWhile (· ≠ '.')).reverse)

/-- The extension of a path. -/
def extension? (path : String) : Option String := fileName? path >>= extensionOfName?

end TableSearch.Path
