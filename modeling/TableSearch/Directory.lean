import TableSearch.Path

/-!
# Files in a directory

A directory holds files and further directories, each at the names that lead to it. A path starts
from the directory, or from the top of the file system if it starts with a slash, and may lead above
the directory; all that is known there is that it goes on upwards. Reading and writing follow a path
name by name, so they fail at the first name that leads nowhere or through a file. Writing replaces
a file or makes a new one, and changes no other entry.

`Files` is what a program needs of files. The directory is one instance of it.
-/

namespace TableSearch

/-- Why a file was not read or written. -/
inductive FileError where
  | notFound
  | notADirectory
  | isADirectory
  /-- Another cause, in the words of the system. -/
  | other (text : String)
  deriving DecidableEq

/-- The text that reports why a file was not read or written. -/
def FileError.message : FileError → String
  | notFound => "No such file or directory (os error 2)"
  | notADirectory => "Not a directory (os error 20)"
  | isADirectory => "Is a directory (os error 21)"
  | other text => text

/-- Actions that read and write files by their paths. -/
class Files (m : Type → Type) where
  /-- The content of a file. -/
  read : (path : String) → m (Except FileError (List UInt8))
  /-- Replaces the content of a file, which need not exist. -/
  write : (path : String) → (content : List UInt8) → m (Except FileError Unit)

/-- What stands at a place. -/
inductive Entry where
  | file (content : List UInt8)
  | directory
  deriving DecidableEq

/-- The names that lead from a directory to a place: first, for one that is not below it, `..` for
each step upwards or a slash for the top of the file system. -/
abbrev Place : Type := List String

/-- The place is the directory itself or above it. -/
def Place.isAbove (place : Place) : Bool := place = ["/"] || place.all (· = "..")

/-- The place one step upwards. There is none above the top. -/
def Place.up (place : Place) : Place :=
  if place = ["/"] then place
  else if place.isAbove then place ++ [".."]
  else place.dropLast

/-- A directory, as the entries at the places below it. -/
structure Directory where
  entryBelow? : Place → Option Entry

namespace Directory

/-- The directory that holds nothing. -/
def empty : Directory := ⟨fun _ => none⟩

/-- The entry at a place. -/
def entry? (d : Directory) (place : Place) : Option Entry :=
  if place.isAbove then some .directory else d.entryBelow? place

/-- Puts an entry at a place. -/
def put (d : Directory) (place : Place) (entry : Entry) : Directory :=
  ⟨fun other => if other = place then some entry else d.entryBelow? other⟩

/-- Follows names from a place. Each of them starts from an existing directory. -/
def follow (d : Directory) : Place → List String → Except FileError Place
  | place, [] => .ok place
  | place, name :: names =>
    match d.entry? place with
    | none => .error .notFound
    | some (.file _) => .error .notADirectory
    | some .directory =>
      if Path.isHere name then d.follow place names
      else if name = ".." then d.follow place.up names
      else d.follow (place ++ [name]) names

/-- The place that a path starts from. -/
def origin (path : String) : Place := if Path.isAbsolute path then ["/"] else []

/-- The place of a path. -/
def locate (d : Directory) (path : String) : Except FileError Place :=
  if path = "" then .error .notFound else d.follow (origin path) (Path.names path)

/-- The content of the file at a path. -/
def contentAt (d : Directory) (path : String) : Except FileError (List UInt8) :=
  match d.locate path with
  | .error e => .error e
  | .ok place =>
    match d.entry? place with
    | none => .error .notFound
    | some .directory => .error .isADirectory
    | some (.file content) => .ok content

/-- Where writing to a path puts its content. A path that ends in a slash is no place for a file,
whatever stands there, though the names before its last one are followed first. -/
def target (d : Directory) (path : String) : Except FileError Place :=
  if Path.endsInSlash path then
    match d.follow (origin path) ((Path.names path).reverse.dropWhile (· = "")).tail.reverse with
    | .error e => .error e
    | .ok above =>
      match d.entry? above with
      | none => .error .notFound
      | some (.file _) => .error .notADirectory
      | some .directory => .error .isADirectory
  else match d.locate path with
    | .error e => .error e
    | .ok place => if d.entry? place = some .directory then .error .isADirectory else .ok place

/-- Writes a file. -/
def write (d : Directory) (path : String) (content : List UInt8) :
    Except FileError Directory :=
  match d.target path with
  | .error e => .error e
  | .ok place => .ok (d.put place (.file content))

/-- Makes the directories on the way along names from a place, where there are none yet. -/
def makeDirectories (d : Directory) : Place → List String → Except FileError Directory
  | _, [] => .ok d
  | place, name :: names =>
    if Path.isHere name then d.makeDirectories place names
    else if name = ".." then d.makeDirectories place.up names
    else
      match d.entry? (place ++ [name]) with
      | none => (d.put (place ++ [name]) .directory).makeDirectories (place ++ [name]) names
      | some .directory => d.makeDirectories (place ++ [name]) names
      | some (.file _) => .error .notADirectory

/-- Makes a directory at a path, and those above it that are missing. -/
def makeDirectory (d : Directory) (path : String) : Except FileError Directory :=
  if path = "" then .error .notFound else d.makeDirectories (origin path) (Path.names path)

instance : Files (StateM Directory) where
  read path := fun d => (d.contentAt path, d)
  write path content := fun d =>
    match d.write path content with
    | .error e => (.error e, d)
    | .ok after => (.ok (), after)

end Directory

end TableSearch
