import TableSearch.Binary.Reader
import TableSearch.Directory
import TableSearch.Json.Fault
import TableSearch.Source

/-!
# Errors

Everything that can go wrong with a table, an image, a channel or a file. Errors of files and of
the two stored forms name their own cause behind a word for its kind.
-/

namespace TableSearch

/-- What went wrong. -/
inductive Error where
  | rejected (rejection : Rejection)
  | input (error : InputError)
  | file (error : FileError)
  | json (failure : Json.Failure)
  | binary (failure : Binary.Failure)

namespace Error

/-- The text of an inner cause, if there is one. -/
def cause? : Error → Option String
  | rejected _ => none
  | input _ => none
  | file e => some e.message
  | json f => some f.message
  | binary f => some f.message

/-- The text that reports an error. -/
def message : Error → String
  | rejected r => r.message
  | input e => e.message
  | file e => s!"IO error: {e.message}"
  | json f => s!"JSON error: {f.message}"
  | binary f => s!"Bincode error: {f.message}"

/-- The texts of an error and of its inner cause, the error first. -/
def chain (e : Error) : List String := e.message :: e.cause?.toList

end Error

end TableSearch
