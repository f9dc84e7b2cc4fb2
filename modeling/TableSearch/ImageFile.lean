import TableSearch.Error
import TableSearch.Json.Image
import TableSearch.Json.Writer

/-!
# Images in files

The name of a file decides the form of the image in it: binary for the extension `bin`, and
indented JSON for all others.
-/

namespace TableSearch

/-- The file at a path holds the binary form. -/
def Path.isBinary (path : String) : Bool := Path.extension? path = some "bin"

namespace Image

/-- The content of a file at a path that holds the image. -/
def content (m : Image) (path : String) : List UInt8 :=
  if Path.isBinary path then Binary.ofImage m else Json.Written.ofImage m (.indented 0)

/-- The image that a file at a path holds. -/
def ofContent (path : String) (bytes : List UInt8) : Except Error Image :=
  if Path.isBinary path then (Binary.decode Binary.image bytes).mapError .binary
  else (Json.decode Json.image bytes).mapError .json

variable {m : Type → Type} [Monad m] [Files m]

/-- Reads the image in a file. -/
def load (path : String) : m (Except Error Image) := do
  match ← Files.read path with
  | .error e => return .error (.file e)
  | .ok bytes => return ofContent path bytes

/-- Writes the image to a file. -/
def save (image : Image) (path : String) : m (Except Error Unit) := do
  return (← Files.write path (image.content path)).mapError .file

end Image

end TableSearch
