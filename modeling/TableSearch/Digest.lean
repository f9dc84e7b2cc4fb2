import TableSearch.Binary.Writer
import TableSearch.Bytes.Hex
import TableSearch.Keccak.Sponge

/-!
# The digest of an image

An image is named by the Keccak-256 digest of its constants, its size and its values, each in
little-endian bytes of its width. They are handed to the hasher one by one.
-/

namespace TableSearch.Image

/-- The digest of an image. -/
def digest (m : Image) : List UInt8 :=
  let head := ({} : Keccak.Hasher)
    |>.update (littleEndian 4 m.right.toNat)
    |>.update (littleEndian 4 m.failed.toNat)
    |>.update (littleEndian 8 m.table.size)
  (m.table.values.foldl (fun hasher value => hasher.update (Binary.ofValue value)) head).finish

/-- The digest of an image in hexadecimal digits. -/
def digestHex (m : Image) : String := String.ofList (Hex.encode m.digest)

end TableSearch.Image
