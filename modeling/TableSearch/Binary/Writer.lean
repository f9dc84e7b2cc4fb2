import TableSearch.Bytes.LittleEndian
import TableSearch.Channel
import TableSearch.Image

/-!
# The binary form

Numbers have a fixed width and come least significant byte first. A list of values is its length
in eight bytes and then each value in eight; a config is its two constants in four bytes each; an
image is its config and then its values; a channel is its number in four bytes. The form is
written for any config and any values, whether or not they make an image.
-/

namespace TableSearch.Binary

/-- The number of a channel in the binary form. -/
def channelIndex : Channel → Nat
  | .privateInput => 0
  | .publicInput => 1

/-- The binary form of a channel. -/
def ofChannel (c : Channel) : List UInt8 := littleEndian 4 (channelIndex c)

/-- The binary form of one value. -/
def ofValue (value : UInt64) : List UInt8 := littleEndian 8 value.toNat

/-- The binary form of a list of values. -/
def ofValues (values : List UInt64) : List UInt8 :=
  littleEndian 8 values.length ++ values.flatMap ofValue

/-- The binary form of the constants of a search. -/
def ofConfig (config : Config) : List UInt8 :=
  littleEndian 4 config.right.toNat ++ littleEndian 4 config.failed.toNat

/-- The binary form of a config with values. -/
def ofParts (config : Config) (values : List UInt64) : List UInt8 :=
  ofConfig config ++ ofValues values

/-- The binary form of a table. -/
def ofTable (t : Table) : List UInt8 := ofValues t.values.toList

/-- The binary form of an image. -/
def ofImage (m : Image) : List UInt8 := ofParts m.config m.table.values.toList

end TableSearch.Binary
