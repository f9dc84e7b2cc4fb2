import TableSearch.Bytes.Ascii
import TableSearch.Channel
import TableSearch.Image
import TableSearch.Text.Utf8

/-!
# Writing JSON text

A value is written in one of two layouts: compact, without any white space, or indented, with each
item on a line of its own, two more spaces in than the bracket around it. The layouts differ only
in white space before items, before closing brackets and behind colons. The members of an image
and of its config come in a fixed order.
-/

namespace TableSearch.Json

/-- Where white space goes. -/
inductive Layout where
  | compact
  /-- Items start on new lines, two spaces in for each bracket around them. -/
  | indented (depth : Nat)
  deriving DecidableEq

namespace Layout

/-- The layout one bracket further in. -/
def inner : Layout → Layout
  | compact => compact
  | indented depth => indented (depth + 1)

/-- What comes before an item or a closing bracket. -/
def newline : Layout → List UInt8
  | compact => []
  | indented depth => ascii '\n' :: List.replicate (2 * depth) (ascii ' ')

/-- What comes behind a colon. -/
def behindColon : Layout → List UInt8
  | compact => []
  | indented _ => [ascii ' ']

end Layout

/-- A value, as the bytes that it takes in each layout. -/
abbrev Written : Type := Layout → List UInt8

namespace Written

/-- Items between two brackets, with commas between them. -/
def bracketed (opening closing : UInt8) : List Written → Written
  | [], _ => [opening, closing]
  | first :: others, layout =>
    opening :: (layout.inner.newline ++ first layout.inner ++
      (others.flatMap fun item => ascii ',' :: (layout.inner.newline ++ item layout.inner)) ++
      layout.newline ++ [closing])

/-- A list. -/
def list (items : List Written) : Written := bracketed (ascii '[') (ascii ']') items

/-- A natural number. -/
def natural (n : Nat) : Written := fun _ => (Nat.toDigits 10 n).map ascii

/-- A truth value. -/
def boolean (b : Bool) : Written := fun _ => asciiBytes (if b then "true" else "false")

/-- A character between quotes. -/
def quotedChar (c : Char) : List UInt8 :=
  if c = '"' then asciiBytes "\\\""
  else if c = '\\' then asciiBytes "\\\\"
  else if c = '\x08' then asciiBytes "\\b"
  else if c = '\t' then asciiBytes "\\t"
  else if c = '\n' then asciiBytes "\\n"
  else if c = '\x0c' then asciiBytes "\\f"
  else if c = '\r' then asciiBytes "\\r"
  else if c.toNat < 0x20 then
    asciiBytes "\\u00" ++ [c.toNat / 16, c.toNat % 16].map fun n => ascii (Nat.digitChar n)
  else Utf8.encode (String.singleton c)

/-- A string. -/
def text (s : String) : Written := fun _ =>
  ascii '"' :: (s.toList.flatMap quotedChar ++ [ascii '"'])

/-- A member of an object. -/
def member (key : String) (value : Written) : Written := fun layout =>
  text key layout ++ ascii ':' :: (layout.behindColon ++ value layout)

/-- An object. -/
def object (members : List (String × Written)) : Written :=
  bracketed (ascii '\x7b') (ascii '\x7d') (members.map fun (key, value) => member key value)

/-! ## The values of this library -/

/-- The constants of a search. -/
def ofConfig (config : Config) : Written :=
  object [("right", natural config.right.toNat), ("failed", natural config.failed.toNat)]

/-- The values of a table. -/
def ofValues (values : List UInt64) : Written :=
  list (values.map fun value => natural value.toNat)

/-- A table. -/
def ofTable (t : Table) : Written := ofValues t.values.toList

/-- A config with values, whether or not they make an image. -/
def ofParts (config : Config) (values : List UInt64) : Written :=
  object [("config", ofConfig config), ("table", ofValues values)]

/-- An image. -/
def ofImage (m : Image) : Written := ofParts m.config m.table.values.toList

/-- A channel. -/
def ofChannel (c : Channel) : Written := text c.name

end Written

end TableSearch.Json
