import TableSearch.Json.Image
import TableSearch.Proofs.JsonTokens

/-!
# The grammar of images in JSON

The texts that stand for an image, written down without reading them from left to right: a `Form`
relates texts to what they stand for. Between tokens any white space may stand. The values of the
record that are asked for are given by their own forms, and `WellFormed` describes the values of
other members, which stand for nothing.

An object is a list of members with their keys. That a member occurs exactly once says that it is
the only one left when the members of all other keys are taken away.
-/

namespace TableSearch.Json

/-- A kind of text, with what each of its texts stands for. -/
abbrev Form (α : Type) : Type := List UInt8 → α → Prop

/-! ## Numbers -/

/-- The decimal digits of a number, without a sign, a fraction, an exponent or a leading zero. -/
def decimal (n : Nat) : List UInt8 := (Nat.toDigits 10 n).map ascii

/-- Nothing but decimal digits. -/
def AllDigits (text : List UInt8) : Prop := ∀ b ∈ text, isDigit b = true

/-- The integer part of a number of any size. -/
inductive IntegerPart : List UInt8 → Prop
  | zero : IntegerPart [ascii '0']
  | digits {b : UInt8} {others : List UInt8} : isDigit b = true → b ≠ ascii '0' →
    AllDigits others → IntegerPart (b :: others)

/-- The fraction of a number, if it has one. -/
inductive FractionPart : List UInt8 → Prop
  | none : FractionPart []
  | digits {b : UInt8} {others : List UInt8} : isDigit b = true → AllDigits others →
    FractionPart (ascii '.' :: b :: others)

/-- A sign, if there is one. -/
inductive SignPart : List UInt8 → Prop
  | none : SignPart []
  | plus : SignPart [ascii '+']
  | minus : SignPart [ascii '-']

/-- The exponent of a number, if it has one. -/
inductive ExponentPart : List UInt8 → Prop
  | none : ExponentPart []
  | digits {mark b : UInt8} {sign others : List UInt8} : isExponentMark mark = true →
    SignPart sign → isDigit b = true → AllDigits others →
    ExponentPart (mark :: (sign ++ b :: others))

/-- A number behind its sign. -/
inductive UnsignedNumber : List UInt8 → Prop
  | parts {integer fraction exponent : List UInt8} : IntegerPart integer → FractionPart fraction →
    ExponentPart exponent → UnsignedNumber (integer ++ (fraction ++ exponent))

/-! ## Strings -/

/-- An escape behind its backslash, and the character that it stands for. -/
inductive EscapeForm : Form Char
  | letter {b : UInt8} {c : Char} : letterEscape? b = some c → EscapeForm [b] c
  | number {a b c d : UInt8} {n : Nat} : hexNumber? a b c d = some n →
    isTrailingSurrogate n = false → isLeadingSurrogate n = false →
    EscapeForm [ascii 'u', a, b, c, d] (Char.ofNat n)
  | pair {a b c d e f g h : UInt8} {first second : Nat} : hexNumber? a b c d = some first →
    isTrailingSurrogate first = false → isLeadingSurrogate first = true →
    hexNumber? e f g h = some second → isTrailingSurrogate second = true →
    EscapeForm [ascii 'u', a, b, c, d, ascii '\\', ascii 'u', e, f, g, h] (charOfPair first second)

/-- What stands between the quotes of a string, and the bytes that it stands for. -/
inductive Spelling : Form (List UInt8)
  | nil : Spelling [] []
  | plain {b : UInt8} {text bytes : List UInt8} : isPlain b = true → Spelling text bytes →
    Spelling (b :: text) (b :: bytes)
  | escape {e text bytes : List UInt8} {c : Char} : EscapeForm e c → Spelling text bytes →
    Spelling (ascii '\\' :: (e ++ text)) (String.utf8EncodeChar c ++ bytes)

/-- A string with its quotes. What it stands for is its bytes read as UTF-8. -/
inductive StringForm : Form String
  | quoted {text : List UInt8} {s : String} :
    Spelling text (s.toList.flatMap String.utf8EncodeChar) →
    StringForm (ascii '"' :: (text ++ [ascii '"'])) s

/-- An escape behind its backslash, whatever it stands for. -/
inductive PassedEscape : List UInt8 → Prop
  | letter {b : UInt8} {c : Char} : letterEscape? b = some c → PassedEscape [b]
  | number {a b c d : UInt8} {n : Nat} : hexNumber? a b c d = some n →
    PassedEscape [ascii 'u', a, b, c, d]

/-- What stands between the quotes of a string that is passed over. -/
inductive PassedText : List UInt8 → Prop
  | nil : PassedText []
  | plain {b : UInt8} {text : List UInt8} : isPlain b = true → PassedText text →
    PassedText (b :: text)
  | escape {e text : List UInt8} : PassedEscape e → PassedText text →
    PassedText (ascii '\\' :: (e ++ text))

/-! ## Values of any kind -/

/-- The byte that opens a bracket. -/
def Bracket.opening : Bracket → UInt8
  | .list => ascii '['
  | .object => ascii '\x7b'

/-- What stands before a value in a bracket: nothing in a list, and a key with its colon in an
object. -/
inductive Lead : Bracket → List UInt8 → Prop
  | list : Lead .list []
  | object {before key between : List UInt8} : Blank before → PassedText key → Blank between →
    Lead .object (before ++ ascii '"' :: (key ++ ascii '"' :: (between ++ [ascii ':'])))

/-- The parts of a value that is passed over. -/
inductive Part where
  /-- A whole value. -/
  | value
  /-- What follows a value in a bracket, up to the end of the bracket. -/
  | behind (bracket : Bracket)

/-- Values of any kind, and what follows them in brackets. -/
inductive WellFormed : Part → List UInt8 → Prop
  | word {letters : String} : letters = "null" ∨ letters = "true" ∨ letters = "false" →
    WellFormed .value (asciiBytes letters)
  | number {text : List UInt8} : UnsignedNumber text → WellFormed .value text
  | negative {text : List UInt8} : UnsignedNumber text → WellFormed .value (ascii '-' :: text)
  | text {text : List UInt8} : PassedText text →
    WellFormed .value (ascii '"' :: (text ++ [ascii '"']))
  | empty (bracket : Bracket) {blank : List UInt8} : Blank blank →
    WellFormed .value (bracket.opening :: (blank ++ [bracket.closing]))
  | bracket {bracket : Bracket} {lead blank value behind : List UInt8} : Lead bracket lead →
    Blank blank → WellFormed .value value → WellFormed (.behind bracket) behind →
    WellFormed .value (bracket.opening :: (lead ++ (blank ++ (value ++ behind))))
  | last (bracket : Bracket) {blank : List UInt8} : Blank blank →
    WellFormed (.behind bracket) (blank ++ [bracket.closing])
  | next {bracket : Bracket} {before lead blank value behind : List UInt8} : Blank before →
    Lead bracket lead → Blank blank → WellFormed .value value →
    WellFormed (.behind bracket) behind →
    WellFormed (.behind bracket) (before ++ ascii ',' :: (lead ++ (blank ++ (value ++ behind))))

/-! ## Lists and records -/

/-- What stands behind an opening bracket, if the next item is the first, and otherwise behind an
item: the items that follow, with commas between them, and the closing bracket. -/
inductive Items {α : Type} (closing : UInt8) (Item : Form α) : Bool → Form (List α)
  | last {first : Bool} {blank : List UInt8} : Blank blank →
    Items closing Item first (blank ++ [closing]) []
  | next {first : Bool} {before text behind : List UInt8} {a : α} {others : List α} :
    Before first before → Item text a → Items closing Item false behind others →
    Items closing Item first (before ++ (text ++ behind)) (a :: others)

/-- Items between two brackets. -/
inductive Bracketed {α : Type} (opening closing : UInt8) (Item : Form α) : Form (List α)
  | items {inside : List UInt8} {values : List α} : Items closing Item true inside values →
    Bracketed opening closing Item (opening :: inside) values

/-- A list of items. -/
def ListForm {α : Type} (Item : Form α) : Form (List α) := Bracketed (ascii '[') (ascii ']') Item

/-- A member of an object, as its key and the text of its value. -/
inductive MemberForm : Form (String × List UInt8)
  | keyed {name between blank value : List UInt8} {key : String} : StringForm name key →
    Blank between → Blank blank →
    MemberForm (name ++ (between ++ ascii ':' :: (blank ++ value))) (key, value)

/-- An object, as its members in their order. -/
def ObjectForm : Form (List (String × List UInt8)) :=
  Bracketed (ascii '\x7b') (ascii '\x7d') MemberForm

/-- Among the members exactly one has the key, and its value stands for `a`. -/
def OccursOnce {α : Type} (Value : Form α) (key : String) (members : List (String × List UInt8))
    (a : α) : Prop :=
  ∃ text, members.filter (fun m => m.1 = key) = [(key, text)] ∧ Value text a

/-- A record of two members: an object in which each of them occurs exactly once and the values of
all other members are well-formed, or the list of the two values. -/
inductive RecordForm {α β : Type} (firstKey secondKey : String) (First : Form α)
    (Second : Form β) : Form (α × β)
  | object {text : List UInt8} {members : List (String × List UInt8)} {a : α} {b : β} :
    ObjectForm text members → OccursOnce First firstKey members a →
    OccursOnce Second secondKey members b →
    (∀ m ∈ members, m.1 ≠ firstKey → m.1 ≠ secondKey → WellFormed .value m.2) →
    RecordForm firstKey secondKey First Second text (a, b)
  | list {before one between blank two behind : List UInt8} {a : α} {b : β} : Blank before →
    First one a → Blank between → Blank blank → Second two b → Blank behind →
    RecordForm firstKey secondKey First Second
      (ascii '[' :: (before ++ (one ++ (between ++ ascii ',' ::
        (blank ++ (two ++ (behind ++ [ascii ']']))))))) (a, b)

/-! ## Images -/

/-- A 32-bit word. -/
def Word32Form : Form UInt32 := fun text n => text = decimal n.toNat

/-- A 64-bit word. -/
def Word64Form : Form UInt64 := fun text n => text = decimal n.toNat

/-- The constants of a search. -/
def ConfigForm : Form Config := fun text c =>
  RecordForm "right" "failed" Word32Form Word32Form text (c.right, c.failed)

/-- A table: the list of its values, which has to pass the check. -/
def TableForm : Form Table := fun text t =>
  ∃ values, ListForm Word64Form text values ∧ Table.ofArray values.toArray = .ok t

/-- An image: its config and its table, which have to fit each other. -/
def ImageForm : Form Image := fun text m =>
  ∃ c t, RecordForm "config" "table" ConfigForm TableForm text (c, t) ∧ Image.build c t = .ok m

/-- A whole text that stands for an image. -/
def ImageText : Form Image := fun text m =>
  ∃ before value behind, text = before ++ (value ++ behind) ∧ Blank before ∧ Blank behind ∧
    ImageForm value m

end TableSearch.Json
