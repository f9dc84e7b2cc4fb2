import TableSearch.Proofs.JsonAcceptance
import TableSearch.Proofs.Persistence

/-!
# The two forms of an image are apart

JSON text that is accepted holds no zero byte: white space, numbers, escapes and the plain bytes of
strings are all something else. The binary form has one in every image, since the number of values
fits four of the eight bytes that it takes. So no bytes are an image in both forms.
-/

namespace TableSearch

namespace Json

/-- No byte is zero. -/
def ZeroFree (bytes : List UInt8) : Prop := ∀ b ∈ bytes, b ≠ 0

instance (bytes : List UInt8) : Decidable (ZeroFree bytes) :=
  List.decidableBAll (fun b : UInt8 => b ≠ 0) bytes

@[simp] theorem zeroFree_nil : ZeroFree [] := List.forall_mem_nil _

@[simp] theorem zeroFree_cons {b : UInt8} {bytes : List UInt8} :
    ZeroFree (b :: bytes) ↔ b ≠ 0 ∧ ZeroFree bytes :=
  List.forall_mem_cons

@[simp] theorem zeroFree_append {one two : List UInt8} :
    ZeroFree (one ++ two) ↔ ZeroFree one ∧ ZeroFree two :=
  List.forall_mem_append

/-! ## White space and numbers -/

theorem Blank.zeroFree {blank : List UInt8} (spaced : Blank blank) : ZeroFree blank := by
  rintro b mem rfl
  exact absurd (spaced 0 mem) (by decide)

theorem AllDigits.zeroFree {text : List UInt8} (all : AllDigits text) : ZeroFree text := by
  rintro b mem rfl
  exact absurd (all 0 mem) (by decide)

theorem zeroFree_digits {b : UInt8} {others : List UInt8} (digit : isDigit b = true)
    (all : AllDigits others) : ZeroFree (b :: others) :=
  AllDigits.zeroFree (List.forall_mem_cons.mpr ⟨digit, all⟩)

theorem zeroFree_decimal (n : Nat) : ZeroFree (decimal n) := by
  apply AllDigits.zeroFree
  intro b mem
  obtain ⟨c, digit, rfl⟩ := List.mem_map.mp mem
  exact (isDigit_ascii (Nat.isDigit_of_mem_toDigits (by decide) (by decide) digit)).1

theorem IntegerPart.zeroFree {text : List UInt8} (form : IntegerPart text) : ZeroFree text := by
  cases form with
  | zero => decide
  | digits digit _ all => exact zeroFree_digits digit all

theorem FractionPart.zeroFree {text : List UInt8} (form : FractionPart text) : ZeroFree text := by
  cases form with
  | none => exact zeroFree_nil
  | digits digit all => exact zeroFree_cons.mpr ⟨by decide, zeroFree_digits digit all⟩

theorem SignPart.zeroFree {text : List UInt8} (form : SignPart text) : ZeroFree text := by
  cases form with
  | none => exact zeroFree_nil
  | plus | minus => decide

theorem ExponentPart.zeroFree {text : List UInt8} (form : ExponentPart text) : ZeroFree text := by
  cases form with
  | none => exact zeroFree_nil
  | digits marks signed digit all =>
    refine zeroFree_cons.mpr ⟨?_, zeroFree_append.mpr ⟨signed.zeroFree, zeroFree_digits digit all⟩⟩
    rintro rfl
    exact absurd marks (by decide)

theorem UnsignedNumber.zeroFree {text : List UInt8} (form : UnsignedNumber text) :
    ZeroFree text := by
  cases form with
  | parts integer fraction exponent =>
    simp only [zeroFree_append, integer.zeroFree, fraction.zeroFree, exponent.zeroFree, and_self]

/-! ## Strings -/

theorem ne_zero_of_isPlain {b : UInt8} (plain : isPlain b = true) : b ≠ 0 := by
  rintro rfl
  exact absurd plain (by decide)

theorem ne_zero_of_letterEscape? {b : UInt8} {c : Char} (letter : letterEscape? b = some c) :
    b ≠ 0 := by
  rintro rfl
  cases letter

theorem ne_zero_of_value? {b : UInt8} {n : Nat} (value : Hex.value? (Char.ofUInt8 b) = some n) :
    b ≠ 0 := by
  rintro rfl
  have none : Hex.value? (Char.ofUInt8 0) = none := by decide
  cases none.symm.trans value

theorem zeroFree_of_hexNumber? {a b c d : UInt8} {n : Nat} (value : hexNumber? a b c d = some n) :
    ZeroFree [a, b, c, d] := by
  simp only [hexNumber?, Option.bind_eq_bind, Option.bind_eq_some_iff] at value
  obtain ⟨_, first, _, second, _, third, _, fourth, -⟩ := value
  simp [ne_zero_of_value? first, ne_zero_of_value? second, ne_zero_of_value? third,
    ne_zero_of_value? fourth]

theorem EscapeForm.zeroFree {text : List UInt8} {c : Char} (form : EscapeForm text c) :
    ZeroFree text := by
  cases form with
  | letter character =>
    exact zeroFree_cons.mpr ⟨ne_zero_of_letterEscape? character, zeroFree_nil⟩
  | number value => exact zeroFree_cons.mpr ⟨by decide, zeroFree_of_hexNumber? value⟩
  | @pair a b c d e f g h _ _ first _ _ second =>
    have one := zeroFree_of_hexNumber? first
    have two := zeroFree_of_hexNumber? second
    have between : ZeroFree [ascii '\\', ascii 'u'] := by decide
    have all : ZeroFree
        ([ascii 'u'] ++ ([a, b, c, d] ++ ([ascii '\\', ascii 'u'] ++ [e, f, g, h]))) := by
      simp only [zeroFree_append, one, two, between, and_true]
      decide
    exact all

theorem Spelling.zeroFree {text bytes : List UInt8} (form : Spelling text bytes) :
    ZeroFree text := by
  induction form with
  | nil => exact zeroFree_nil
  | plain plain _ ih => exact zeroFree_cons.mpr ⟨ne_zero_of_isPlain plain, ih⟩
  | escape character _ ih =>
    exact zeroFree_cons.mpr ⟨by decide, zeroFree_append.mpr ⟨character.zeroFree, ih⟩⟩

theorem StringForm.zeroFree {text : List UInt8} {s : String} (form : StringForm text s) :
    ZeroFree text := by
  cases form with
  | quoted spelling =>
    exact zeroFree_cons.mpr ⟨by decide, zeroFree_append.mpr ⟨spelling.zeroFree, by decide⟩⟩

theorem PassedEscape.zeroFree {text : List UInt8} (form : PassedEscape text) : ZeroFree text := by
  cases form with
  | letter character =>
    exact zeroFree_cons.mpr ⟨ne_zero_of_letterEscape? character, zeroFree_nil⟩
  | number value => exact zeroFree_cons.mpr ⟨by decide, zeroFree_of_hexNumber? value⟩

theorem PassedText.zeroFree {text : List UInt8} (form : PassedText text) : ZeroFree text := by
  induction form with
  | nil => exact zeroFree_nil
  | plain plain _ ih => exact zeroFree_cons.mpr ⟨ne_zero_of_isPlain plain, ih⟩
  | escape character _ ih =>
    exact zeroFree_cons.mpr ⟨by decide, zeroFree_append.mpr ⟨character.zeroFree, ih⟩⟩

/-! ## Values -/

theorem Bracket.opening_ne_zero (bracket : Bracket) : bracket.opening ≠ 0 := by
  cases bracket with
  | list | object => decide

theorem Bracket.closing_ne_zero (bracket : Bracket) : bracket.closing ≠ 0 := by
  cases bracket with
  | list | object => decide

theorem Lead.zeroFree {bracket : Bracket} {text : List UInt8} (form : Lead bracket text) :
    ZeroFree text := by
  have quote : ascii '"' ≠ 0 := by decide
  have colon : ascii ':' ≠ 0 := by decide
  cases form with
  | list => exact zeroFree_nil
  | object before key between =>
    simp only [zeroFree_append, zeroFree_cons, zeroFree_nil, before.zeroFree, key.zeroFree,
      between.zeroFree, ne_eq, quote, colon, not_false_eq_true, and_self]

theorem WellFormed.zeroFree {part : Part} {text : List UInt8} (form : WellFormed part text) :
    ZeroFree text := by
  have comma : ascii ',' ≠ 0 := by decide
  induction form with
  | word known =>
    rcases known with rfl | rfl | rfl
    all_goals decide
  | number form => exact form.zeroFree
  | negative form => exact zeroFree_cons.mpr ⟨by decide, form.zeroFree⟩
  | text form =>
    exact zeroFree_cons.mpr ⟨by decide, zeroFree_append.mpr ⟨form.zeroFree, by decide⟩⟩
  | empty bracket blank =>
    simp only [zeroFree_append, zeroFree_cons, zeroFree_nil, blank.zeroFree, ne_eq,
      bracket.opening_ne_zero, bracket.closing_ne_zero, not_false_eq_true, and_self]
  | @bracket bracket _ _ _ _ lead blank _ _ value behind =>
    simp only [zeroFree_append, zeroFree_cons, lead.zeroFree, blank.zeroFree, value, behind, ne_eq,
      bracket.opening_ne_zero, not_false_eq_true, and_self]
  | last bracket blank =>
    simp only [zeroFree_append, zeroFree_cons, zeroFree_nil, blank.zeroFree, ne_eq,
      bracket.closing_ne_zero, not_false_eq_true, and_self]
  | next before lead blank _ _ value behind =>
    simp only [zeroFree_append, zeroFree_cons, before.zeroFree, lead.zeroFree, blank.zeroFree,
      value, behind, ne_eq, comma, not_false_eq_true, and_self]

/-! ## Images -/

theorem Before.zeroFree {first : Bool} {before : List UInt8} (leads : Before first before) :
    ZeroFree before := by
  cases leads with
  | first blank => exact blank.zeroFree
  | next before blank =>
    exact zeroFree_append.mpr ⟨before.zeroFree, zeroFree_cons.mpr ⟨by decide, blank.zeroFree⟩⟩

theorem Items.zeroFree {α : Type} {closing : UInt8} {Item : Form α} {first : Bool}
    {text : List UInt8} {values : List α} (items : Items closing Item first text values)
    (closes : closing ≠ 0) (each : ∀ a ∈ values, ∀ item, Item item a → ZeroFree item) :
    ZeroFree text := by
  induction items with
  | last blank => simp only [zeroFree_append, zeroFree_cons, blank.zeroFree, ne_eq, closes,
      not_false_eq_true, zeroFree_nil, and_self]
  | next leads form _ ih =>
    obtain ⟨item, others⟩ := List.forall_mem_cons.mp each
    simp only [zeroFree_append, leads.zeroFree, item _ form, ih others, and_self]

theorem MemberForm.zeroFree {text : List UInt8} {m : String × List UInt8}
    (form : MemberForm text m) (value : ZeroFree m.2) : ZeroFree text := by
  have colon : ascii ':' ≠ 0 := by decide
  cases form with
  | keyed name between blank =>
    simp only [zeroFree_append, zeroFree_cons, name.zeroFree, between.zeroFree, blank.zeroFree,
      value, ne_eq, colon, not_false_eq_true, and_self]

theorem OccursOnce.zeroFree {α : Type} {Value : Form α} {key : String}
    {members : List (String × List UInt8)} {a : α} (once : OccursOnce Value key members a)
    (free : ∀ {text a}, Value text a → ZeroFree text) :
    ∀ m ∈ members, m.1 = key → ZeroFree m.2 := by
  intro m mem named
  obtain ⟨text, only, form⟩ := once
  have kept : m ∈ members.filter fun m => m.1 = key := by
    rw [List.mem_filter]
    exact ⟨mem, by simpa using named⟩
  rw [only, List.mem_singleton] at kept
  rw [kept]
  exact free form

theorem RecordForm.zeroFree {α β : Type} {firstKey secondKey : String} {First : Form α}
    {Second : Form β} {text : List UInt8} {pair : α × β}
    (form : RecordForm firstKey secondKey First Second text pair)
    (first : ∀ {text a}, First text a → ZeroFree text)
    (second : ∀ {text b}, Second text b → ZeroFree text) : ZeroFree text := by
  have bracket : ascii '[' ≠ 0 := by decide
  have closing : ascii ']' ≠ 0 := by decide
  have comma : ascii ',' ≠ 0 := by decide
  cases form with
  | object members one two passed =>
    cases members with
    | items items =>
      refine zeroFree_cons.mpr ⟨by decide, items.zeroFree (by decide) fun m mem item named => ?_⟩
      apply named.zeroFree
      -- every member has one of the two keys or a value that was passed over
      by_cases firstNamed : m.1 = firstKey
      · exact one.zeroFree first m mem firstNamed
      by_cases secondNamed : m.1 = secondKey
      · exact two.zeroFree second m mem secondNamed
      exact (passed m mem firstNamed secondNamed).zeroFree
  | list before one between blank two behind =>
    simp only [zeroFree_append, zeroFree_cons, zeroFree_nil, before.zeroFree, first one,
      between.zeroFree, blank.zeroFree, second two, behind.zeroFree, ne_eq, bracket, closing, comma,
      not_false_eq_true, and_self]

theorem ConfigForm.zeroFree {text : List UInt8} {c : Config} (form : ConfigForm text c) :
    ZeroFree text := by
  have word {text : List UInt8} {n : UInt32} (form : Word32Form text n) : ZeroFree text :=
    form ▸ zeroFree_decimal n.toNat
  exact RecordForm.zeroFree form word word

theorem TableForm.zeroFree {text : List UInt8} {t : Table} (form : TableForm text t) :
    ZeroFree text := by
  obtain ⟨values, list, -⟩ := form
  cases list with
  | items items =>
    refine zeroFree_cons.mpr ⟨by decide, items.zeroFree (by decide) fun n _ text form => ?_⟩
    exact form ▸ zeroFree_decimal n.toNat

theorem ImageText.zeroFree {text : List UInt8} {m : Image} (form : ImageText text m) :
    ZeroFree text := by
  obtain ⟨before, value, behind, rfl, spaced, left, c, t, record, -⟩ := form
  have inner := record.zeroFree ConfigForm.zeroFree TableForm.zeroFree
  simp only [zeroFree_append, spaced.zeroFree, inner, left.zeroFree, and_self]

end Json

/-! ## The binary form -/

/-- A number that fits fewer bytes than it takes ends in a zero byte. -/
theorem zero_mem_littleEndian {width n : Nat} (small : n < Nat.pow 256 width) :
    0 ∈ littleEndian (width + 1) n := by
  induction width generalizing n with
  | zero =>
    obtain rfl : n = 0 := Nat.lt_one_iff.mp small
    exact List.mem_cons_self ..
  | succ width ih =>
    have shorter : n / 256 < Nat.pow 256 width := by
      apply Nat.div_lt_of_lt_mul
      rwa [Nat.mul_comm]
    rw [littleEndian]
    exact List.mem_cons_of_mem _ (ih shorter)

theorem Binary.zero_mem_of_decode {d : List UInt8} {m : Image}
    (read : Binary.decode Binary.image d = .ok m) : 0 ∈ d := by
  obtain ⟨rest, rfl⟩ := Binary.decode_eq_ok_iff.mp read
  have small : m.table.values.toList.length < Nat.pow 256 7 :=
    Nat.lt_trans m.table.size_lt (by decide)
  have length := zero_mem_littleEndian small
  have values : 0 ∈ Binary.ofValues m.table.values.toList := List.mem_append_left _ length
  exact List.mem_append_left _ (List.mem_append_right _ values)

namespace Image

theorem not_json_of_binary {d : List UInt8} {m n : Image}
    (binary : Binary.decode Binary.image d = .ok m) : Json.decode Json.image d ≠ .ok n := by
  intro json
  have text := (Json.decode_of_reads Json.reads_image d n).mp json
  exact Json.ImageText.zeroFree text 0 (Binary.zero_mem_of_decode binary) rfl

theorem ofContent_eq_ok_iff {d : List UInt8} {path : String} {m : Image} :
    ofContent path d = .ok m ↔
      (Path.isBinary path = true ∧ Binary.decode Binary.image d = .ok m) ∨
        (Path.isBinary path = false ∧ Json.decode Json.image d = .ok m) := by
  have mapped {ε : Type} (f : ε → Error) (outcome : Except ε Image) :
      outcome.mapError f = .ok m ↔ outcome = .ok m := by
    constructor
    · exact Json.Record.ok_of_mapError
    · rintro rfl
      rfl
  unfold ofContent
  cases Path.isBinary path <;> simp [mapped]

/-- Bytes that are an image under two names are one image, and the names are of one kind. -/
theorem eq_of_ofContent {d : List UInt8} {path other : String} {m n : Image}
    (one : ofContent path d = .ok m) (two : ofContent other d = .ok n) :
    Path.isBinary path = Path.isBinary other ∧ m = n := by
  rcases ofContent_eq_ok_iff.mp one with ⟨oneKind, first⟩ | ⟨oneKind, first⟩
  · rcases ofContent_eq_ok_iff.mp two with ⟨twoKind, second⟩ | ⟨twoKind, second⟩
    · exact ⟨oneKind.trans twoKind.symm, Except.ok.inj (first.symm.trans second)⟩
    · exact absurd second (not_json_of_binary first)
  · rcases ofContent_eq_ok_iff.mp two with ⟨twoKind, second⟩ | ⟨twoKind, second⟩
    · exact absurd first (not_json_of_binary second)
    · exact ⟨oneKind.trans twoKind.symm, Except.ok.inj (first.symm.trans second)⟩

theorem error_of_content (m : Image) {path other : String}
    (differ : Path.isBinary path ≠ Path.isBinary other) :
    ∃ e, ofContent other (m.content path) = .error e := by
  cases outcome : ofContent other (m.content path) with
  | error e => exact ⟨e, rfl⟩
  | ok n => exact absurd (eq_of_ofContent (ofContent_content m path) outcome).1 differ

section Files

variable {σ : Type} [Files (StateM σ)]

/-- The two forms cannot be confused: no bytes are decoded in both, so the content of a file under a
name of one kind is refused under a name of the other kind. Where files keep what is written to
them, what has been saved is not loaded from a file of the other kind to which it was copied, and a
file has the same meaning under every name under which it has one. -/
theorem forms_apart :
    (∀ (d : List UInt8) (m n : Image),
      ¬ (Binary.decode Binary.image d = .ok m ∧ Json.decode Json.image d = .ok n)) ∧
      (∀ (m : Image) (path other : String), Path.isBinary path ≠ Path.isBinary other →
        ∃ e, ofContent other (m.content path) = .error e) ∧
      (Files.Keep σ → ∀ (m : Image) (path other : String) (before after copied : σ),
        Path.isBinary path ≠ Path.isBinary other →
        (m.save path : StateM σ (Except Error Unit)).run before = (.ok (), after) →
        ((Files.read other : StateM σ (Except FileError (List UInt8))).run copied).1 =
          ((Files.read path : StateM σ (Except FileError (List UInt8))).run after).1 →
        ∃ e, ((load other : StateM σ (Except Error Image)).run copied).1 = .error e) ∧
      (∀ (path other : String) (d : List UInt8) (first second : σ) (m n : Image),
        ((Files.read path : StateM σ (Except FileError (List UInt8))).run first).1 = .ok d →
        ((Files.read other : StateM σ (Except FileError (List UInt8))).run second).1 = .ok d →
        ((load path : StateM σ (Except Error Image)).run first).1 = .ok m →
        ((load other : StateM σ (Except Error Image)).run second).1 = .ok n →
        Path.isBinary path = Path.isBinary other ∧ m = n) := by
  refine ⟨fun d m n both => not_json_of_binary both.1 both.2, ?_, ?_, ?_⟩
  · exact fun m path other differ => error_of_content m differ
  · intro keep m path other before after copied differ saved same
    have read := same.trans (keep (write_of_save saved))
    rw [load_of_read read]
    exact error_of_content m differ
  · intro path other d first second m n one two loaded again
    rw [load_of_read one] at loaded
    rw [load_of_read two] at again
    exact eq_of_ofContent loaded again

end Files

/-- An image in each form, copied to a file whose name is of the other kind, and once to one whose
name is of the same kind. -/
theorem forms_apart_copied :
    ∃ (m : Image) (binary json renamed indented moved : Directory),
      (m.save "a.bin" : StateM Directory (Except Error Unit)).run .empty = (.ok (), binary) ∧
      (m.save "a.bin.json" : StateM Directory (Except Error Unit)).run .empty = (.ok (), json) ∧
      renamed = Directory.empty.put ["a.json"] (.file (Binary.ofImage m)) ∧
      indented = Directory.empty.put ["b.bin"] (.file (Json.Written.ofImage m (.indented 0))) ∧
      moved = Directory.empty.put ["b.bin"] (.file (Binary.ofImage m)) ∧
      (∃ e, ((load "a.json" : StateM Directory (Except Error Image)).run renamed).1 = .error e) ∧
      (∃ e, ((load "b.bin" : StateM Directory (Except Error Image)).run indented).1 = .error e) ∧
      ∀ n, ((load "b.bin" : StateM Directory (Except Error Image)).run moved).1 = .ok n → m = n := by
  let t : Table := ⟨#[7], by decide, by decide, by decide⟩
  let m : Image := ⟨⟨1, 1⟩, t, by decide, by decide⟩
  obtain ⟨-, -, stored, unique⟩ := forms_apart (σ := Directory)
  have apart := stored Directory.keeps
  let saved : Directory := Directory.empty.put ["a.bin"] (.file (m.content "a.bin"))
  have read : ((Files.read "a.bin" : StateM Directory (Except FileError (List UInt8))).run
      saved).1 = .ok (m.content "a.bin") := rfl
  refine ⟨m, saved, _, _, _, _, rfl, rfl, rfl, rfl, rfl, ?_, ?_, fun n loaded => ?_⟩
  · exact apart m "a.bin" "a.json" .empty saved _ (by decide) rfl rfl
  · exact apart m "a.bin.json" "b.bin" .empty _ _ (by decide) rfl rfl
  · have first := (load_of_read read).trans (ofContent_content m "a.bin")
    exact (unique "a.bin" "b.bin" (m.content "a.bin") saved _ m n read rfl first loaded).2

end Image

end TableSearch
