import TableSearch.Json.Reader
import TableSearch.Json.Writer
import TableSearch.Proofs.Utf8Form

/-!
# Reading back written tokens

White space is skipped whatever its length, a number is read up to the last of its digits and a key
up to its closing quote. A number needs to know that what follows it does not go on with it: that
is `Stops`, which a comma, a bracket, white space and the end of the text meet.
-/

namespace TableSearch.Json

/-! ## White space -/

/-- Nothing but white space. -/
def Blank (bytes : List UInt8) : Prop := ∀ b ∈ bytes, isSpace b = true

theorem blank_nil : Blank [] := List.forall_mem_nil _

theorem Layout.blank_newline (layout : Layout) : Blank layout.newline := by
  intro b mem
  cases layout with
  | compact => cases mem
  | indented depth =>
    rcases List.mem_cons.mp mem with rfl | mem
    · rfl
    · rw [List.eq_of_mem_replicate mem]
      rfl

theorem Layout.blank_behindColon (layout : Layout) : Blank layout.behindColon := by
  intro b mem
  cases layout with
  | compact => cases mem
  | indented depth =>
    rw [List.mem_singleton.mp mem]
    rfl

theorem skipSpace_blank {bytes : List UInt8} (blank : Blank bytes) (input : List UInt8) :
    skipSpace (bytes ++ input) = skipSpace input :=
  List.dropWhile_append_of_pos blank

theorem skipSpace_eq_nil_iff {input : List UInt8} : skipSpace input = [] ↔ Blank input := by
  constructor
  · intro ended
    have all := List.takeWhile_append_dropWhile (p := isSpace) (l := input)
    rw [← skipSpace, ended, List.append_nil] at all
    rw [← all]
    exact List.all_eq_true.mp List.all_takeWhile
  · intro blank
    have ended := skipSpace_blank blank []
    rwa [List.append_nil] at ended

theorem skipSpace_cons {b : UInt8} (solid : isSpace b = false) (input : List UInt8) :
    skipSpace (b :: input) = b :: input := by
  rw [skipSpace, List.dropWhile_cons_of_neg (by simp [solid])]

theorem skipSpace_blank_cons {bytes : List UInt8} (blank : Blank bytes) {b : UInt8}
    (solid : isSpace b = false) (input : List UInt8) :
    skipSpace (bytes ++ b :: input) = b :: input := by
  rw [skipSpace_blank blank, skipSpace_cons solid]

/-- What stands before an item: white space, and a comma between it and the item before. -/
inductive Before : Bool → List UInt8 → Prop
  | first {blank : List UInt8} : Blank blank → Before true blank
  | next {before blank : List UInt8} : Blank before → Blank blank →
    Before false (before ++ ascii ',' :: blank)

/-- The text starts with a byte that neither is skipped nor ends a list. -/
def Starts (text : List UInt8) : Prop :=
  ∃ b behind, text = b :: behind ∧ isSpace b = false ∧ b ≠ ascii ']'

theorem Starts.append {text : List UInt8} (starts : Starts text) (rest : List UInt8) :
    Starts (text ++ rest) := by
  obtain ⟨b, behind, rfl, solid, item⟩ := starts
  exact ⟨b, behind ++ rest, rfl, solid, item⟩

/-! ## Numbers -/

/-- The input does not go on with a number. -/
def Stops : List UInt8 → Prop
  | [] => True
  | b :: _ => isDigit b = false ∧ b ≠ ascii '.' ∧ isExponentMark b = false

theorem stops_of_isSpace {b : UInt8} (space : isSpace b = true) (input : List UInt8) :
    Stops (b :: input) := by
  simp only [isSpace, Bool.or_eq_true, decide_eq_true_eq] at space
  rcases space with ((rfl | rfl) | rfl) | rfl
  all_goals exact ⟨rfl, by decide, rfl⟩

theorem stops_blank {bytes input : List UInt8} (blank : Blank bytes) (stops : Stops input) :
    Stops (bytes ++ input) := by
  cases bytes with
  | nil => exact stops
  | cons b bytes => exact stops_of_isSpace (blank b (List.mem_cons_self ..)) _

theorem toNat_ascii {c : Char} (small : c.toNat < 128) : (ascii c).toNat = c.toNat :=
  Nat.mod_eq_of_lt (Nat.lt_of_lt_of_le small (by decide))

theorem isDigit_ascii {c : Char} (digit : c.isDigit = true) :
    isDigit (ascii c) = true ∧ digitValue (ascii c) = c.toNat - 48 := by
  obtain ⟨low, high⟩ := Char.isDigit_iff_toNat.mp digit
  have byte := toNat_ascii (Nat.lt_of_le_of_lt high (by decide))
  refine ⟨?_, ?_⟩
  · simp only [isDigit, Bool.and_eq_true, decide_eq_true_eq, UInt8.le_iff_toNat_le, byte]
    exact ⟨low, high⟩
  · rw [digitValue, byte]

theorem le_ofDigitChars (taken : List Char) (n : Nat) : n ≤ Nat.ofDigitChars 10 taken n := by
  induction taken generalizing n with
  | nil => exact Nat.le_of_eq Nat.ofDigitChars_nil.symm
  | cons c taken ih =>
    rw [Nat.ofDigitChars_cons]
    have further := ih (10 * n + (c.toNat - '0'.toNat))
    omega

theorem digits_of_stops {rest : List UInt8} (stops : Stops rest) (limit n : Nat) :
    digits limit n rest = (n, rest) := by
  cases rest with
  | nil => rfl
  | cons b rest => rw [digits, if_neg (by simp [stops.1])]

/-- Digits that stay within the limit are all taken. -/
theorem digits_ascii {limit n : Nat} {taken : List Char} {rest : List UInt8}
    (all : ∀ c ∈ taken, c.isDigit = true) (small : Nat.ofDigitChars 10 taken n ≤ limit)
    (stops : Stops rest) :
    digits limit n (taken.map ascii ++ rest) = (Nat.ofDigitChars 10 taken n, rest) := by
  induction taken generalizing n with
  | nil => rw [List.map_nil, List.nil_append, digits_of_stops stops, Nat.ofDigitChars_nil]
  | cons c taken ih =>
    obtain ⟨digit, value⟩ := isDigit_ascii (all c (List.mem_cons_self ..))
    rw [Nat.ofDigitChars_cons] at small ⊢
    have kept := Nat.le_trans (le_ofDigitChars taken (10 * n + (c.toNat - '0'.toNat))) small
    rw [List.map_cons, List.cons_append, digits, value, if_pos ⟨digit, kept⟩]
    exact ih (fun d mem => all d (List.mem_cons_of_mem _ mem)) small

/-- A decimal number starts with a zero only if it is zero. -/
theorem exists_cons_of_toDigits {n : Nat} (positive : 0 < n) :
    ∃ c others, Nat.toDigits 10 n = c :: others ∧ isDigit (ascii c) = true ∧
      ascii c ≠ ascii '0' := by
  induction n using Nat.base_induction 10 (by decide) with
  | single n small =>
    have alone := Nat.toDigits_of_lt_base small
    have mem : n.digitChar ∈ Nat.toDigits 10 n := by
      rw [alone]
      exact List.mem_singleton_self _
    obtain ⟨digit, value⟩ := isDigit_ascii (Nat.isDigit_of_mem_toDigits (by decide) (by decide) mem)
    refine ⟨n.digitChar, [], alone, digit, fun zero => ?_⟩
    rw [Nat.toNat_digitChar_sub_48_of_lt_ten small, zero] at value
    exact absurd value (Nat.ne_of_lt positive)
  | digit n last small leading ih =>
    -- a further digit goes behind the others and leaves the first one in its place
    obtain ⟨c, others, same, digit, nonzero⟩ := ih leading
    refine ⟨c, others ++ Nat.toDigits 10 last, ?_, digit, nonzero⟩
    rw [← Nat.toDigits_append_toDigits (by decide) leading small, same, List.cons_append]

theorem afterInteger_of_stops {rest : List UInt8} (stops : Stops rest) (n : Nat) :
    afterInteger false n 0 rest = .ok (.natural n, rest) := by
  cases rest with
  | nil => rfl
  | cons b rest =>
    rcases stops with ⟨-, point, mark⟩
    rw [afterInteger, if_neg point, if_neg (by simp [mark])]
    rfl

theorem number_zero {rest : List UInt8} (stops : Stops rest) :
    number false (ascii '0' :: rest) = .ok (.natural 0, rest) := by
  cases rest with
  | nil => rfl
  | cons b rest =>
    have next : ¬ isDigit b = true := by simp [stops.1]
    simp only [number, if_pos, if_neg next]
    exact afterInteger_of_stops stops 0

theorem number_natural {n : Nat} (small : n ≤ largest) {rest : List UInt8} (stops : Stops rest)
    (layout : Layout) :
    number false (Written.natural n layout ++ rest) = .ok (.natural n, rest) := by
  rcases Nat.eq_zero_or_pos n with rfl | positive
  · exact number_zero stops
  · have all : ∀ d ∈ Nat.toDigits 10 n, d.isDigit = true := fun d mem =>
      Nat.isDigit_of_mem_toDigits (by decide) (by decide) mem
    have value : Nat.ofDigitChars 10 (Nat.toDigits 10 n) 0 = n := Nat.ofDigitChars_ten_toDigits
    have taken : digits largest 0 (Written.natural n layout ++ rest) = (n, rest) := by
      rw [← value] at small
      have read := digits_ascii all small stops
      rw [value] at read
      exact read
    obtain ⟨c, others, same, digit, nonzero⟩ := exists_cons_of_toDigits positive
    have form : Written.natural n layout = ascii c :: others.map ascii := by
      rw [Written.natural, same, List.map_cons]
    -- no digit is left to be dropped, so the number stays an integer
    have none : rest.takeWhile isDigit = [] ∧ rest.dropWhile isDigit = rest := by
      cases rest with
      | nil => exact ⟨rfl, rfl⟩
      | cons b rest => simp [stops.1]
    rw [form, List.cons_append] at taken ⊢
    simp only [number, if_neg nonzero, if_pos digit, taken, none, List.length_nil]
    exact afterInteger_of_stops stops n

theorem exists_cons_of_natural (n : Nat) (layout : Layout) :
    ∃ b others, Written.natural n layout = b :: others ∧ isDigit b = true := by
  rcases Nat.eq_zero_or_pos n with rfl | positive
  · exact ⟨ascii '0', [], rfl, by decide⟩
  · obtain ⟨c, others, same, digit, -⟩ := exists_cons_of_toDigits positive
    exact ⟨ascii c, others.map ascii, by rw [Written.natural, same, List.map_cons], digit⟩

/-! ## Keys -/

/-- The characters of a key stand for themselves between quotes, in one byte each. -/
def Plain (key : String) : Prop := ∀ c ∈ key.toList, c.toNat < 128 ∧ isPlain (ascii c) = true

instance (key : String) : Decidable (Plain key) :=
  List.decidableBAll (fun c : Char => c.toNat < 128 ∧ isPlain (ascii c) = true) key.toList

theorem encodeChar_ascii {c : Char} (small : c.toNat < 128) :
    String.utf8EncodeChar c = [ascii c] :=
  Utf8.encodeChar_one small

theorem encode_singleton {c : Char} (small : c.toNat < 128) :
    Utf8.encode (String.singleton c) = [ascii c] := by
  rw [String.singleton_eq_ofList, Utf8.encode_ofList, List.flatMap_singleton,
    encodeChar_ascii small]

theorem quotedChar_plain {c : Char} (small : c.toNat < 128) (plain : isPlain (ascii c) = true) :
    Written.quotedChar c = [ascii c] := by
  simp only [isPlain, Bool.and_eq_true, decide_eq_true_eq, UInt8.le_iff_toNat_le,
    toNat_ascii small] at plain
  rcases plain with ⟨⟨quote, backslash⟩, printable⟩
  have printable : 32 ≤ c.toNat := printable
  have above : ∀ d : Char, d.toNat < 32 → c ≠ d := by
    rintro d low rfl
    exact absurd low (Nat.not_lt_of_le printable)
  rw [Written.quotedChar, if_neg (fun same => quote (congrArg ascii same)),
    if_neg (fun same => backslash (congrArg ascii same)), if_neg (above _ (by decide)),
    if_neg (above _ (by decide)), if_neg (above _ (by decide)), if_neg (above _ (by decide)),
    if_neg (above _ (by decide)), if_neg (Nat.not_lt_of_le printable), encode_singleton small]

theorem textBytesAfter_plain {bytes : List UInt8} (plain : ∀ b ∈ bytes, isPlain b = true)
    (done : Array UInt8) (rest : List UInt8) :
    textBytesAfter done (bytes ++ ascii '"' :: rest) = .ok (done ++ bytes, rest) := by
  have stop : (bytes ++ ascii '"' :: rest).dropWhile isPlain = ascii '"' :: rest := by
    rw [List.dropWhile_append_of_pos plain]
    rfl
  have taken : (bytes ++ ascii '"' :: rest).takeWhile isPlain = bytes := by
    rw [List.takeWhile_append_of_pos plain, List.takeWhile_cons_of_neg (by decide), List.append_nil]
  rw [textBytesAfter]
  split
  · next none => rw [stop] at none; cases none
  · next b behind found =>
    obtain ⟨rfl, rfl⟩ := List.cons.inj (stop.symm.trans found)
    rw [if_pos rfl, taken]

theorem written_text_plain {key : String} (plain : Plain key) (layout : Layout) :
    Written.text key layout = ascii '"' :: (key.toList.map ascii ++ [ascii '"']) := by
  have bytes : key.toList.flatMap Written.quotedChar = key.toList.map ascii := by
    rw [List.map_eq_flatMap, List.flatMap_def, List.flatMap_def,
      List.map_congr_left fun c mem => quotedChar_plain (plain c mem).1 (plain c mem).2]
  rw [Written.text, bytes]

theorem isPlain_of_mem_key {key : String} (plain : Plain key) :
    ∀ b ∈ key.toList.map ascii, isPlain b = true := by
  intro b mem
  obtain ⟨c, inside, rfl⟩ := List.mem_map.mp mem
  exact (plain c inside).2

theorem text_key {key : String} (plain : Plain key) (rest : List UInt8) :
    text (key.toList.map ascii ++ ascii '"' :: rest) = .ok (key, rest) := by
  have codes := Utf8.codes_ascii fun c mem => (plain c mem).1
  have decoded : Utf8.decode (key.toList.map ascii) = (key.toList, []) :=
    Utf8.decode_eq_iff.mpr codes.symm
  rw [text, textBytesAfter_plain (isPlain_of_mem_key plain)]
  simp [decoded]

theorem text_plain {key : String} (plain : Plain key) (layout : Layout) (rest : List UInt8) :
    ∃ behind, Written.text key layout ++ rest = ascii '"' :: behind ∧
      text behind = .ok (key, rest) := by
  refine ⟨key.toList.map ascii ++ ascii '"' :: rest, ?_, text_key plain rest⟩
  rw [written_text_plain plain, List.cons_append, List.append_assoc, List.singleton_append]

end TableSearch.Json
