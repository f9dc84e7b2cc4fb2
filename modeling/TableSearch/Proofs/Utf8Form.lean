import TableSearch.Bytes.Ascii
import TableSearch.Text.Utf8

/-!
# UTF-8 is read as it is written

A character is taken off the front of a byte sequence exactly where its own code starts the
sequence: no other bytes are taken for it, however they might decode. So `decode` takes a whole
sequence exactly if it is the code of the characters that it returns.
-/

namespace TableSearch.Utf8

theorem charAtLeast?_eq_some_iff {least code : Nat} {c : Char} :
    charAtLeast? least code = some c ↔ least ≤ code ∧ c.toNat = code := by
  unfold charAtLeast?
  constructor
  · intro found
    split at found
    · next fits =>
      cases found
      rw [Char.ofNat, dif_pos fits.2]
      exact ⟨fits.1, rfl⟩
    · cases found
  · rintro ⟨enough, rfl⟩
    have valid : c.toNat.isValidChar := c.valid
    rw [if_pos ⟨enough, valid⟩, Char.ofNat_toNat]

theorem byte_eq {n : Nat} {b : UInt8} (same : n = b.toNat) : UInt8.ofNat n = b := by
  rw [same, UInt8.ofNat_toNat]

theorem isContinuation_iff {b : UInt8} :
    isContinuation b = true ↔ 128 ≤ b.toNat ∧ b.toNat < 192 := by
  simp only [isContinuation, Bool.and_eq_true, decide_eq_true_eq, UInt8.le_iff_toNat_le,
    UInt8.lt_iff_toNat_lt, UInt8.reduceToNat]

theorem toNat_continuation (bits : Nat) :
    (UInt8.ofNat (bits % 64 + 128)).toNat = bits % 64 + 128 := by
  apply UInt8.toNat_ofNat_of_lt'
  unfold UInt8.size
  omega

theorem isContinuation_byte (bits : Nat) :
    isContinuation (UInt8.ofNat (bits % 64 + 128)) = true := by
  rw [isContinuation_iff, toNat_continuation]
  omega

theorem low_byte (bits : Nat) : low (UInt8.ofNat (bits % 64 + 128)) = bits % 64 := by
  rw [low, toNat_continuation]
  omega

/-- A continuation byte holds its six bits above 128. -/
theorem byte_of_isContinuation {b : UInt8} (continues : isContinuation b = true) {bits : Nat}
    (same : bits % 64 = low b) : UInt8.ofNat (bits % 64 + 128) = b := by
  have range := isContinuation_iff.mp continues
  apply byte_eq
  rw [same, low]
  omega

/-! ## The code of a character, by its length -/

section Codes

variable {c : Char}

theorem toNat_lt (c : Char) : c.toNat < 0x110000 := by
  have valid : c.toNat < 0xd800 ∨ 0xdfff < c.toNat ∧ c.toNat < 0x110000 := c.valid
  omega

theorem encodeChar_one (small : c.toNat < 0x80) :
    String.utf8EncodeChar c = [UInt8.ofNat c.toNat] := by
  have one : c.toNat ≤ 0x7f := Nat.le_of_lt_succ small
  simp only [String.utf8EncodeChar, Char.toNat_val, if_pos one]

theorem encodeChar_two (large : 0x80 ≤ c.toNat) (small : c.toNat < 0x800) :
    String.utf8EncodeChar c =
      [UInt8.ofNat (c.toNat / 64 + 192), UInt8.ofNat (c.toNat % 64 + 128)] := by
  have one : ¬ c.toNat ≤ 0x7f := Nat.not_le_of_lt large
  have two : c.toNat ≤ 0x7ff := Nat.le_of_lt_succ small
  have lead : c.toNat / 64 % 32 = c.toNat / 64 := Nat.mod_eq_of_lt (by omega)
  simp only [String.utf8EncodeChar, Char.toNat_val, if_neg one, if_pos two, lead]

theorem encodeChar_three (large : 0x800 ≤ c.toNat) (small : c.toNat < 0x10000) :
    String.utf8EncodeChar c = [UInt8.ofNat (c.toNat / 4096 + 224),
      UInt8.ofNat (c.toNat / 64 % 64 + 128), UInt8.ofNat (c.toNat % 64 + 128)] := by
  have one : ¬ c.toNat ≤ 0x7f := by omega
  have two : ¬ c.toNat ≤ 0x7ff := Nat.not_le_of_lt large
  have three : c.toNat ≤ 0xffff := Nat.le_of_lt_succ small
  have lead : c.toNat / 4096 % 16 = c.toNat / 4096 := Nat.mod_eq_of_lt (by omega)
  simp only [String.utf8EncodeChar, Char.toNat_val, if_neg one, if_neg two, if_pos three, lead]

theorem encodeChar_four (large : 0x10000 ≤ c.toNat) :
    String.utf8EncodeChar c = [UInt8.ofNat (c.toNat / 262144 + 240),
      UInt8.ofNat (c.toNat / 4096 % 64 + 128), UInt8.ofNat (c.toNat / 64 % 64 + 128),
      UInt8.ofNat (c.toNat % 64 + 128)] := by
  have one : ¬ c.toNat ≤ 0x7f := by omega
  have two : ¬ c.toNat ≤ 0x7ff := by omega
  have three : ¬ c.toNat ≤ 0xffff := Nat.not_le_of_lt large
  have bound := toNat_lt c
  have lead : c.toNat / 262144 % 8 = c.toNat / 262144 := Nat.mod_eq_of_lt (by omega)
  simp only [String.utf8EncodeChar, Char.toNat_val, if_neg one, if_neg two, if_neg three, lead]

end Codes

/-! ## Reading -/

theorem exists_of_map_charAtLeast? {least code : Nat} {c : Char} {behind rest : List UInt8}
    (read : (charAtLeast? least code).map (·, behind) = some (c, rest)) :
    least ≤ code ∧ c.toNat = code ∧ behind = rest := by
  obtain ⟨d, found, pair⟩ := Option.map_eq_some_iff.mp read
  obtain ⟨rfl, rfl⟩ := Prod.mk.inj pair
  obtain ⟨enough, same⟩ := charAtLeast?_eq_some_iff.mp found
  exact ⟨enough, same, rfl⟩

/-- What a character is read from is its code. -/
theorem eq_append_of_decodeChar? {bytes rest : List UInt8} {c : Char}
    (decoded : decodeChar? bytes = some (c, rest)) : bytes = String.utf8EncodeChar c ++ rest := by
  cases bytes with
  | nil => cases decoded
  | cons a tail =>
    simp only [decodeChar?, UInt8.lt_iff_toNat_lt, UInt8.reduceToNat] at decoded
    split at decoded
    · next one =>
      obtain ⟨rfl, rfl⟩ := Prod.mk.inj (Option.some.inj decoded)
      have valid : a.toNat.isValidChar := .inl (by omega)
      have same : (Char.ofNat a.toNat).toNat = a.toNat := by
        rw [Char.ofNat, dif_pos valid]
        rfl
      rw [encodeChar_one (by omega), byte_eq same, List.singleton_append]
    split at decoded
    · cases decoded
    split at decoded
    · next two =>
      split at decoded
      · next b behind =>
        split at decoded
        · next continues =>
          obtain ⟨enough, same, rfl⟩ := exists_of_map_charAtLeast? decoded
          have bits : low b < 64 := Nat.mod_lt _ (by decide)
          rw [encodeChar_two (by omega) (by omega), byte_of_isContinuation continues (by omega),
            byte_eq (b := a) (by omega)]
          rfl
        · cases decoded
      · cases decoded
    split at decoded
    · next three =>
      split at decoded
      · next b c' behind =>
        split at decoded
        · next continues =>
          rw [Bool.and_eq_true] at continues
          obtain ⟨enough, same, rfl⟩ := exists_of_map_charAtLeast? decoded
          have bits : low b < 64 := Nat.mod_lt _ (by decide)
          have more : low c' < 64 := Nat.mod_lt _ (by decide)
          rw [encodeChar_three (by omega) (by omega),
            byte_of_isContinuation continues.1 (by omega),
            byte_of_isContinuation continues.2 (by omega), byte_eq (b := a) (by omega)]
          rfl
        · cases decoded
      · cases decoded
    split at decoded
    · next four =>
      split at decoded
      · next b c' d behind =>
        split at decoded
        · next continues =>
          rw [Bool.and_eq_true, Bool.and_eq_true] at continues
          obtain ⟨enough, same, rfl⟩ := exists_of_map_charAtLeast? decoded
          have bits : low b < 64 := Nat.mod_lt _ (by decide)
          have more : low c' < 64 := Nat.mod_lt _ (by decide)
          have last : low d < 64 := Nat.mod_lt _ (by decide)
          rw [encodeChar_four (by omega), byte_of_isContinuation continues.1.1 (by omega),
            byte_of_isContinuation continues.1.2 (by omega),
            byte_of_isContinuation continues.2 (by omega), byte_eq (b := a) (by omega)]
          rfl
        · cases decoded
      · cases decoded
    · cases decoded

/-- The code of a character is read as the character, whatever follows it. -/
theorem decodeChar?_append (c : Char) (rest : List UInt8) :
    decodeChar? (String.utf8EncodeChar c ++ rest) = some (c, rest) := by
  have bound := toNat_lt c
  have size : UInt8.size = 256 := rfl
  rcases Nat.lt_or_ge c.toNat 0x80 with one | large
  · have lead := UInt8.toNat_ofNat_of_lt' (n := c.toNat) (by omega)
    simp only [encodeChar_one one, List.cons_append, List.nil_append, decodeChar?,
      UInt8.lt_iff_toNat_lt, UInt8.reduceToNat, lead, if_pos one, Char.ofNat_toNat]
  rcases Nat.lt_or_ge c.toNat 0x800 with two | larger
  · have lead := UInt8.toNat_ofNat_of_lt' (n := c.toNat / 64 + 192) (by omega)
    have found : charAtLeast? 0x80 ((c.toNat / 64 + 192) % 32 * 64 + c.toNat % 64) = some c :=
      charAtLeast?_eq_some_iff.mpr (by omega)
    simp only [encodeChar_two large two, List.cons_append, List.nil_append, decodeChar?,
      UInt8.lt_iff_toNat_lt, UInt8.reduceToNat, lead, low_byte, isContinuation_byte, found,
      if_true, Option.map_some]
    rw [if_neg (by omega), if_neg (by omega), if_pos (by omega)]
  rcases Nat.lt_or_ge c.toNat 0x10000 with three | largest
  · have lead := UInt8.toNat_ofNat_of_lt' (n := c.toNat / 4096 + 224) (by omega)
    have found : charAtLeast? 0x800 ((c.toNat / 4096 + 224) % 16 * 4096 +
        c.toNat / 64 % 64 * 64 + c.toNat % 64) = some c :=
      charAtLeast?_eq_some_iff.mpr (by omega)
    simp only [encodeChar_three larger three, List.cons_append, List.nil_append, decodeChar?,
      UInt8.lt_iff_toNat_lt, UInt8.reduceToNat, lead, low_byte, isContinuation_byte, found,
      Bool.and_self, if_true, Option.map_some]
    rw [if_neg (by omega), if_neg (by omega), if_neg (by omega), if_pos (by omega)]
  · have lead := UInt8.toNat_ofNat_of_lt' (n := c.toNat / 262144 + 240) (by omega)
    have found : charAtLeast? 0x10000 ((c.toNat / 262144 + 240) % 8 * 262144 +
        c.toNat / 4096 % 64 * 4096 + c.toNat / 64 % 64 * 64 + c.toNat % 64) = some c :=
      charAtLeast?_eq_some_iff.mpr (by omega)
    simp only [encodeChar_four largest, List.cons_append, List.nil_append, decodeChar?,
      UInt8.lt_iff_toNat_lt, UInt8.reduceToNat, lead, low_byte, isContinuation_byte, found,
      Bool.and_self, if_true, Option.map_some]
    rw [if_neg (by omega), if_neg (by omega), if_neg (by omega), if_neg (by omega),
      if_pos (by omega)]

/-! ## Whole sequences -/

theorem decodeAfter_codes (done : Array Char) (chars : List Char) :
    decodeAfter done (chars.flatMap String.utf8EncodeChar) = (done ++ chars.toArray, []) := by
  induction chars generalizing done with
  | nil =>
    rw [List.flatMap_nil, decodeAfter]
    simp [decodeChar?]
  | cons c chars ih =>
    have taken := decodeChar?_append c (chars.flatMap String.utf8EncodeChar)
    rw [List.flatMap_cons, decodeAfter]
    split
    · next d rest decoded =>
      obtain ⟨rfl, rfl⟩ := Prod.mk.inj (Option.some.inj (taken.symm.trans decoded))
      rw [ih]
      simp
    · next decoded => rw [taken] at decoded; cases decoded

theorem codes_of_decodeAfter {done all : Array Char} {bytes : List UInt8}
    (decoded : decodeAfter done bytes = (all, [])) :
    ∃ chars : List Char, all = done ++ chars.toArray ∧
      bytes = chars.flatMap String.utf8EncodeChar := by
  fun_induction decodeAfter done bytes with
  | case1 done bytes c rest taken ih =>
    obtain ⟨chars, rfl, rfl⟩ := ih decoded
    exact ⟨c :: chars, by simp, eq_append_of_decodeChar? taken⟩
  | case2 done bytes none =>
    obtain ⟨rfl, rfl⟩ := Prod.mk.inj decoded
    exact ⟨[], by simp, rfl⟩

/-- A sequence is taken as a whole exactly if it is the code of its characters. -/
theorem decode_eq_iff {bytes : List UInt8} {chars : List Char} :
    decode bytes = (chars, []) ↔ bytes = chars.flatMap String.utf8EncodeChar := by
  rw [decode]
  constructor
  · intro decoded
    cases outcome : decodeAfter #[] bytes with
    | mk all rest =>
      rw [outcome] at decoded
      obtain ⟨rfl, rfl⟩ := Prod.mk.inj decoded
      obtain ⟨others, rfl, codes⟩ := codes_of_decodeAfter outcome
      simp [codes]
  · rintro rfl
    rw [decodeAfter_codes]
    simp

/-! ## Texts -/

/-- The bytes of an array are gone through from its front. -/
theorem toList_loop_append (front behind taken : List UInt8) :
    ByteArray.toList.loop (front ++ behind).toByteArray front.length taken =
      taken.reverse ++ behind := by
  induction behind generalizing front taken with
  | nil =>
    rw [ByteArray.toList.loop, if_neg (by simp)]
    simp
  | cons b behind ih =>
    have inside : front.length < (front ++ b :: behind).toByteArray.size := by simp
    have here : (front ++ b :: behind).toByteArray.get! front.length = b := by
      simp [ByteArray.get!]
    have next := ih (front ++ [b]) (b :: taken)
    rw [List.length_append, List.append_assoc, List.singleton_append] at next
    rw [ByteArray.toList.loop, if_pos inside, here]
    exact next.trans (by simp)

theorem encode_ofList (chars : List Char) :
    encode (String.ofList chars) = chars.flatMap String.utf8EncodeChar := by
  have bytes : (String.ofList chars).toByteArray =
      (chars.flatMap String.utf8EncodeChar).toByteArray := String.toByteArray_ofList
  rw [encode, String.toUTF8, bytes]
  exact toList_loop_append [] _ []

/-- ASCII characters are one byte each. -/
theorem codes_ascii {chars : List Char} (small : ∀ c ∈ chars, c.toNat < 128) :
    chars.flatMap String.utf8EncodeChar = chars.map ascii := by
  rw [List.map_eq_flatMap, List.flatMap_def, List.flatMap_def,
    List.map_congr_left fun c mem => encodeChar_one (small c mem)]
  rfl

end TableSearch.Utf8
