import TableSearch.Binary.Reader
import TableSearch.Proofs.Acceptance

/-!
# Reading back the binary form

Each reader is described by what it makes of its own form before any further bytes, and of input
that is too short. Any sixteen bytes are a config and a length, and any bytes that are long enough
are that many values, so that these cases are all there are: `decode_ofParts`, `decode_of_short`
and `decode_of_short_values` say what every input is read as, and `exists_eq_ofParts` that the
first of them is the only way to an image.
-/

namespace TableSearch.Binary

theorem run_bind {α β : Type} (reader : Reader α) (next : α → Reader β) (input : List UInt8) :
    (reader >>= next).run input =
      (reader.run input).bind fun outcome => (next outcome.1).run outcome.2 := rfl

/-! ## Numbers -/

theorem number_of_bytes (bytes rest : List UInt8) :
    (number bytes.length).run (bytes ++ rest) = .ok (ofLittleEndian bytes, rest) := by
  induction bytes with
  | nil => rfl
  | cons b bytes ih =>
    have first : byte.run (b :: bytes ++ rest) = .ok (b, bytes ++ rest) := rfl
    rw [List.length_cons, number, run_bind, first]
    simp only [Except.bind, run_bind, ih]
    rfl

theorem number_of_short {width : Nat} {input : List UInt8} (short : input.length < width) :
    (number width).run input = .error .endOfInput := by
  induction width generalizing input with
  | zero => exact absurd short (Nat.not_lt_zero _)
  | succ width ih =>
    cases input with
    | nil => rfl
    | cons b input =>
      have first : byte.run (b :: input) = .ok (b, input) := rfl
      rw [number, run_bind, first]
      simp only [Except.bind, run_bind, ih (Nat.lt_of_succ_lt_succ short)]

theorem number_littleEndian {width n : Nat} (fits : n < Nat.pow 256 width) (rest : List UInt8) :
    (number width).run (littleEndian width n ++ rest) = .ok (n, rest) := by
  have read := number_of_bytes (littleEndian width n) rest
  rw [length_littleEndian, ofLittleEndian_littleEndian, Nat.mod_eq_of_lt fits] at read
  exact read

/-! ## Values -/

theorem valuesAfter_flatMap (taken : Array UInt64) (values : List UInt64) (rest : List UInt8) :
    (valuesAfter taken values.length).run (values.flatMap ofValue ++ rest) =
      .ok (taken ++ values.toArray, rest) := by
  induction values generalizing taken with
  | nil => simp [valuesAfter]; rfl
  | cons value values ih =>
    have fits : value.toNat < Nat.pow 256 8 := value.toNat_lt_size
    rw [List.flatMap_cons, List.append_assoc, ofValue, List.length_cons, valuesAfter, run_bind,
      number_littleEndian fits]
    simp only [Except.bind, UInt64.ofNat_toNat, ih]
    simp

theorem valuesAfter_of_short {count : Nat} {input : List UInt8} (taken : Array UInt64)
    (short : input.length < 8 * count) :
    (valuesAfter taken count).run input = .error .endOfInput := by
  induction count generalizing input taken with
  | zero => exact absurd short (Nat.not_lt_zero _)
  | succ count ih =>
    rw [valuesAfter, run_bind]
    by_cases one : input.length < 8
    · rw [number_of_short one]
      rfl
    · have taken8 : (input.take 8).length = 8 := by
        rw [List.length_take]
        omega
      have read := number_of_bytes (input.take 8) (input.drop 8)
      rw [taken8, List.take_append_drop] at read
      have further : (input.drop 8).length < 8 * count := by
        rw [List.length_drop]
        omega
      rw [read]
      exact ih _ further

theorem values_ofValues {values : List UInt64} (fits : values.length < UInt64.size)
    (rest : List UInt8) :
    Binary.values.run (ofValues values ++ rest) = .ok (values.toArray, rest) := by
  rw [ofValues, List.append_assoc, Binary.values, run_bind, number_littleEndian fits]
  simp only [Except.bind, valuesAfter_flatMap, Array.empty_append]

theorem values_of_short {count : Nat} {tail : List UInt8} (fits : count < UInt64.size)
    (short : tail.length < 8 * count) :
    Binary.values.run (littleEndian 8 count ++ tail) = .error .endOfInput := by
  rw [Binary.values, run_bind, number_littleEndian fits]
  exact valuesAfter_of_short _ short

/-! ## Images -/

theorem config_ofConfig (c : Config) (rest : List UInt8) :
    config.run (ofConfig c ++ rest) = .ok (c, rest) := by
  have rightFits : c.right.toNat < Nat.pow 256 4 := c.right.toNat_lt_size
  have failedFits : c.failed.toNat < Nat.pow 256 4 := c.failed.toNat_lt_size
  rw [ofConfig, List.append_assoc, config, run_bind, number_littleEndian rightFits]
  simp only [Except.bind, run_bind, number_littleEndian failedFits, UInt32.ofNat_toNat]
  rfl

theorem check_run {α : Type} (outcome : Except Rejection α) (rest : List UInt8) :
    (check outcome).run rest = (outcome.mapError .rejected).map fun a => (a, rest) := by
  cases outcome <;> rfl

/-- The parts of an image are checked in the order in which `Image.assemble` checks them, and
bytes behind them are ignored. -/
theorem decode_ofParts (c : Config) {values : List UInt64} (fits : values.length < UInt64.size)
    (rest : List UInt8) :
    decode image (ofParts c values ++ rest) =
      (Image.assemble c values).mapError .rejected := by
  rw [decode, ofParts, List.append_assoc, image, run_bind, config_ofConfig]
  simp only [Except.bind, run_bind, table, values_ofValues fits, check_run, Image.assemble]
  cases Table.ofArray values.toArray with
  | error rejection => rfl
  | ok t =>
    change (fun read => read.1) <$> ((Image.build c t).mapError Failure.rejected).map
      (fun m => (m, rest)) = (Image.build c t).mapError Failure.rejected
    cases Image.build c t with
    | error rejection => rfl
    | ok m => rfl

/-! ## What every input is -/

theorem exists_eq_littleEndian {width : Nat} {input : List UInt8} (long : width ≤ input.length) :
    ∃ n rest, n < Nat.pow 256 width ∧ input = littleEndian width n ++ rest := by
  have length : (input.take width).length = width := List.length_take_of_le long
  have bytes := littleEndian_ofLittleEndian (input.take width)
  have number := ofLittleEndian_littleEndian width (ofLittleEndian (input.take width))
  rw [length] at bytes
  refine ⟨ofLittleEndian (input.take width), input.drop width, ?_, ?_⟩
  · rw [bytes] at number
    rw [number]
    exact Nat.mod_lt _ (Nat.pow_pos (by omega))
  · rw [bytes, List.take_append_drop]

theorem exists_eq_ofConfig {input : List UInt8} (long : 8 ≤ input.length) :
    ∃ (c : Config) (rest : List UInt8), input = ofConfig c ++ rest := by
  have four : 4 ≤ 8 := by decide
  obtain ⟨right, behind, rightFits, rfl⟩ := exists_eq_littleEndian (Nat.le_trans four long)
  rw [List.length_append, length_littleEndian] at long
  have more : 4 ≤ behind.length := by omega
  obtain ⟨failed, rest, failedFits, rfl⟩ := exists_eq_littleEndian more
  refine ⟨⟨UInt32.ofNat right, UInt32.ofNat failed⟩, rest, ?_⟩
  rw [ofConfig, UInt32.toNat_ofNat_of_lt' rightFits, UInt32.toNat_ofNat_of_lt' failedFits,
    List.append_assoc]

theorem exists_eq_flatMap_ofValue {count : Nat} {input : List UInt8}
    (long : 8 * count ≤ input.length) :
    ∃ (values : List UInt64) (rest : List UInt8), values.length = count ∧
      input = values.flatMap ofValue ++ rest := by
  induction count generalizing input with
  | zero => exact ⟨[], input, rfl, rfl⟩
  | succ count ih =>
    have eight : 8 ≤ input.length := by omega
    obtain ⟨n, behind, fits, rfl⟩ := exists_eq_littleEndian eight
    rw [List.length_append, length_littleEndian] at long
    have enough : 8 * count ≤ behind.length := by omega
    obtain ⟨values, rest, rfl, rfl⟩ := ih enough
    refine ⟨UInt64.ofNat n :: values, rest, rfl, ?_⟩
    rw [List.flatMap_cons, ofValue, UInt64.toNat_ofNat_of_lt' fits, List.append_assoc]

/-! ## Input that is too short -/

theorem length_ofConfig (c : Config) : (ofConfig c).length = 8 := by
  rw [ofConfig, List.length_append, length_littleEndian, length_littleEndian]

theorem config_of_short {input : List UInt8} (short : input.length < 8) :
    config.run input = .error .endOfInput := by
  rw [config, run_bind]
  by_cases one : input.length < 4
  · rw [number_of_short one]
    rfl
  · obtain ⟨n, behind, fits, rfl⟩ := exists_eq_littleEndian (Nat.le_of_not_lt one)
    rw [List.length_append, length_littleEndian] at short
    have rest : behind.length < 4 := by omega
    rw [number_littleEndian fits]
    simp only [Except.bind, run_bind, number_of_short rest]

/-- Input that ends within the constants or the length announces nothing. -/
theorem decode_of_short {input : List UInt8} (short : input.length < 16) :
    decode image input = .error .endOfInput := by
  rw [decode, image, run_bind]
  by_cases one : input.length < 8
  · rw [config_of_short one]
    rfl
  · obtain ⟨c, behind, rfl⟩ := exists_eq_ofConfig (Nat.le_of_not_lt one)
    rw [List.length_append, length_ofConfig] at short
    have rest : behind.length < 8 := by omega
    rw [config_ofConfig]
    simp only [Except.bind, run_bind, table, Binary.values, number_of_short rest]
    rfl

/-- Input that ends within the values is too short whatever length it announces. -/
theorem decode_of_short_values (c : Config) {count : Nat} {tail : List UInt8}
    (fits : count < UInt64.size) (short : tail.length < 8 * count) :
    decode image (ofConfig c ++ (littleEndian 8 count ++ tail)) = .error .endOfInput := by
  rw [decode, image, run_bind, config_ofConfig]
  simp only [Except.bind, run_bind, table, values_of_short fits short]
  rfl

/-- Input that does not end too early is the form of some constants and values, and more bytes. -/
theorem exists_eq_ofParts_of_ne {input : List UInt8}
    (long : decode image input ≠ .error .endOfInput) :
    ∃ (c : Config) (values : List UInt64) (rest : List UInt8), values.length < UInt64.size ∧
      input = ofParts c values ++ rest := by
  have sixteen : 16 ≤ input.length := Nat.le_of_not_lt fun short => long (decode_of_short short)
  have eight : 8 ≤ input.length := by omega
  obtain ⟨c, behind, rfl⟩ := exists_eq_ofConfig eight
  rw [List.length_append, length_ofConfig] at sixteen
  have more : 8 ≤ behind.length := by omega
  obtain ⟨count, tail, fits, rfl⟩ := exists_eq_littleEndian more
  -- with fewer bytes than announced nothing would have been read
  have enough : 8 * count ≤ tail.length :=
    Nat.le_of_not_lt fun short => long (decode_of_short_values c fits short)
  obtain ⟨values, rest, rfl, rfl⟩ := exists_eq_flatMap_ofValue enough
  refine ⟨c, values, rest, fits, ?_⟩
  simp only [ofParts, ofValues, List.append_assoc]

/-- Input from which an image is read is the form of some constants and values. -/
theorem exists_eq_ofParts {input : List UInt8} {m : Image} (read : decode image input = .ok m) :
    ∃ (c : Config) (values : List UInt64) (rest : List UInt8),
      input = ofParts c values ++ rest ∧ Image.assemble c values = .ok m := by
  have long : decode image input ≠ .error .endOfInput := by
    rw [read]
    exact nofun
  obtain ⟨c, values, rest, fits, rfl⟩ := exists_eq_ofParts_of_ne long
  rw [decode_ofParts c fits] at read
  refine ⟨c, values, rest, rfl, ?_⟩
  cases assembled : Image.assemble c values with
  | error rejection => rw [assembled] at read; cases read
  | ok n => rw [assembled] at read; exact congrArg Except.ok (Except.ok.inj read)

theorem decode_ofImage (m : Image) (rest : List UInt8) :
    decode image (ofImage m ++ rest) = .ok m := by
  have small : m.table.values.toList.length < UInt64.size :=
    Nat.lt_trans m.table.size_lt (by decide)
  rw [ofImage, decode_ofParts m.config small, Image.assemble_parts]
  rfl

theorem decode_eq_ok_iff {input : List UInt8} {m : Image} :
    decode image input = .ok m ↔ ofImage m <+: input := by
  constructor
  · intro read
    obtain ⟨c, values, rest, rfl, assembled⟩ := exists_eq_ofParts read
    obtain ⟨rfl, rfl⟩ := Image.parts_of_assemble assembled
    exact List.prefix_append _ _
  · rintro ⟨rest, rfl⟩
    exact decode_ofImage m rest

/-- The binary form is exact: an image is read from the inputs that start with its form and from no
others, what is read has passed the checks, no form starts another, and input that ends before its
announced length does is reported as such. -/
theorem decode_image_exact :
    (∀ (input : List UInt8) (m : Image), decode image input = .ok m ↔ ofImage m <+: input) ∧
      (∀ (input : List UInt8) (m : Image), decode image input = .ok m →
        ∃ (c : Config) (values : List UInt64) (t : Table), ofParts c values <+: input ∧
          Table.ofArray values.toArray = .ok t ∧ Image.build c t = .ok m) ∧
      (∀ m n : Image, ofImage m <+: ofImage n → m = n) ∧
      (∀ input : List UInt8, input.length < 16 → decode image input = .error .endOfInput) ∧
      (∀ (c : Config) (length : UInt64) (tail : List UInt8), tail.length < 8 * length.toNat →
        decode image (ofConfig c ++ (littleEndian 8 length.toNat ++ tail)) = .error .endOfInput) ∧
      Failure.endOfInput.message = "io error: unexpected end of file" := by
  refine ⟨fun _ _ => decode_eq_ok_iff, ?_, ?_, ?_, ?_, rfl⟩
  · intro input m read
    obtain ⟨c, values, rest, rfl, assembled⟩ := exists_eq_ofParts read
    obtain ⟨t, checked, built⟩ := Image.assemble_eq_ok_iff.mp assembled
    exact ⟨c, values, t, List.prefix_append _ _, checked, built⟩
  · intro m n starts
    have first := decode_eq_ok_iff.mpr starts
    have second := decode_eq_ok_iff.mpr (List.prefix_refl (ofImage n))
    exact Except.ok.inj (first.symm.trans second)
  · exact fun _ short => decode_of_short short
  · exact fun c length _ short => decode_of_short_values c length.toNat_lt_size short

/-- The announced values would take eight bytes more than a word can count. -/
theorem decode_image_exact_of_overflow :
    UInt64.size < 8 * (2305843009213693953 : UInt64).toNat ∧
      decode image (ofConfig ⟨1, 1⟩ ++ (littleEndian 8 (2305843009213693953 : UInt64).toNat ++
        ofValue 7)) = .error .endOfInput ∧
      ∃ m : Image, m.table.values = #[7] ∧ decode image (ofImage m ++ [0]) = .ok m := by
  let t : Table := ⟨#[7], by decide, by decide, by decide⟩
  let m : Image := ⟨⟨1, 1⟩, t, by decide, by decide⟩
  obtain ⟨accepts, -, -, -, short, -⟩ := decode_image_exact
  have trailing : decode image (ofImage m ++ [0]) = .ok m :=
    (accepts _ m).mpr (List.prefix_append _ _)
  exact ⟨by decide, short ⟨1, 1⟩ 2305843009213693953 (ofValue 7) (by decide), m, rfl, trailing⟩

end TableSearch.Binary
