import TableSearch.Proofs.Acceptance

/-!
# What the checks refuse

Values are refused for being none, for being too many, or for the first of them that is smaller than
the one before it; constants for their bound, whatever the answer for an absent target, and then for
that answer. `Table.ofArray_eq_error_iff` and `Image.build_eq_error_iff` say which rule is reported.
The position that is reported with unsorted values is characterised without the scan that finds it
(`firstDescent?_eq_some_iff`), and values without such a position ascend throughout. Bounds and
sizes are compared as natural numbers: one more than a 32-bit bound fits any 64-bit size.
-/

namespace TableSearch

/-- The value at `i` is smaller than the one before it. -/
def DescendsAt (values : List UInt64) (i : Nat) : Prop :=
  0 < i ∧ ∃ inside : i < values.length, values[i] < values[i - 1]

/-- The value at `index` is smaller than the one before it, and no earlier value is. -/
structure FirstDescentAt (values : List UInt64) (index : Nat) : Prop where
  descends : DescendsAt values index
  first (i : Nat) : i < index → ¬ DescendsAt values i

/-- No value is smaller than any before it. -/
def Ascending (values : List UInt64) : Prop :=
  ∀ (i j : Nat) (_ : i ≤ j) (_ : j < values.length), values[i] ≤ values[j]

variable {values : List UInt64} {index : Nat}

/-! ## The scan for a descent -/

/-- The scan goes through the pairs of neighbours, and `index` is the position of the second value
of the first pair. -/
theorem firstDescentAfter?_eq_findIdx? (index : Nat) (previous : UInt64) (values : List UInt64) :
    firstDescentAfter? index previous values =
      (((previous :: values).zip values).findIdx? fun pair => pair.2 < pair.1).map (· + index) := by
  induction values generalizing index previous with
  | nil => rfl
  | cons value rest ih =>
    rw [firstDescentAfter?, List.zip_cons_cons, List.findIdx?_cons]
    by_cases descends : value < previous
    · rw [if_pos descends, if_pos (decide_eq_true descends), Option.map_some, Nat.zero_add]
    · have stays : ¬ decide (value < previous) = true :=
        fun holds => descends (of_decide_eq_true holds)
      have shift : (fun i => i + index) ∘ (fun i => i + 1) = fun i => i + (index + 1) := by
        funext i
        exact Nat.add_right_comm i 1 index
      rw [if_neg descends, if_neg stays, Option.map_map, shift]
      exact ih (index + 1) value

theorem firstDescent?_eq_findIdx? (values : List UInt64) :
    firstDescent? values =
      ((values.zip values.tail).findIdx? fun pair => pair.2 < pair.1).map (· + 1) := by
  cases values with
  | nil => rfl
  | cons value rest => exact firstDescentAfter?_eq_findIdx? 1 value rest

/-- A pair of neighbours descends where its second value does. -/
theorem descendsAt_succ_iff {i : Nat} :
    DescendsAt values (i + 1) ↔ ∃ inside : i < (values.zip values.tail).length,
      decide ((values.zip values.tail)[i].2 < (values.zip values.tail)[i].1) = true := by
  simp only [DescendsAt, List.getElem_zip, List.getElem_tail, decide_eq_true_iff,
    List.length_zip, List.length_tail, Nat.add_sub_cancel]
  constructor
  · intro ⟨_, inside, descends⟩
    exact ⟨by omega, descends⟩
  · intro ⟨inside, descends⟩
    exact ⟨Nat.succ_pos i, by omega, descends⟩

/-- The scan finds the first value that is smaller than the one before it. -/
theorem firstDescent?_eq_some_iff :
    firstDescent? values = some index ↔ FirstDescentAt values index := by
  rw [firstDescent?_eq_findIdx?, Option.map_eq_some_iff]
  constructor
  · rintro ⟨i, found, rfl⟩
    obtain ⟨inside, descends, before⟩ := List.findIdx?_eq_some_iff_getElem.mp found
    refine ⟨descendsAt_succ_iff.mpr ⟨inside, descends⟩, fun j earlier => ?_⟩
    cases j with
    | zero => exact fun descent => Nat.lt_irrefl 0 descent.1
    | succ j =>
      intro descent
      obtain ⟨_, smaller⟩ := descendsAt_succ_iff.mp descent
      exact before j (Nat.lt_of_succ_lt_succ earlier) smaller
  · intro firstDescent
    obtain ⟨i, rfl⟩ := Nat.exists_eq_succ_of_ne_zero (Nat.ne_of_gt firstDescent.descends.1)
    obtain ⟨inside, descends⟩ := descendsAt_succ_iff.mp firstDescent.descends
    refine ⟨i, List.findIdx?_eq_some_iff_getElem.mpr ⟨inside, descends, fun j earlier => ?_⟩, rfl⟩
    intro smaller
    exact firstDescent.first (j + 1) (Nat.succ_lt_succ earlier)
      (descendsAt_succ_iff.mpr ⟨Nat.lt_trans earlier inside, smaller⟩)

theorem ascending_iff_pairwise : Ascending values ↔ values.Pairwise (· ≤ ·) := by
  rw [List.pairwise_iff_getElem]
  constructor
  · intro ascending i j _ inside earlier
    exact ascending i j (Nat.le_of_lt earlier) inside
  · intro pairs i j ordered inside
    rcases Nat.lt_or_eq_of_le ordered with earlier | rfl
    · exact pairs i j (Nat.lt_trans earlier inside) inside earlier
    · exact UInt64.le_refl _

theorem firstDescent?_eq_none_iff_ascending : firstDescent? values = none ↔ Ascending values := by
  rw [firstDescent?_eq_none_iff, ascending_iff_pairwise]

/-- Values that do not ascend have a first one that is smaller than the one before it. -/
theorem exists_firstDescentAt_iff :
    (∃ index, FirstDescentAt values index) ↔ ¬ Ascending values := by
  rw [← firstDescent?_eq_none_iff_ascending, ← ne_eq, Option.ne_none_iff_exists']
  exact exists_congr fun index => firstDescent?_eq_some_iff.symm

/-- The values before the first descent ascend. -/
theorem FirstDescentAt.ascending_take (descent : FirstDescentAt values index) :
    Ascending (values.take index) := by
  apply Classical.byContradiction
  intro falls
  obtain ⟨i, ⟨positive, inside, descends⟩, -⟩ := exists_firstDescentAt_iff.mpr falls
  rw [List.length_take] at inside
  rw [List.getElem_take, List.getElem_take] at descends
  have earlier : i < index := (Nat.lt_min.mp inside).1
  exact descent.first i earlier ⟨positive, (Nat.lt_min.mp inside).2, descends⟩

/-! ## Refused values -/

namespace Table

theorem ofArray_eq_error_iff {values : Array UInt64} {rejection : Rejection} :
    ofArray values = .error rejection ↔
      (values.size = 0 ∧ rejection = .emptyTable) ∨
      (UInt32.size ≤ values.size ∧ rejection = .tableTooLarge values.size) ∨
      ∃ index, 0 < values.size ∧ values.size < UInt32.size ∧
        FirstDescentAt values.toList index ∧ rejection = .unsorted index := by
  constructor
  · intro refused
    unfold ofArray at refused
    split at refused
    · next empty => exact .inl ⟨empty, (Except.error.inj refused).symm⟩
    · next nonempty =>
      split at refused
      · next large => exact .inr (.inl ⟨large, (Except.error.inj refused).symm⟩)
      · next small =>
        split at refused
        · next index descent =>
          exact .inr (.inr ⟨index, Nat.pos_of_ne_zero nonempty, Nat.lt_of_not_le small,
            firstDescent?_eq_some_iff.mp descent, (Except.error.inj refused).symm⟩)
        · cases refused
  · rintro (⟨empty, rfl⟩ | ⟨large, rfl⟩ | ⟨index, nonempty, small, descent, rfl⟩)
    · rw [ofArray, dif_pos empty]
    · have nonempty : ¬ values.size = 0 := Nat.ne_of_gt (Nat.lt_of_lt_of_le (by decide) large)
      rw [ofArray, dif_neg nonempty, dif_pos large]
    · rw [ofArray, dif_neg (Nat.ne_of_gt nonempty), dif_neg (Nat.not_le_of_lt small)]
      have found := firstDescent?_eq_some_iff.mpr descent
      split
      · next other foundOther =>
        rw [found] at foundOther
        cases foundOther
        rfl
      · next none =>
        rw [found] at none
        cases none

/-- Values are accepted if there are some, not too many, and they ascend. -/
theorem exists_ofArray_eq_ok_iff {values : Array UInt64} :
    (∃ t, ofArray values = .ok t) ↔
      0 < values.size ∧ values.size < UInt32.size ∧ Ascending values.toList := by
  rw [← firstDescent?_eq_none_iff_ascending]
  constructor
  · intro ⟨t, accepted⟩
    obtain ⟨nonempty, small, ascending, -⟩ := ofArray_eq_ok_iff.mp accepted
    exact ⟨nonempty, small, ascending⟩
  · intro ⟨nonempty, small, ascending⟩
    exact ⟨⟨values, nonempty, small, firstDescent?_eq_none_iff.mp ascending⟩,
      ofArray_eq_ok_iff.mpr ⟨nonempty, small, ascending, rfl⟩⟩

/-- What stands before the first descent is accepted. -/
theorem exists_ofArray_take (few : values.length < UInt32.size)
    (descent : FirstDescentAt values index) : ∃ t, ofArray (values.take index).toArray = .ok t := by
  obtain ⟨positive, inside, -⟩ := descent.descends
  have length : (values.take index).length = index :=
    List.length_take_of_le (Nat.le_of_lt inside)
  apply exists_ofArray_eq_ok_iff.mpr
  rw [List.size_toArray, length]
  exact ⟨positive, Nat.lt_trans inside few, descent.ascending_take⟩

variable (t : Table)

theorem ascending : Ascending t.values.toList := ascending_iff_pairwise.mpr t.sorted

theorem first_mem : t.first ∈ t.values.toList :=
  Array.mem_toList_iff.mpr (Array.getElem_mem _)

theorem last_mem : t.last ∈ t.values.toList :=
  Array.mem_toList_iff.mpr (Array.getElem_mem _)

theorem first_le {value : UInt64} (mem : value ∈ t.values.toList) : t.first ≤ value := by
  obtain ⟨i, inside, rfl⟩ := List.mem_iff_getElem.mp mem
  exact t.ascending 0 i (Nat.zero_le i) inside

theorem le_last {value : UInt64} (mem : value ∈ t.values.toList) : value ≤ t.last := by
  obtain ⟨i, inside, rfl⟩ := List.mem_iff_getElem.mp mem
  have final : t.values.size - 1 < t.values.toList.length := Nat.sub_one_lt_of_lt t.size_pos
  exact t.ascending i (t.values.size - 1) (Nat.le_sub_one_of_lt inside) final

end Table

/-! ## Refused constants -/

namespace Image

theorem build_eq_error_iff {config : Config} {t : Table} {rejection : Rejection} :
    build config t = .error rejection ↔
      (¬ (config.right.toNat = t.size ∨ config.right.toNat + 1 = t.size) ∧
        rejection = .rightOutOfRange config.right t.size) ∨
      ((config.right.toNat = t.size ∨ config.right.toNat + 1 = t.size) ∧
        config.failed.toNat < t.size ∧ rejection = .sentinelCollision config.failed t.size) := by
  unfold build
  by_cases fits : config.right.toNat = t.size ∨ config.right.toNat + 1 = t.size
  · by_cases outside : t.size ≤ config.failed.toNat
    · have not_index : ¬ config.failed.toNat < t.size := Nat.not_lt_of_le outside
      simp [fits, outside, not_index]
    · have is_index : config.failed.toNat < t.size := Nat.lt_of_not_le outside
      simp [fits, outside, is_index, eq_comm]
  · simp [fits, eq_comm]

theorem exists_build_eq_ok_iff {config : Config} {t : Table} :
    (∃ m, build config t = .ok m ∧ m.config = config ∧ m.table = t) ↔
      (config.right.toNat = t.size ∨ config.right.toNat + 1 = t.size) ∧
        t.size ≤ config.failed.toNat := by
  constructor
  · intro ⟨m, built, _⟩
    obtain ⟨fits, outside, -⟩ := build_eq_ok_iff.mp built
    exact ⟨fits, outside⟩
  · intro ⟨fits, outside⟩
    exact ⟨⟨config, t, fits, outside⟩, build_eq_ok_iff.mpr ⟨fits, outside, rfl, rfl⟩, rfl, rfl⟩

/-- The size of a table is a 32-bit word. -/
theorem toNat_ofNat_size (t : Table) : (UInt32.ofNat t.size).toNat = t.size :=
  UInt32.toNat_ofNat_of_lt' t.size_lt

theorem withExclusiveBound_eq_error_iff {t : Table} {failed : UInt32} {rejection : Rejection} :
    withExclusiveBound t failed = .error rejection ↔
      failed.toNat < t.size ∧ rejection = .sentinelCollision failed t.size := by
  have fits := toNat_ofNat_size t
  rw [withExclusiveBound, build_eq_error_iff]
  simp [fits]

/-- The greatest word is the index of no value, so it answers an absent target of any table. -/
theorem exists_withExclusiveBound_max (t : Table) :
    ∃ m, withExclusiveBound t 4294967295 = .ok m ∧ m.right.toNat = t.size ∧ m.table = t := by
  have fits := toNat_ofNat_size t
  let constants : Config := ⟨UInt32.ofNat t.size, 4294967295⟩
  have suit : (constants.right.toNat = t.size ∨ constants.right.toNat + 1 = t.size) ∧
      t.size ≤ constants.failed.toNat := ⟨.inl fits, Nat.le_of_lt_succ t.size_lt⟩
  obtain ⟨m, built, same_config, same_table⟩ := exists_build_eq_ok_iff.mpr suit
  refine ⟨m, built, ?_, same_table⟩
  rw [right, same_config, fits]

/-- Each rule is reported exactly if it is broken and the rules before it are kept. No values are
refused, and more than a 32-bit index can address; otherwise the first value that is smaller than
the one before it. There is such a value exactly if the values do not ascend, and those before it
are accepted. All other values are accepted as they are, and then the first is the least of them and
the last the greatest. For an accepted table a bound is refused that is neither the size nor one
less, whatever the answer for an absent target; otherwise an answer that is an index; all other
constants are accepted as they are. With the size as bound, which fits a word, only the answer can
be refused, and the greatest word never is. -/
theorem checks_decide (values : List UInt64) :
    (Table.ofArray values.toArray = .error .emptyTable ↔ values = []) ∧
      (∀ size, Table.ofArray values.toArray = .error (.tableTooLarge size) ↔
        4294967295 < values.length ∧ size = values.length) ∧
      (∀ index, Table.ofArray values.toArray = .error (.unsorted index) ↔
        values ≠ [] ∧ values.length ≤ 4294967295 ∧ FirstDescentAt values index) ∧
      ((∃ index, FirstDescentAt values index) ↔ ¬ Ascending values) ∧
      (∀ index, Table.ofArray values.toArray = .error (.unsorted index) →
        ∃ t, Table.ofArray (values.take index).toArray = .ok t) ∧
      ((∃ t, Table.ofArray values.toArray = .ok t) ↔
        values ≠ [] ∧ values.length ≤ 4294967295 ∧ Ascending values) ∧
      ∀ t, Table.ofArray values.toArray = .ok t →
        t.values.toList = values ∧ Ascending values ∧
        (t.first ∈ values ∧ ∀ value ∈ values, t.first ≤ value) ∧
        (t.last ∈ values ∧ ∀ value ∈ values, value ≤ t.last) ∧
        (∀ (config : Config) (right : UInt32) (size : Nat),
          build config t = .error (.rightOutOfRange right size) ↔
            (config.right.toNat ≠ values.length ∧ config.right.toNat + 1 ≠ values.length) ∧
              right = config.right ∧ size = values.length) ∧
        (∀ (config : Config) (failed : UInt32) (size : Nat),
          build config t = .error (.sentinelCollision failed size) ↔
            (config.right.toNat = values.length ∨ config.right.toNat + 1 = values.length) ∧
              config.failed.toNat < values.length ∧ failed = config.failed ∧
              size = values.length) ∧
        (∀ config : Config, (∃ m, build config t = .ok m ∧ m.config = config ∧ m.table = t) ↔
          (config.right.toNat = values.length ∨ config.right.toNat + 1 = values.length) ∧
            values.length ≤ config.failed.toNat) ∧
        (UInt32.ofNat t.size).toNat = values.length ∧
        (∀ (failed : UInt32) (rejection : Rejection),
          withExclusiveBound t failed = .error rejection ↔
            failed.toNat < values.length ∧ rejection = .sentinelCollision failed values.length) ∧
        ∃ m, withExclusiveBound t 4294967295 = .ok m ∧ m.right.toNat = values.length ∧
          m.table = t := by
  have positive_iff : 0 < values.length ↔ values ≠ [] := List.length_pos_iff
  have few_iff : values.length < UInt32.size ↔ values.length ≤ 4294967295 := Nat.lt_succ_iff
  have unsorted_iff (index : Nat) : Table.ofArray values.toArray = .error (.unsorted index) ↔
      values ≠ [] ∧ values.length ≤ 4294967295 ∧ FirstDescentAt values index := by
    rw [Table.ofArray_eq_error_iff, ← positive_iff, ← few_iff]
    simp
  refine ⟨?_, fun size => ?_, unsorted_iff, exists_firstDescentAt_iff, ?_, ?_, ?_⟩
  · rw [Table.ofArray_eq_error_iff]
    simp
  · rw [Table.ofArray_eq_error_iff]
    simp [Nat.succ_le_iff, UInt32.size]
  · intro index refused
    obtain ⟨-, few, descent⟩ := (unsorted_iff index).mp refused
    exact Table.exists_ofArray_take (few_iff.mpr few) descent
  · rw [Table.exists_ofArray_eq_ok_iff, List.size_toArray, positive_iff, few_iff]
  · intro t accepted
    have same : t.values.toList = values := by rw [Table.values_of_ofArray accepted]
    have size_eq : t.size = values.length := by rw [← same]; rfl
    subst same
    rw [← size_eq]
    exact ⟨rfl, t.ascending, ⟨t.first_mem, fun _ => t.first_le⟩, ⟨t.last_mem, fun _ => t.le_last⟩,
      fun config right size => by rw [build_eq_error_iff]; simp,
      fun config failed size => by rw [build_eq_error_iff]; simp,
      fun config => exists_build_eq_ok_iff, toNat_ofNat_size t,
      fun failed rejection => withExclusiveBound_eq_error_iff, exists_withExclusiveBound_max t⟩

/-- The third of four values is the first descent, and the two before it are accepted. An image of
three ascending values takes 3 for an absent target, but not 2. -/
theorem checks_decide_descent :
    Table.ofArray #[1, 3, 2, 1] = .error (.unsorted 2) ∧
      (∃ t, Table.ofArray #[1, 3] = .ok t) ∧
      ∃ t, Table.ofArray #[1, 3, 3] = .ok t ∧ t.first = 1 ∧ (∀ value ∈ [1, 3, 3], value ≤ t.last) ∧
        (∃ m, build ⟨2, 3⟩ t = .ok m ∧ m.config = ⟨2, 3⟩ ∧ m.table = t) ∧
        withExclusiveBound t 2 = .error (.sentinelCollision 2 3) := by
  have refused : Table.ofArray [1, 3, 2, 1].toArray = .error (.unsorted 2) := rfl
  obtain ⟨-, -, -, -, cut, -⟩ := checks_decide [1, 3, 2, 1]
  let t : Table := ⟨#[1, 3, 3], by decide, by decide, by decide⟩
  have accepted : Table.ofArray [1, 3, 3].toArray = .ok t := t.ofArray_values
  obtain ⟨-, -, -, -, -, -, decided⟩ := checks_decide [1, 3, 3]
  obtain ⟨-, -, -, ⟨-, greatest⟩, -, -, built_iff, -, exclusive_iff, -⟩ := decided t accepted
  exact ⟨refused, cut 2 refused, t, accepted, rfl, greatest,
    (built_iff ⟨2, 3⟩).mpr ⟨.inr rfl, by decide⟩,
    (exclusive_iff 2 _).mpr ⟨by decide, rfl⟩⟩

end Image

end TableSearch
