import TableSearch.Rejection

/-!
# Sorted tables

A `Table` holds at least one value, few enough for a 32-bit index, in ascending order with
repetitions allowed. `Table.ofArray` is the only way in from unchecked values: it reports an
empty list first, then an excess of values, then the first value that is smaller than the one
before it. The lemmas about `firstDescent?` say that this position is the first of its kind and
that a list without one is sorted.
-/

namespace TableSearch

/-- The position of the first value that is smaller than the one before it, when `previous`
stands before the list and `index` is the position of its head. -/
def firstDescentAfter? (index : Nat) (previous : UInt64) : List UInt64 → Option Nat
  | [] => none
  | value :: rest =>
    if value < previous then some index else firstDescentAfter? (index + 1) value rest

/-- The position of the first value that is smaller than the one before it. -/
def firstDescent? : List UInt64 → Option Nat
  | [] => none
  | value :: rest => firstDescentAfter? 1 value rest

theorem firstDescentAfter?_eq_none_iff {index : Nat} {previous : UInt64} {values : List UInt64} :
    firstDescentAfter? index previous values = none ↔
      (previous :: values).Pairwise (· ≤ ·) := by
  induction values generalizing index previous with
  | nil => simp [firstDescentAfter?]
  | cons value rest ih =>
    rw [firstDescentAfter?]
    split
    · next descends =>
      refine ⟨fun found => absurd found (by simp), fun sorted => ?_⟩
      have step : previous ≤ value := List.rel_of_pairwise_cons sorted (List.mem_cons_self ..)
      exact absurd descends (UInt64.not_lt.mpr step)
    · next not_lt =>
      have step : previous ≤ value := UInt64.not_lt.mp not_lt
      rw [ih]
      refine ⟨fun tail => List.pairwise_cons.mpr ⟨fun later mem => ?_, tail⟩,
        fun sorted => (List.pairwise_cons.mp sorted).2⟩
      rcases List.mem_cons.mp mem with rfl | mem
      · exact step
      · exact UInt64.le_trans step (List.rel_of_pairwise_cons tail mem)

/-- No value is smaller than the one before it exactly when the list is ascending throughout. -/
theorem firstDescent?_eq_none_iff {values : List UInt64} :
    firstDescent? values = none ↔ values.Pairwise (· ≤ ·) := by
  cases values with
  | nil => simp [firstDescent?]
  | cons value rest => exact firstDescentAfter?_eq_none_iff

/-- Values in ascending order, at least one and few enough for a 32-bit index. -/
structure Table where
  values : Array UInt64
  size_pos : 0 < values.size
  size_lt : values.size < UInt32.size
  sorted : values.toList.Pairwise (· ≤ ·)
  deriving DecidableEq

namespace Table

/-- Checks values and holds them as a table. -/
def ofArray (values : Array UInt64) : Except Rejection Table :=
  if empty : values.size = 0 then .error .emptyTable
  else if large : UInt32.size ≤ values.size then .error (.tableTooLarge values.size)
  else match descent : firstDescent? values.toList with
    | some index => .error (.unsorted index)
    | none =>
      .ok ⟨values, Nat.pos_of_ne_zero empty, Nat.lt_of_not_le large,
        firstDescent?_eq_none_iff.mp descent⟩

/-- The table `0, 1, …, size - 1`. -/
def sequential (size : UInt32) : Except Rejection Table :=
  ofArray (Array.ofFn fun i : Fin size.toNat => UInt64.ofNat i)

/-- How many values the table holds. -/
def size (t : Table) : Nat := t.values.size

/-- The value at an index, and nothing past the end. -/
def get? (t : Table) (index : UInt32) : Option UInt64 := t.values[index.toNat]?

/-- The smallest value. -/
def first (t : Table) : UInt64 :=
  have := t.size_pos
  t.values[0]

/-- The largest value. -/
def last (t : Table) : UInt64 :=
  have := t.size_pos
  t.values[t.values.size - 1]

@[ext] theorem ext {s t : Table} (values_eq : s.values = t.values) : s = t := by
  cases s; cases t; cases values_eq; rfl

/-- Checking the values of a table gives the table back. -/
@[simp] theorem ofArray_values (t : Table) : ofArray t.values = .ok t := by
  have nonempty : ¬ t.values.size = 0 := Nat.ne_of_gt t.size_pos
  have small : ¬ UInt32.size ≤ t.values.size := Nat.not_le_of_lt t.size_lt
  have ascending : firstDescent? t.values.toList = none := firstDescent?_eq_none_iff.mpr t.sorted
  rw [ofArray, dif_neg nonempty, dif_neg small]
  split
  · next index descent => rw [ascending] at descent; cases descent
  · rfl

/-- What is checked is what went in. -/
theorem values_of_ofArray {values : Array UInt64} {t : Table}
    (accepted : ofArray values = .ok t) : t.values = values := by
  unfold ofArray at accepted
  split at accepted
  · cases accepted
  · split at accepted
    · cases accepted
    · split at accepted
      · cases accepted
      · cases accepted; rfl

end Table

end TableSearch
