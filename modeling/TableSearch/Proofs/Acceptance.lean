import TableSearch.Image

/-!
# What the checks accept

`Table.ofArray` and `Image.build` read as conditions on what went in. `Image.assemble` is the two
checks one after the other; every way of making an image amounts to it.
-/

namespace TableSearch

/-- Accepted values are not empty, few enough for a 32-bit index, and nowhere descend. -/
theorem Table.ofArray_eq_ok_iff {values : Array UInt64} {t : Table} :
    Table.ofArray values = .ok t ↔
      0 < values.size ∧ values.size < UInt32.size ∧ firstDescent? values.toList = none ∧
        t.values = values := by
  constructor
  · intro accepted
    have same := Table.values_of_ofArray accepted
    unfold Table.ofArray at accepted
    split at accepted
    · cases accepted
    · next nonempty =>
      split at accepted
      · cases accepted
      · next small =>
        split at accepted
        · cases accepted
        · next ascending =>
          exact ⟨Nat.pos_of_ne_zero nonempty, Nat.lt_of_not_le small, ascending, same⟩
  · rintro ⟨-, -, -, rfl⟩
    exact Table.ofArray_values t

/-- Accepted constants bound the window by the size of the table or one less, and answer an absent
target with no index of the table. -/
theorem Image.build_eq_ok_iff {config : Config} {t : Table} {m : Image} :
    Image.build config t = .ok m ↔
      (config.right.toNat = t.size ∨ config.right.toNat + 1 = t.size) ∧
        t.size ≤ config.failed.toNat ∧ m.config = config ∧ m.table = t := by
  constructor
  · intro built
    have same := Image.parts_of_build built
    unfold Image.build at built
    split at built
    · next fits =>
      split at built
      · next outside => exact ⟨fits, outside, same⟩
      · cases built
    · cases built
  · rintro ⟨-, -, rfl, rfl⟩
    exact Image.build_parts m

/-- Checks values and then constants, and joins them to an image. -/
def Image.assemble (config : Config) (values : List UInt64) : Except Rejection Image :=
  (Table.ofArray values.toArray).bind (Image.build config)

theorem Image.assemble_eq_ok_iff {config : Config} {values : List UInt64} {m : Image} :
    Image.assemble config values = .ok m ↔
      ∃ t, Table.ofArray values.toArray = .ok t ∧ Image.build config t = .ok m := by
  unfold Image.assemble
  cases checked : Table.ofArray values.toArray with
  | error rejection => simp [Except.bind]
  | ok t => simp [Except.bind]

/-- What is assembled is what went in. -/
theorem Image.parts_of_assemble {config : Config} {values : List UInt64} {m : Image}
    (assembled : Image.assemble config values = .ok m) :
    m.config = config ∧ m.table.values.toList = values := by
  obtain ⟨t, checked, built⟩ := Image.assemble_eq_ok_iff.mp assembled
  obtain ⟨sameConfig, rfl⟩ := Image.parts_of_build built
  exact ⟨sameConfig, by rw [Table.values_of_ofArray checked]⟩

/-- Assembling the parts of an image gives the image back. -/
@[simp] theorem Image.assemble_parts (m : Image) :
    Image.assemble m.config m.table.values.toList = .ok m :=
  Image.assemble_eq_ok_iff.mpr ⟨m.table, by simp, Image.build_parts m⟩

end TableSearch
