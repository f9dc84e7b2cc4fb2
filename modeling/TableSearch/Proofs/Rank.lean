import Mathlib.Data.Nat.Basic
import Mathlib.Order.Basic
import TableSearch.Proofs.Partition

/-!
# The rank of a target

The rank of a target is the number of values below it. Those are the first values of a table, so
only one position splits the values before a bound into those below the target and those that are
not: the rank, or the bound if that is smaller. This is where a search closes
(`Table.lowerBound_eq_min`). Ranks grow with the target, and only past the last value does it matter
which of its two bounds an image has.
-/

namespace TableSearch

/-- The values of an ascending list that are below a target are its first ones. -/
theorem lt_countP_iff {values : List UInt64} (ascending : values.Pairwise (· ≤ ·))
    (target : UInt64) {i : Nat} (inside : i < values.length) :
    i < values.countP (· < target) ↔ values[i] < target := by
  induction values generalizing i with
  | nil => exact absurd inside (Nat.not_lt_zero i)
  | cons value rest ih =>
    obtain ⟨least, restAscending⟩ := List.pairwise_cons.mp ascending
    by_cases below : value < target
    · have counted : (value :: rest).countP (· < target) = rest.countP (· < target) + 1 :=
        List.countP_cons_of_pos (decide_eq_true below)
      rw [counted]
      cases i with
      | zero => exact ⟨fun _ => below, fun _ => Nat.succ_pos _⟩
      | succ i =>
        have behind := ih restAscending (Nat.lt_of_succ_lt_succ inside)
        exact Nat.succ_lt_succ_iff.trans behind
    · -- Nothing behind a value that is not below the target is below it.
      have none_below : ∀ later ∈ value :: rest, ¬ decide (later < target) = true := by
        intro later mem smaller
        have later_below : later < target := of_decide_eq_true smaller
        rcases List.mem_cons.mp mem with rfl | mem
        · exact below later_below
        · exact below (UInt64.lt_of_le_of_lt (least later mem) later_below)
      rw [List.countP_eq_zero.mpr none_below]
      refine ⟨fun early => absurd early (Nat.not_lt_zero i), fun smaller => ?_⟩
      exact absurd (decide_eq_true smaller) (none_below _ (List.getElem_mem inside))

namespace Table

variable (t : Table) {right : UInt32} {target : UInt64}

/-- How many values are below a target. -/
def rank (target : UInt64) : Nat := t.values.countP (· < target)

/-- The position splits the values before `right` into those below the target and those that are
not. -/
structure PartedAt (right : UInt32) (target : UInt64) (position : Nat) : Prop where
  le_right : position ≤ right.toNat
  below (i : Nat) (inside : i < t.values.size) : i < position → t.values[i] < target
  above (i : Nat) (inside : i < t.values.size) : position ≤ i → i < right.toNat →
    target ≤ t.values[i]

theorem lt_rank_iff (target : UInt64) {i : Nat} (inside : i < t.values.size) :
    i < t.rank target ↔ t.values[i] < target := by
  rw [rank, ← Array.countP_toList]
  exact lt_countP_iff t.sorted target inside

theorem rank_le_size (target : UInt64) : t.rank target ≤ t.size :=
  Array.countP_le_size

/-- More values are below a greater target. -/
theorem rank_mono {lesser greater : UInt64} (ordered : lesser ≤ greater) :
    t.rank lesser ≤ t.rank greater := by
  rw [rank, rank, ← Array.countP_toList, ← Array.countP_toList]
  apply List.countP_mono_left
  intro value _ below
  exact decide_eq_true (UInt64.lt_of_lt_of_le (of_decide_eq_true below) ordered)

/-- All values are below a target exactly if the last one is. -/
theorem rank_eq_size_iff : t.rank target = t.size ↔ t.last < target := by
  have positive := t.size_pos
  have final : t.values.size - 1 < t.values.size := Nat.sub_one_lt_of_lt positive
  have last_below := t.lt_rank_iff target final
  have bounded := t.rank_le_size target
  unfold size at bounded ⊢
  rw [last, ← last_below]
  omega

/-- Only one position splits the values before a bound: the rank of the target, unless the bound is
smaller. -/
theorem partedAt_iff (inside : right.toNat ≤ t.size) {position : Nat} :
    t.PartedAt right target position ↔ position = min (t.rank target) right.toNat := by
  constructor
  · intro parted
    apply eq_of_forall_lt_iff
    intro i
    rw [Nat.lt_min]
    constructor
    · intro early
      have before_right := Nat.lt_of_lt_of_le early parted.le_right
      have within : i < t.values.size := Nat.lt_of_lt_of_le before_right inside
      exact ⟨(t.lt_rank_iff target within).mpr (parted.below i within early), before_right⟩
    · intro ⟨before_rank, before_right⟩
      have within : i < t.values.size := Nat.lt_of_lt_of_le before_right inside
      have smaller := (t.lt_rank_iff target within).mp before_rank
      apply Nat.lt_of_not_le
      intro late
      exact absurd smaller (UInt64.not_lt.mpr (parted.above i within late before_right))
  · rintro rfl
    refine ⟨Nat.min_le_right _ _, fun i within early => ?_, fun i within late before_right => ?_⟩
    · exact (t.lt_rank_iff target within).mp (Nat.lt_min.mp early).1
    · apply UInt64.not_lt.mp
      intro smaller
      have before_rank := (t.lt_rank_iff target within).mpr smaller
      exact absurd (Nat.lt_min.mpr ⟨before_rank, before_right⟩) (Nat.not_lt_of_le late)

/-- A search closes at the rank of its target, unless the bound is smaller. -/
theorem lowerBound_eq_min (inside : right.toNat ≤ t.size) (target : UInt64) :
    (t.lowerBound right inside target).toNat = min (t.rank target) right.toNat := by
  obtain ⟨bounded, below, above⟩ := t.lowerBound_partitions right inside target
  exact (t.partedAt_iff inside).mp ⟨bounded, below, above⟩

/-- The values before the bound that are below a target are those before the position on which the
search for it closes. -/
theorem lt_lowerBound_iff (inside : right.toNat ≤ t.size) (target : UInt64) {i : Nat}
    (within : i < t.values.size) (before_right : i < right.toNat) :
    i < (t.lowerBound right inside target).toNat ↔ t.values[i] < target := by
  rw [lowerBound_eq_min, Nat.lt_min, ← t.lt_rank_iff target within]
  exact and_iff_left before_right

end Table

namespace Image

theorem toNat_lowerBound (m : Image) (target : UInt64) :
    (m.lowerBound target).toNat = min (m.table.rank target) m.right.toNat :=
  m.table.lowerBound_eq_min m.right_le_size target

theorem lowerBound_mono (m : Image) {lesser greater : UInt64} (ordered : lesser ≤ greater) :
    m.lowerBound lesser ≤ m.lowerBound greater := by
  rw [UInt32.le_iff_toNat_le, toNat_lowerBound, toNat_lowerBound]
  have grows := m.table.rank_mono ordered
  omega

/-- Whether the window takes in the last value shows only past it. -/
theorem lowerBound_ne_iff {whole short : Image} (same : short.table = whole.table)
    (takes_in : whole.right.toNat = whole.table.size)
    (leaves_out : short.right.toNat + 1 = whole.table.size) (target : UInt64) :
    whole.lowerBound target ≠ short.lowerBound target ↔ whole.table.last < target := by
  have bounded := whole.table.rank_le_size target
  rw [← whole.table.rank_eq_size_iff, ne_eq, ← UInt32.toNat_inj, toNat_lowerBound,
    toNat_lowerBound, same]
  omega

/-- A search closes at the number of values below its target, or at the bound if that is smaller:
the one position up to the bound before which all values are below the target, and from which none
before the bound is. The position grows with the target. Of two images of a table, one bounded by
the size and one by the last index, the searches close apart exactly for the targets greater than
the last value, and then each at its bound. -/
theorem lowerBound_clamps_rank (m : Image) :
    (∀ target, (m.lowerBound target).toNat = min (m.table.rank target) m.right.toNat) ∧
      (∀ (target : UInt64) (position : Nat),
        m.table.PartedAt m.right target position ↔ position = (m.lowerBound target).toNat) ∧
      (∀ lesser greater, lesser ≤ greater → m.lowerBound lesser ≤ m.lowerBound greater) ∧
      (∀ short : Image, short.table = m.table → m.right.toNat = m.table.size →
        short.right.toNat + 1 = m.table.size → ∀ target,
          (m.lowerBound target ≠ short.lowerBound target ↔ m.table.last < target) ∧
          (m.table.last < target → (m.lowerBound target).toNat = m.table.size ∧
            (short.lowerBound target).toNat = m.table.size - 1)) := by
  refine ⟨m.toNat_lowerBound, ?_, fun _ _ => m.lowerBound_mono, ?_⟩
  · intro target position
    rw [m.toNat_lowerBound]
    exact m.table.partedAt_iff m.right_le_size
  · intro short same takes_in leaves_out target
    refine ⟨lowerBound_ne_iff same takes_in leaves_out target, fun past => ?_⟩
    have all_below := m.table.rank_eq_size_iff.mpr past
    rw [toNat_lowerBound, toNat_lowerBound, same, all_below]
    omega

/-- Nine is past the last of four values, two of which are equal. -/
theorem lowerBound_clamps_rank_past_last :
    ∃ whole short : Image, whole.table.values = #[1, 3, 3, 7] ∧ short.table = whole.table ∧
      whole.lowerBound 3 ≤ whole.lowerBound 9 ∧ (whole.lowerBound 3).toNat = 1 ∧
      whole.lowerBound 9 ≠ short.lowerBound 9 ∧ (whole.lowerBound 9).toNat = 4 ∧
      (short.lowerBound 9).toNat = 3 := by
  let t : Table := ⟨#[1, 3, 3, 7], by decide, by decide, by decide⟩
  let whole : Image := ⟨⟨4, 4294967295⟩, t, by decide, by decide⟩
  let short : Image := ⟨⟨3, 4⟩, t, by decide, by decide⟩
  obtain ⟨clamped, -, grows, apart⟩ := lowerBound_clamps_rank whole
  obtain ⟨differ_iff, closes⟩ := apart short rfl rfl rfl 9
  have past : whole.table.last < 9 := by decide
  exact ⟨whole, short, rfl, rfl, grows 3 9 (by decide), clamped 3, differ_iff.mpr past,
    closes past⟩

end Image

end TableSearch
