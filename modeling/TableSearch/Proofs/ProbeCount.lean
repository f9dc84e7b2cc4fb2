import Mathlib.Data.Nat.Log
import TableSearch.Proofs.Disclosure

/-!
# How many probes a search makes

A probe leaves half of a span, rounded down, if it goes left, and half of all positions but one if it
goes right. A measure of widths that falls by at least one with each probe bounds
the number of probes from above, and one that falls by at most one bounds it from below
(`Chain.length_le`, `Chain.le_length`). Two logarithms of the width are such measures on every
chain, and on the chains that always go to the same side they are exact: to the left in a search
that closes at the start, to the right in one that closes at the bound.
-/

namespace TableSearch

variable {values : Array UInt64} {target : UInt64} {s start last : Span} {p : Probe}
  {probes : List Probe} {measure : Nat → Nat}

/-! ## Widths along a chain -/

/-- How many positions a span holds. -/
def Span.width (s : Span) : Nat := s.high - s.low

theorem Probe.Inspects.width_pos (inspects : p.Inspects values target s) : 0 < s.width :=
  Nat.sub_pos_of_lt inspects.nonempty

theorem Probe.Inspects.width_rest_of_left (inspects : p.Inspects values target s)
    (left : ¬ p.wentRight = true) : p.rest.width = s.width / 2 := by
  have nonempty := inspects.nonempty
  rw [Probe.rest, if_neg left, inspects.mid_eq, inspects.low_eq]
  simp only [Span.width]
  omega

theorem Probe.Inspects.width_rest_of_right (inspects : p.Inspects values target s)
    (right : p.wentRight = true) : p.rest.width = (s.width - 1) / 2 := by
  have nonempty := inspects.nonempty
  rw [Probe.rest, if_pos right, inspects.mid_eq, inspects.high_eq]
  simp only [Span.width]
  omega

/-- A measure that falls with each probe bounds their number. -/
theorem Chain.length_le (chain : Chain values target start probes last)
    (falls : ∀ p ∈ probes, ∀ s : Span, p.Inspects values target s →
      measure p.rest.width + 1 ≤ measure s.width) : probes.length ≤ measure start.width := by
  induction chain with
  | nil => exact Nat.zero_le _
  | cons inspects _ ih =>
    have first := falls _ (List.mem_cons_self ..) _ inspects
    have further := ih fun q later => falls q (List.mem_cons_of_mem _ later)
    rw [List.length_cons]
    omega

/-- A measure that falls by at most one with each probe is used up by no fewer probes. -/
theorem Chain.le_length (chain : Chain values target start probes last)
    (closed : last.low = last.high) (empty : measure 0 = 0)
    (falls : ∀ p ∈ probes, ∀ s : Span, p.Inspects values target s →
      measure s.width ≤ measure p.rest.width + 1) : measure start.width ≤ probes.length := by
  induction chain with
  | nil s =>
    have zero : s.width = 0 := by rw [Span.width, closed, Nat.sub_self]
    rw [zero, empty]
    exact Nat.zero_le _
  | cons inspects _ ih =>
    have first := falls _ (List.mem_cons_self ..) _ inspects
    have further := ih closed fun q later => falls q (List.mem_cons_of_mem _ later)
    rw [List.length_cons]
    omega

/-! ## Two logarithms of a width -/

/-- The most probes that a span of a width takes: those of a chain that always goes left. -/
def mostProbes (width : Nat) : Nat := Nat.clog 2 (width + 1)

/-- The fewest probes that a span of a width takes: those of a chain that always goes right. -/
def fewestProbes (width : Nat) : Nat := Nat.log 2 (width + 1)

theorem mostProbes_half {width : Nat} (positive : 0 < width) :
    mostProbes (width / 2) + 1 = mostProbes width := by
  have half : (width + 1 + 2 - 1) / 2 = width / 2 + 1 := by omega
  rw [mostProbes, mostProbes, Nat.clog_of_one_lt Nat.one_lt_two (by omega : 1 < width + 1), half]

theorem fewestProbes_half {width : Nat} (positive : 0 < width) :
    fewestProbes ((width - 1) / 2) + 1 = fewestProbes width := by
  have half : (width + 1) / 2 = (width - 1) / 2 + 1 := by omega
  rw [fewestProbes, fewestProbes,
    Nat.log_of_one_lt_of_le Nat.one_lt_two (by omega : 2 ≤ width + 1), half]

theorem mostProbes_mono {width wider : Nat} (le : width ≤ wider) :
    mostProbes width ≤ mostProbes wider :=
  Nat.clog_mono_right 2 (Nat.succ_le_succ le)

theorem fewestProbes_mono {width wider : Nat} (le : width ≤ wider) :
    fewestProbes width ≤ fewestProbes wider :=
  Nat.log_mono_right (Nat.succ_le_succ le)

theorem fewestProbes_pos {width : Nat} (positive : 0 < width) : 0 < fewestProbes width := by
  rw [← fewestProbes_half positive]
  exact Nat.succ_pos _

/-- Rounding up the logarithm of the next number is rounding down, and one more. -/
theorem mostProbes_eq_log {width : Nat} (positive : 0 < width) :
    mostProbes width = Nat.log 2 width + 1 := by
  apply Nat.le_antisymm
  · exact (Nat.clog_le_iff_le_pow Nat.one_lt_two).mpr
      (Nat.lt_pow_succ_log_self Nat.one_lt_two width)
  · apply (Nat.lt_clog_iff_pow_lt Nat.one_lt_two).mpr
    exact Nat.lt_succ_of_le (Nat.pow_log_le_self 2 (Nat.ne_of_gt positive))

theorem mostProbes_le_of_word (word : UInt32) : mostProbes word.toNat ≤ 32 := by
  have fits : word.toNat ≤ UInt32.size - 1 := Nat.le_sub_one_of_lt word.toNat_lt
  have widest : mostProbes (UInt32.size - 1) = 32 := Nat.clog_pow 2 32 Nat.one_lt_two
  exact Nat.le_trans (mostProbes_mono fits) (Nat.le_of_eq widest)

/-! ## Bounds on the length of a chain -/

theorem Chain.length_le_mostProbes (chain : Chain values target start probes last) :
    probes.length ≤ mostProbes start.width := by
  refine chain.length_le fun p _ s inspects => ?_
  rw [← mostProbes_half inspects.width_pos]
  apply Nat.succ_le_succ
  apply mostProbes_mono
  by_cases right : p.wentRight = true
  · rw [inspects.width_rest_of_right right]
    omega
  · rw [inspects.width_rest_of_left right]

theorem Chain.fewestProbes_le_length (chain : Chain values target start probes last)
    (closed : last.low = last.high) : fewestProbes start.width ≤ probes.length := by
  refine chain.le_length closed rfl fun p _ s inspects => ?_
  rw [← fewestProbes_half inspects.width_pos]
  apply Nat.succ_le_succ
  apply fewestProbes_mono
  by_cases right : p.wentRight = true
  · rw [inspects.width_rest_of_right right]
  · rw [inspects.width_rest_of_left right]
    omega

theorem Chain.length_eq_mostProbes (chain : Chain values target start probes last)
    (closed : last.low = last.high) (left : ∀ p ∈ probes, ¬ p.wentRight = true) :
    probes.length = mostProbes start.width := by
  apply Nat.le_antisymm chain.length_le_mostProbes
  refine chain.le_length closed rfl fun p mem s inspects => ?_
  rw [inspects.width_rest_of_left (left p mem), mostProbes_half inspects.width_pos]

theorem Chain.length_eq_fewestProbes (chain : Chain values target start probes last)
    (closed : last.low = last.high) (right : ∀ p ∈ probes, p.wentRight = true) :
    probes.length = fewestProbes start.width := by
  apply Nat.le_antisymm _ (chain.fewestProbes_le_length closed)
  refine chain.length_le fun p mem s inspects => ?_
  rw [inspects.width_rest_of_right (right p mem), fewestProbes_half inspects.width_pos]

/-! ## The probes of a search -/

namespace Image

variable (m : Image)

theorem length_probes_le (target : UInt64) :
    (m.run target).probes.length ≤ mostProbes m.right.toNat :=
  (m.chain_run target).length_le_mostProbes

theorem le_length_probes (target : UInt64) :
    fewestProbes m.right.toNat ≤ (m.run target).probes.length :=
  (m.chain_run target).fewestProbes_le_length rfl

theorem length_probes_eq_zero_iff (target : UInt64) :
    (m.run target).probes.length = 0 ↔ m.right.toNat = 0 := by
  constructor
  · intro none
    have atLeast := m.le_length_probes target
    rw [none] at atLeast
    apply Nat.eq_zero_of_not_pos
    intro positive
    exact Nat.not_lt_of_le atLeast (fewestProbes_pos positive)
  · intro zero
    have atMost := m.length_probes_le target
    rw [zero] at atMost
    exact Nat.eq_zero_of_le_zero atMost

/-- A search for a target that no value is below closes at the start, and makes no probe that goes
right. -/
theorem length_probes_of_le_first (low : target ≤ m.table.first) :
    (m.run target).probes.length = mostProbes m.right.toNat := by
  have chain := m.chain_run target
  have none_below : m.table.rank target = 0 := by
    apply Nat.eq_zero_of_not_pos
    intro some_below
    have smaller := (m.table.lt_rank_iff target m.table.size_pos).mp some_below
    exact absurd smaller (UInt64.not_lt.mpr low)
  apply chain.length_eq_mostProbes rfl
  intro p mem right
  have early := (m.wentRight_iff chain mem).mp right
  rw [m.toNat_lowerBound, none_below, Nat.zero_min] at early
  exact Nat.not_lt_zero _ early

/-- A search for a target that every value before the bound is below closes at the bound, and makes
only probes that go right. -/
theorem length_probes_of_lt (inside : m.right.toNat - 1 < m.table.values.size)
    (high : m.table.values[m.right.toNat - 1] < target) :
    (m.run target).probes.length = fewestProbes m.right.toNat := by
  have chain := m.chain_run target
  have all_below : m.right.toNat - 1 < m.table.rank target :=
    (m.table.lt_rank_iff target inside).mpr high
  apply chain.length_eq_fewestProbes rfl
  intro p mem
  have before_right : p.mid.toNat < m.right.toNat := (chain.mid_within p mem).2
  rw [m.wentRight_iff chain mem, m.toNat_lowerBound]
  omega

variable {σ ε : Type} [Source σ ε] {before after : σ}

/-- A recorded search makes at least as many probes as the logarithm of the bound and one, rounded
down, and at most one more than the logarithm of the bound: the most for a target that is not above
the first value, and the fewest for one above the last value before the bound. It makes none exactly
if the bound is zero, and never more than 32. -/
theorem probe_count_tight (m : Image)
    (drawn : (Source.nextPublic : Draw σ ε UInt64).run.run before = (.ok target, after)) :
    ∃ run, m.searchRecorded.run.run before = (.ok run, after) ∧
      (1 ≤ m.right.toNat →
        Nat.log 2 (m.right.toNat + 1) ≤ run.probes.length ∧
        run.probes.length ≤ Nat.log 2 m.right.toNat + 1 ∧
        (target ≤ m.table.first → run.probes.length = Nat.log 2 m.right.toNat + 1) ∧
        ∃ inside : m.right.toNat - 1 < m.table.values.size,
          m.table.values[m.right.toNat - 1] < target →
            run.probes.length = Nat.log 2 (m.right.toNat + 1)) ∧
      (run.probes.length = 0 ↔ m.right.toNat = 0) ∧
      run.probes.length ≤ 32 := by
  have atMost := m.length_probes_le target
  refine ⟨m.run target, m.searchRecorded_of_draw drawn, fun positive => ?_,
    m.length_probes_eq_zero_iff target, Nat.le_trans atMost (mostProbes_le_of_word m.right)⟩
  have most := mostProbes_eq_log positive
  have inside : m.right.toNat - 1 < m.table.values.size :=
    Nat.lt_of_lt_of_le (Nat.sub_one_lt_of_lt positive) m.right_le_size
  refine ⟨m.le_length_probes target, most ▸ atMost, fun low => ?_, inside,
    m.length_probes_of_lt inside⟩
  rw [m.length_probes_of_le_first low, most]

/-- With the bound 6 a search makes two or three probes: three for 0, and two for 9. -/
theorem probe_count_tight_six :
    ∃ (m : Image) (low high : Run), m.table.values = #[1, 3, 3, 5, 7, 8] ∧ m.right = 6 ∧
      m.searchRecorded.run.run (Queue.ofPublic [0]) = (.ok low, ⟨⟨[], 1⟩, {}⟩) ∧
      m.searchRecorded.run.run (Queue.ofPublic [9]) = (.ok high, ⟨⟨[], 1⟩, {}⟩) ∧
      low.probes.length = 3 ∧ high.probes.length = 2 := by
  let t : Table := ⟨#[1, 3, 3, 5, 7, 8], by decide, by decide, by decide⟩
  let m : Image := ⟨⟨6, 4294967295⟩, t, by decide, by decide⟩
  have drawn (target : UInt64) :
      (Source.nextPublic : Draw Queue InputError UInt64).run.run (Queue.ofPublic [target]) =
        (.ok target, ⟨⟨[], 1⟩, {}⟩) := rfl
  have positive : 1 ≤ m.right.toNat := by decide
  obtain ⟨low, searched, bounds, -⟩ := probe_count_tight m (drawn 0)
  obtain ⟨high, searchedHigh, boundsHigh, -⟩ := probe_count_tight m (drawn 9)
  obtain ⟨-, -, most, -⟩ := bounds positive
  obtain ⟨-, -, -, inside, fewest⟩ := boundsHigh positive
  have above : (8 : UInt64) < 9 := by decide
  have atMost : Nat.log 2 6 + 1 = 3 := by decide
  have atLeast : Nat.log 2 7 = 2 := by decide
  exact ⟨m, low, high, rfl, rfl, searched, searchedHigh, (most (by decide)).trans atMost,
    (fewest above).trans atLeast⟩

end Image

end TableSearch
