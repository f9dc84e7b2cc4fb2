import TableSearch.Proofs.Refusal
import TableSearch.Proofs.Scan

/-!
# Constants without which values are missed

The checks of an image refuse no constants that would do. Where values ascend strictly, a bound that
leaves out more than the last value hides those behind it: the search closes no later than at the
bound, and what it compares there is another value. An answer for an absent target that is an index
is given for the value at that index too, which then counts as absent. So constants whose bound lies
inside a table are accepted exactly if every value of the table is found.
-/

namespace TableSearch

/-- The run found its target at an index. -/
structure Run.Finds (run : Run) (index : Nat) : Prop where
  result_eq : run.result.toNat = index
  found_eq : run.found = true

namespace Table

variable {t : Table} {c : Config}

theorem run_found (inside : c.right.toNat ≤ t.size) (target : UInt64) :
    (t.run c inside target).found = decide (t.answer c inside target ≠ c.failed) := by
  rw [← t.run_result c inside target]
  rfl

/-- A target for which the answer is that of an absent one is not found, even if this answer is its
index. -/
theorem not_finds_of_failed {inside : c.right.toNat ≤ t.size} {target : UInt64}
    (failed : t.answer c inside target = c.failed) (index : Nat) :
    ¬ (t.run c inside target).Finds index := by
  intro finds
  have found := finds.found_eq
  rw [run_found, failed] at found
  exact absurd rfl (of_decide_eq_true found)

/-- In strictly ascending values no two positions hold the same value. -/
theorem eq_of_values_eq (strict : t.values.toList.Pairwise (· < ·)) {i j : Nat}
    (first : i < t.values.size) (second : j < t.values.size) (same : t.values[i] = t.values[j]) :
    i = j := by
  have apart {i j : Nat} (first : i < t.values.size) (second : j < t.values.size)
      (earlier : i < j) : t.values[i] < t.values[j] :=
    List.pairwise_iff_getElem.mp strict i j first second earlier
  rcases Nat.lt_trichotomy i j with before | equal | behind
  · exact absurd same (UInt64.ne_of_lt (apart first second before))
  · exact equal
  · exact absurd same.symm (UInt64.ne_of_lt (apart second first behind))

/-- A value behind the bound is answered as an absent one. -/
theorem answer_of_hidden (strict : t.values.toList.Pairwise (· < ·))
    (inside : c.right.toNat ≤ t.size) {i : Nat} (within : i < t.values.size)
    (hidden : c.right.toNat < i) : t.answer c inside t.values[i] = c.failed := by
  obtain ⟨bounded, -, -⟩ := t.lowerBound_partitions c.right inside t.values[i]
  rw [answer, settle, if_neg]
  intro holds
  obtain ⟨closes, here⟩ := Array.getElem?_eq_some_iff.mp holds
  have same := eq_of_values_eq strict closes within here
  omega

/-- With a bound that leaves out at most the last value, the answer for a value is the first of its
positions. -/
theorem toNat_answer_of_first (covers : t.size ≤ c.right.toNat + 1)
    (inside : c.right.toNat ≤ t.size) {i : Nat} (within : i < t.values.size)
    (first : ∀ (j : Nat) (earlier : j < i), t.values[j] ≠ t.values[i]) :
    (t.answer c inside t.values[i]).toNat = i := by
  have position : scan t.values.toList c.failed t.values[i] = UInt32.ofNat i :=
    scan_of_first within rfl first
  rw [answer, settle_eq_scan covers, position]
  exact UInt32.toNat_ofNat_of_lt' (Nat.lt_trans within t.size_lt)

end Table

namespace Image

variable {t : Table} {c : Config}

/-- Accepted constants find every value at the first of its positions. -/
theorem finds_of_build {m : Image} (built : build c t = .ok m) (inside : c.right.toNat ≤ t.size)
    {i : Nat} (within : i < t.values.size)
    (first : ∀ (j : Nat) (earlier : j < i), t.values[j] ≠ t.values[i]) :
    (t.run c inside t.values[i]).Finds i := by
  obtain ⟨fits, outside, -⟩ := build_eq_ok_iff.mp built
  have covers : t.size ≤ c.right.toNat + 1 := by omega
  have index := Table.toNat_answer_of_first covers inside within first
  refine ⟨by rw [Table.run_result, index], ?_⟩
  rw [Table.run_found, decide_eq_true_iff]
  intro absent
  rw [absent] at index
  exact absurd within (Nat.not_lt_of_le (index ▸ outside))

/-- For refused constants there is a value that the search answers as an absent one: where the bound
is too small, the last value, and otherwise the one whose index is the answer. -/
theorem exists_missed_of_refused (strict : t.values.toList.Pairwise (· < ·))
    (inside : c.right.toNat ≤ t.size) {rejection : Rejection}
    (refused : build c t = .error rejection) :
    ∃ (i : Nat) (within : i < t.values.size), t.answer c inside t.values[i] = c.failed := by
  rcases build_eq_error_iff.mp refused with ⟨short, -⟩ | ⟨fits, collides, -⟩
  · have final : t.size - 1 < t.values.size := Nat.sub_one_lt_of_lt t.size_pos
    have hidden : c.right.toNat < t.size - 1 := by omega
    exact ⟨t.size - 1, final, Table.answer_of_hidden strict inside final hidden⟩
  · have covers : t.size ≤ c.right.toNat + 1 := by omega
    have collides : c.failed.toNat < t.values.size := collides
    have alone (j : Nat) (earlier : j < c.failed.toNat) : t.values[j] ≠ t.values[c.failed.toNat] :=
      fun same => Nat.ne_of_lt earlier
        (Table.eq_of_values_eq strict (Nat.lt_trans earlier collides) collides same)
    have index := Table.toNat_answer_of_first covers inside collides alone
    exact ⟨c.failed.toNat, collides, UInt32.toNat_inj.mp index⟩

/-- For constants whose bound lies inside a table: if they are accepted, every value is found at the
first of its positions; and where the values ascend strictly, if they are refused, some value is
answered as an absent one and is not found at its index. So for such tables constants are accepted
exactly if every value is found at its index. -/
theorem build_iff_finds (t : Table) (c : Config) (inside : c.right.toNat ≤ t.size) :
    ((∃ m, build c t = .ok m) → ∀ (i : Nat) (within : i < t.values.size),
      (∀ (j : Nat) (earlier : j < i), t.values[j] ≠ t.values[i]) →
        (t.run c inside t.values[i]).Finds i) ∧
      (t.values.toList.Pairwise (· < ·) →
        (∀ rejection, build c t = .error rejection → ∃ (i : Nat) (within : i < t.values.size),
          (t.run c inside t.values[i]).result = c.failed ∧
            ¬ (t.run c inside t.values[i]).Finds i) ∧
        ((∃ m, build c t = .ok m) ↔
          ∀ (i : Nat) (within : i < t.values.size), (t.run c inside t.values[i]).Finds i)) := by
  have accepted : (∃ m, build c t = .ok m) → ∀ (i : Nat) (within : i < t.values.size),
      (∀ (j : Nat) (earlier : j < i), t.values[j] ≠ t.values[i]) →
        (t.run c inside t.values[i]).Finds i :=
    fun ⟨_, built⟩ _ within first => finds_of_build built inside within first
  refine ⟨accepted, fun strict => ?_⟩
  have refused (rejection : Rejection) (broken : build c t = .error rejection) :
      ∃ (i : Nat) (within : i < t.values.size), (t.run c inside t.values[i]).result = c.failed ∧
        ¬ (t.run c inside t.values[i]).Finds i := by
    obtain ⟨i, within, absent⟩ := exists_missed_of_refused strict inside broken
    exact ⟨i, within, (t.run_result c inside _).trans absent, Table.not_finds_of_failed absent i⟩
  refine ⟨refused, fun built i within => accepted built i within fun j earlier same => ?_, ?_⟩
  · exact Nat.ne_of_lt earlier
      (Table.eq_of_values_eq strict (Nat.lt_trans earlier within) within same)
  · intro finds
    cases outcome : build c t with
    | ok m => exact ⟨m, rfl⟩
    | error rejection =>
      obtain ⟨i, within, -, missed⟩ := refused rejection outcome
      exact absurd (finds i within) missed

/-- The last of five values lies behind the bound 1, and its index is the answer for an absent
target: the answer is right, but the value does not count as found. -/
theorem build_iff_finds_hidden :
    ∃ (t : Table) (inside : 1 ≤ t.size), t.values = #[5, 6, 7, 8, 9] ∧
      t.values.toList.Pairwise (· < ·) ∧
      build ⟨1, 4⟩ t = .error (.rightOutOfRange 1 5) ∧ (t.run ⟨1, 4⟩ inside 9).result = 4 ∧
      (∃ (i : Nat) (within : i < t.values.size),
        (t.run ⟨1, 4⟩ inside t.values[i]).result = 4 ∧
          ¬ (t.run ⟨1, 4⟩ inside t.values[i]).Finds i) ∧
      ∃ inside : 4 ≤ t.size, (t.run ⟨4, 5⟩ inside 9).Finds 4 := by
  let t : Table := ⟨#[5, 6, 7, 8, 9], by decide, by decide, by decide⟩
  let c : Config := ⟨1, 4⟩
  let m : Image := ⟨⟨4, 5⟩, t, by decide, by decide⟩
  have strict : t.values.toList.Pairwise (· < ·) := by decide
  have broken : build c t = .error (.rightOutOfRange 1 5) := rfl
  have small : c.right.toNat ≤ t.size := by decide
  have answered : (t.run c small t.values[4]).result = 4 :=
    (Table.run_result _ _ small _).trans (Table.answer_of_hidden strict small (by decide) (by decide))
  obtain ⟨-, misses⟩ := build_iff_finds t c small
  obtain ⟨-, finds⟩ := build_iff_finds t m.config m.right_le_size
  exact ⟨t, small, rfl, strict, broken, answered, (misses strict).1 _ broken, m.right_le_size,
    (finds strict).2.mp ⟨m, m.build_parts⟩ 4 (by decide)⟩

end Image

end TableSearch
