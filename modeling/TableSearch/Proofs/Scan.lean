import TableSearch.Proofs.Acceptance
import TableSearch.Proofs.Partition
import TableSearch.Queue

/-!
# A search answers what a scan answers

`scan` goes through values from left to right. A search of any accepted image gives the answer of
a scan of the values that were checked: the partition at the closing position leaves room for one
first occurrence only, and where the bound is one less than the size, the last value, which no
probe reads, is the one that the guarded comparison reads.
-/

namespace TableSearch

/-- The answer of a scan from left to right: the first position of the target, or `failed` if it
does not occur. -/
def scan (values : List UInt64) (failed : UInt32) (target : UInt64) : UInt32 :=
  match values.idxOf? target with
  | some index => UInt32.ofNat index
  | none => failed

theorem scan_of_absent {values : List UInt64} {failed : UInt32} {target : UInt64}
    (absent : target ∉ values) : scan values failed target = failed := by
  rw [scan, List.idxOf?_eq_none_iff.mpr absent]

theorem scan_of_first {values : List UInt64} {failed : UInt32} {target : UInt64} {i : Nat}
    (inside : i < values.length) (here : values[i] = target)
    (first : ∀ (j : Nat) (earlier : j < i), values[j] ≠ target) :
    scan values failed target = UInt32.ofNat i := by
  rw [scan, List.idxOf?_eq_some_iff.mpr ⟨inside, here, first⟩]

/-- A value that occurs has a first occurrence. -/
theorem exists_first_of_mem {values : List UInt64} {target : UInt64} (present : target ∈ values) :
    ∃ (i : Nat) (inside : i < values.length), values[i] = target ∧
      ∀ (j : Nat) (earlier : j < i), values[j] ≠ target := by
  obtain ⟨i, found⟩ := Option.isSome_iff_exists.mp (List.isSome_idxOf?.mpr present)
  exact ⟨i, List.idxOf?_eq_some_iff.mp found⟩

namespace Table

variable {t : Table} {right : UInt32} {inside : right.toNat ≤ t.size} {target : UInt64}

/-- A bound that leaves out at most the last value lets the search close on the first occurrence
of the target. -/
theorem lowerBound_eq_of_first (covers : t.size ≤ right.toNat + 1) {i : Nat}
    (within : i < t.values.size) (here : t.values[i] = target)
    (first : ∀ (j : Nat) (earlier : j < i), t.values[j] ≠ target) :
    (t.lowerBound right inside target).toNat = i := by
  obtain ⟨bounded, below, above⟩ := t.lowerBound_partitions right inside target
  apply Nat.le_antisymm
  · apply Nat.le_of_not_lt
    intro early
    have smaller := below i within early
    rw [here] at smaller
    exact UInt64.lt_irrefl target smaller
  · apply Nat.le_of_not_lt
    intro earlier
    have unclosed : (t.lowerBound right inside target).toNat < right.toNat := by
      have fits : i < t.size := within
      omega
    have closing := Nat.lt_trans earlier within
    have atLeast := above _ closing (Nat.le_refl _) unclosed
    have atMost := t.values_le (Nat.le_of_lt earlier) within
    rw [here] at atMost
    exact first _ earlier (UInt64.le_antisymm atMost atLeast)

theorem settle_eq_scan (covers : t.size ≤ right.toNat + 1) (failed : UInt32) :
    t.settle failed (t.lowerBound right inside target) target =
      scan t.values.toList failed target := by
  rw [settle, get?]
  by_cases present : target ∈ t.values.toList
  · obtain ⟨i, within, here, first⟩ := exists_first_of_mem present
    have closes : (t.lowerBound right inside target).toNat = i :=
      lowerBound_eq_of_first covers within here first
    have holds : t.values[(t.lowerBound right inside target).toNat]? = some target := by
      rw [closes, Array.getElem?_eq_getElem within]
      exact congrArg some here
    rw [if_pos holds, scan_of_first within here first, ← closes, UInt32.ofNat_toNat]
  · rw [scan_of_absent present, if_neg]
    intro holds
    exact present (Array.mem_toList_iff.mpr (Array.mem_of_getElem? holds))

end Table

namespace Image

theorem size_le_right_add_one (m : Image) : m.table.size ≤ m.right.toNat + 1 := by
  have fits := m.right_fits
  unfold right
  omega

theorem answer_eq_scan (m : Image) (target : UInt64) :
    m.answer target = scan m.table.values.toList m.failed target :=
  Table.settle_eq_scan m.size_le_right_add_one m.failed

/-- An answer that is a position differs from the one for an absent target. -/
theorem run_found_iff (m : Image) (target : UInt64) :
    (m.run target).found = true ↔ target ∈ m.table.values.toList := by
  have found : (m.run target).found = decide ((m.run target).result ≠ m.failed) := rfl
  rw [found, run_result, answer_eq_scan, decide_eq_true_iff]
  constructor
  · intro differs
    exact Decidable.byContradiction fun absent => differs (scan_of_absent absent)
  · intro present
    obtain ⟨i, within, here, first⟩ := exists_first_of_mem present
    rw [scan_of_first within here first]
    rintro same
    have outside : m.table.size ≤ m.failed.toNat := m.failed_outside
    have small : i < UInt32.size := Nat.lt_trans within m.table.size_lt
    rw [← same, UInt32.toNat_ofNat_of_lt' small] at outside
    exact absurd within (Nat.not_lt_of_le outside)

variable {σ ε : Type} [Source σ ε] {before after : σ} {target : UInt64}

/-- A search whose draw succeeds goes on with the value that was drawn. -/
theorem search_of_draw (m : Image)
    (drawn : (Source.nextPublic : Draw σ ε UInt64).run.run before = (.ok target, after)) :
    m.search.run.run before = (.ok (m.answer target), after) := by
  simp only [search, Source.next, ExceptT.run_bind, StateT.run_bind, drawn]
  rfl

theorem searchRecorded_of_draw (m : Image)
    (drawn : (Source.nextPublic : Draw σ ε UInt64).run.run before = (.ok target, after)) :
    m.searchRecorded.run.run before = (.ok (m.run target), after) := by
  simp only [searchRecorded, Source.next, ExceptT.run_bind, StateT.run_bind, drawn]
  rfl

/-- For any values and constants that pass the checks, and any source that yields a target, the
search answers what a scan of the values answers: the first position of the target, or `failed`.
The recorded search also tells whether the target occurs. The other accepted bound gives the same
answer. -/
theorem search_eq_scan {values : Array UInt64} {config : Config} {t : Table} {m : Image}
    (checked : Table.ofArray values = .ok t) (built : Image.build config t = .ok m)
    (drawn : (Source.nextPublic : Draw σ ε UInt64).run.run before = (.ok target, after)) :
    m.search.run.run before = (.ok (scan values.toList config.failed target), after) ∧
      (∃ run, m.searchRecorded.run.run before = (.ok run, after) ∧
        run.result = scan values.toList config.failed target ∧
        (run.found = true ↔ target ∈ values)) ∧
      (∀ (i : Nat) (inside : i < values.size), values[i] = target →
        (∀ (j : Nat) (earlier : j < i), values[j] ≠ target) →
          (scan values.toList config.failed target).toNat = i) ∧
      (target ∉ values → scan values.toList config.failed target = config.failed) ∧
      (∀ (right : UInt32) (other : Image), Image.build ⟨right, config.failed⟩ t = .ok other →
        other.search.run.run before = m.search.run.run before) := by
  obtain ⟨-, small, -, same⟩ := Table.ofArray_eq_ok_iff.mp checked
  obtain ⟨rfl, rfl⟩ := Image.parts_of_build built
  subst same
  have answers : m.search.run.run before =
      (.ok (scan m.table.values.toList m.config.failed target), after) := by
    rw [search_of_draw m drawn, answer_eq_scan]
    rfl
  refine ⟨answers, ⟨m.run target, searchRecorded_of_draw m drawn, ?_, ?_⟩, ?_, ?_, ?_⟩
  · rw [run_result, answer_eq_scan]
    rfl
  · rw [run_found_iff, Array.mem_toList_iff]
  · intro i inside here first
    have position : scan m.table.values.toList m.config.failed target = UInt32.ofNat i :=
      scan_of_first inside here first
    rw [position, UInt32.toNat_ofNat_of_lt' (Nat.lt_trans inside small)]
  · intro absent
    exact scan_of_absent fun present => absent (Array.mem_toList_iff.mp present)
  · intro right other otherBuilt
    obtain ⟨otherConfig, otherTable⟩ := Image.parts_of_build otherBuilt
    have otherFailed : other.failed = m.config.failed := by
      rw [failed, otherConfig]
    rw [answers, search_of_draw other drawn, answer_eq_scan, otherTable, otherFailed]

theorem search_eq_scan_duplicates :
    ∃ t m, Table.ofArray #[1, 3, 3, 7] = .ok t ∧ Image.build ⟨3, 4294967295⟩ t = .ok m ∧
      m.search.run.run (Queue.ofPublic [3, 7]) = (.ok 1, ⟨⟨[7], 1⟩, {}⟩) := by
  let t : Table := ⟨#[1, 3, 3, 7], by decide, by decide, by decide⟩
  let m : Image := ⟨⟨3, 4294967295⟩, t, by decide, by decide⟩
  have checked : Table.ofArray #[1, 3, 3, 7] = .ok t := t.ofArray_values
  have built : Image.build ⟨3, 4294967295⟩ t = .ok m := m.build_parts
  have drawn : (Source.nextPublic : Draw Queue InputError UInt64).run.run (Queue.ofPublic [3, 7]) =
      (.ok 3, ⟨⟨[7], 1⟩, {}⟩) := rfl
  have position : scan [1, 3, 3, 7] 4294967295 3 = 1 := by decide
  have answers := (search_eq_scan checked built drawn).1
  rw [position] at answers
  exact ⟨t, m, checked, built, answers⟩

end Image

end TableSearch
