import Mathlib.Data.List.OfFn
import TableSearch.Proofs.Persistence
import TableSearch.Proofs.Requests
import TableSearch.Proofs.WordLoop

/-!
# Generated images

`Image.sequential` makes the image of the numbers below a size. There every value is its own index,
so a search closes at its target or, past the last index, at the bound; and since the answer for an
absent target is the size, the answer is always the smaller of the target and the size. Storing the
image and searching it through an environment changes nothing of this.

The last index is computed on words, where the size zero has none. `Image.sequential?` computes it
in arithmetic that refuses to wrap, and is refused nothing.
-/

namespace TableSearch

/-- A run that searched for a target among the numbers below a size. -/
structure Run.Among (run : Run) (size : UInt32) (target : UInt64) : Prop where
  target_eq : run.target = target
  result_eq : run.result.toNat = min target.toNat size.toNat
  found_iff : run.found = true ↔ target.toNat < size.toNat

namespace Table

/-- Every value is its own index. -/
def Numbered (t : Table) : Prop :=
  ∀ (i : Nat) (inside : i < t.values.size), t.values[i].toNat = i

/-- The numbers below a size that is not zero are a table. -/
theorem exists_sequential {size : UInt32} (positive : 0 < size.toNat) :
    ∃ t, Table.sequential size = .ok t ∧ t.size = size.toNat ∧ t.Numbered := by
  have fits (i : Nat) (inside : i < size.toNat) : (UInt64.ofNat i).toNat = i :=
    UInt64.toNat_ofNat_of_lt' (Nat.lt_trans inside (Nat.lt_trans size.toNat_lt (by decide)))
  let values := Array.ofFn fun i : Fin size.toNat => UInt64.ofNat i
  have length : values.size = size.toNat := Array.size_ofFn
  have sorted : values.toList.Pairwise (· ≤ ·) := by
    rw [Array.toList_ofFn, List.pairwise_ofFn]
    intro i j earlier
    rw [UInt64.le_iff_toNat_le, fits i i.isLt, fits j j.isLt]
    exact Nat.le_of_lt earlier
  let t : Table := ⟨values, length ▸ positive, length ▸ size.toNat_lt, sorted⟩
  refine ⟨t, t.ofArray_values, length, ?_⟩
  intro i inside
  rw [Array.getElem_ofFn, fits i (length ▸ inside)]

variable {t : Table} {target : UInt64}

theorem Numbered.mem_iff (numbered : t.Numbered) :
    target ∈ t.values.toList ↔ target.toNat < t.size := by
  rw [Array.mem_toList_iff, Array.mem_iff_getElem]
  constructor
  · intro ⟨i, inside, here⟩
    rw [← here, numbered i inside]
    exact inside
  · intro inside
    exact ⟨target.toNat, inside, UInt64.toNat_inj.mp (numbered _ inside)⟩

/-- A search among numbered values closes at the target, if the bound is not before it. -/
theorem Numbered.toNat_lowerBound (numbered : t.Numbered) {right : UInt32}
    (inside : right.toNat ≤ t.size) (target : UInt64) :
    (t.lowerBound right inside target).toNat = min target.toNat right.toNat := by
  rcases t.lowerBound_partitions right inside target with ⟨bounded, below, above⟩
  apply Nat.le_antisymm
  · apply Nat.le_min.mpr ⟨Nat.le_of_not_lt fun late => ?_, bounded⟩
    have within : target.toNat < t.values.size :=
      Nat.lt_of_lt_of_le late (Nat.le_trans bounded inside)
    have smaller := UInt64.lt_iff_toNat_lt.mp (below _ within late)
    rw [numbered _ within] at smaller
    exact Nat.lt_irrefl _ smaller
  · apply Nat.le_of_not_lt
    intro early
    rcases Nat.lt_min.mp early with ⟨beforeTarget, beforeRight⟩
    have within : (t.lowerBound right inside target).toNat < t.values.size :=
      Nat.lt_of_lt_of_le beforeRight inside
    have atLeast := UInt64.le_iff_toNat_le.mp (above _ within (Nat.le_refl _) beforeRight)
    rw [numbered _ within] at atLeast
    exact Nat.not_lt_of_le atLeast beforeTarget

end Table

namespace Image

/-- An image of the numbers below a size: the bound is the last index, and the answer for an absent
target is the size. -/
structure Numbered (m : Image) (size : UInt32) : Prop where
  right_eq : m.right.toNat = size.toNat - 1
  failed_eq : m.failed = size
  size_eq : m.table.size = size.toNat
  table_numbered : m.table.Numbered

/-- Generates an image, unless arithmetic is refused. -/
def sequential? (size : UInt32) : Option (Except Rejection Image) :=
  match Table.sequential size with
  | .error rejection => some (.error rejection)
  | .ok table => (subtract? size 1).map fun right => build ⟨right, size⟩ table

theorem exists_sequential {size : UInt32} (positive : 0 < size.toNat) :
    ∃ m, sequential? size = some (.ok m) ∧ sequential size = .ok m ∧ m.Numbered size := by
  rcases Table.exists_sequential positive with ⟨t, checked, length, numbered⟩
  have ordered : (1 : UInt32).toNat ≤ size.toNat := positive
  have last : (size - 1).toNat = size.toNat - 1 :=
    UInt32.toNat_sub_of_le _ _ (UInt32.le_iff_toNat_le.mpr ordered)
  let m : Image := ⟨⟨size - 1, size⟩, t, .inr (by rw [last, length]; omega), Nat.le_of_eq length⟩
  have built : build ⟨size - 1, size⟩ t = .ok m := m.build_parts
  refine ⟨m, ?_, ?_, last, rfl, length, numbered⟩
  · simp only [sequential?, checked, subtract?_eq_some ordered, Option.map_some, built]
  · rw [sequential, checked]
    exact built

/-- No arithmetic is refused on the way to a generated image. -/
theorem sequential?_eq_some (size : UInt32) : sequential? size = some (sequential size) := by
  rcases Nat.eq_zero_or_pos size.toNat with zero | positive
  · have same : size = 0 := UInt32.toNat_inj.mp zero
    subst same
    rfl
  · rcases exists_sequential positive with ⟨m, checked, generated, -⟩
    rw [checked, generated]

variable {m : Image} {size : UInt32}

/-- The answer of a numbered image is its target, and for an absent target the size. -/
theorem Numbered.toNat_answer (numbered : m.Numbered size) (target : UInt64) :
    (m.answer target).toNat = min target.toNat size.toNat := by
  rw [answer_eq_scan, numbered.failed_eq]
  by_cases present : target ∈ m.table.values.toList
  · rcases exists_first_of_mem present with ⟨i, inside, here, first⟩
    have place : target.toNat = i := by
      rw [← here]
      exact numbered.table_numbered i inside
    have below : i < size.toNat := by
      rw [← numbered.size_eq]
      exact inside
    rw [scan_of_first inside here first, place, Nat.min_eq_left (Nat.le_of_lt below)]
    exact UInt32.toNat_ofNat_of_lt' (Nat.lt_trans below size.toNat_lt)
  · have past : size.toNat ≤ target.toNat := by
      rw [← numbered.size_eq]
      exact Nat.le_of_not_lt fun below => present (numbered.table_numbered.mem_iff.mpr below)
    rw [scan_of_absent present, Nat.min_eq_right past]

theorem Numbered.among (numbered : m.Numbered size) (target : UInt64) :
    (m.run target).Among size target where
  target_eq := rfl
  result_eq := by rw [run_result, numbered.toNat_answer]
  found_iff := by rw [run_found_iff, numbered.table_numbered.mem_iff, numbered.size_eq]

theorem Numbered.toNat_lowerBound (numbered : m.Numbered size) (target : UInt64) :
    (m.lowerBound target).toNat = min target.toNat (size.toNat - 1) := by
  rw [← numbered.right_eq]
  exact numbered.table_numbered.toNat_lowerBound m.right_le_size target

/-- A size of zero is refused as an empty table, where its last index would wrap. For every other
size the image of the numbers below it is generated, without a refusal of the arithmetic. A search
of it for any target, on any source, answers the smaller of the target and the size, finds the
target exactly if it is below the size, and closes at the smaller of the target and the last index.
So do the searches of the image that is loaded where it was saved, in whichever form, and through
the environment of that image after any requests. -/
theorem generated_searches (size : UInt32) :
    sequential? size = some (sequential size) ∧
      (size = 0 → subtract? size 1 = none ∧ sequential size = .error .emptyTable) ∧
      (size ≠ 0 → ∃ m, sequential size = .ok m ∧ m.Numbered size ∧
        (∀ target, (m.lowerBound target).toNat = min target.toNat (size.toNat - 1)) ∧
        (∀ (σ ε : Type) [Source σ ε] (before after : σ) (target : UInt64),
          (Source.nextPublic : Draw σ ε UInt64).run.run before = (.ok target, after) →
            ∃ run : Run, run.Among size target ∧
              m.search.run.run before = (.ok run.result, after) ∧
              m.searchRecorded.run.run before = (.ok run, after)) ∧
        ∀ (σ : Type) [Files (StateM σ)], Files.Keep σ →
          ∀ (path : String) (before after : σ),
            (m.save path : StateM σ (Except Error Unit)).run before = (.ok (), after) →
              ∃ loaded, ((load path : StateM σ (Except Error Image)).run after).1 = .ok loaded ∧
                (∀ target, (loaded.lowerBound target).toNat =
                  min target.toNat (size.toNat - 1)) ∧
                ∀ (requests : List Request) (target : UInt64),
                  (supplied .publicInput requests)[
                      ((Environment.ofImage loaded).executions requests).length]? = some target →
                    ∃ e, (((Environment.ofImage loaded).after requests).invoke "bsearch").outcome =
                        .ok e ∧
                      e.toRun.Among size target) := by
  refine ⟨sequential?_eq_some size, ?_, fun nonzero => ?_⟩
  · intro zero
    subst zero
    exact ⟨rfl, rfl⟩
  have positive : 0 < size.toNat :=
    Nat.pos_of_ne_zero fun zero => nonzero (UInt32.toNat_inj.mp zero)
  rcases exists_sequential positive with ⟨m, -, generated, numbered⟩
  refine ⟨m, generated, numbered, numbered.toNat_lowerBound, ?_, ?_⟩
  · intro σ ε _ before after target drawn
    refine ⟨m.run target, numbered.among target, ?_, m.searchRecorded_of_draw drawn⟩
    rw [run_result]
    exact m.search_of_draw drawn
  · intro σ _ keep path before after saved
    have loads : ((load path : StateM σ (Except Error Image)).run after).1 = .ok m := by
      rw [load_of_read (keep (write_of_save saved)), ofContent_content]
    refine ⟨m, loads, numbered.toNat_lowerBound, fun requests target next => ?_⟩
    exact ⟨m.execution target, Environment.outcome_of_supplied m requests next,
      numbered.among target⟩

/-- The numbers below three, stored in both forms, and a target that no 32-bit index reaches. -/
theorem generated_searches_three :
    ∃ m : Image, sequential 3 = .ok m ∧
      ∀ path, path = "table.bin" ∨ path = "table.json" →
        ∃ (after : Directory) (loaded : Image),
          (m.save path : StateM Directory (Except Error Unit)).run .empty = (.ok (), after) ∧
          ((load path : StateM Directory (Except Error Image)).run after).1 = .ok loaded ∧
          ∃ e, (((Environment.ofImage loaded).after
              [.register [2, 3] [], .invoke "bsearch", .register [18446744073709551615] [7],
                .invoke "bsearch"]).invoke "bsearch").outcome = .ok e ∧
            e.target = 18446744073709551615 ∧ e.result = 3 ∧ e.found = false := by
  rcases generated_searches 3 with ⟨-, -, generates⟩
  rcases generates (by decide) with ⟨m, generated, -, -, -, stored⟩
  refine ⟨m, generated, fun path form => ?_⟩
  have saved : (m.save path : StateM Directory (Except Error Unit)).run .empty =
      (.ok (), Directory.empty.put [path] (.file (m.content path))) := by
    rcases form with bin | json
    · subst bin
      rfl
    · subst json
      rfl
  rcases stored Directory Directory.keeps path _ _ saved with ⟨loaded, loads, -, searches⟩
  rcases searches [.register [2, 3] [], .invoke "bsearch", .register [18446744073709551615] [7],
    .invoke "bsearch"] 18446744073709551615 rfl with ⟨e, succeeds, among⟩
  refine ⟨_, loaded, saved, loads, e, succeeds, among.target_eq,
    UInt32.toNat_inj.mp among.result_eq, ?_⟩
  exact Bool.eq_false_iff.mpr fun found => absurd (among.found_iff.mp found) (by decide)

end Image

end TableSearch
