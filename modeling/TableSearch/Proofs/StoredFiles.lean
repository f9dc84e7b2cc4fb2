import TableSearch.ImageFile

/-!
# Files after writing

A path leads through directories only, and writing puts its content where no directory stands. So
after a write the same path leads to the same place, and reading it gives the content back: a
directory keeps what is written to it, which is all that images in files need to know of files.

The form of an image in a file depends on the last name of the path alone. `Path.isBinary_iff` says
for which names it is the binary one.
-/

namespace TableSearch

namespace Directory

variable {d : Directory} {place : Place} {entry : Entry} {content : List UInt8}

theorem entry?_put_self (below : place.isAbove = false) :
    entry? (d.put place entry) place = some entry := by
  rw [ entry?, if_neg (by simp [below]), put]
  exact if_pos rfl

theorem entry?_put_of_ne {other : Place} (ne : other ≠ place) :
    entry? (d.put place entry) other = d.entry? other := by
  rw [ entry?, entry?, put]
  simp only [if_neg ne]

theorem isAbove_of_free (free : d.entry? place ≠ some .directory) : place.isAbove = false := by
  cases above : place.isAbove with
  | false => rfl
  | true => exact absurd (if_pos above) free

/-- A place that is no directory is none that a path leads through, before a file is put there and
after. -/
theorem follow_put_eq_ok_iff (free : d.entry? place ≠ some .directory) {start found : Place}
    {names : List String} :
    (d.put place (.file content)).follow start names = .ok found ↔
      d.follow start names = .ok found := by
  induction names generalizing start with
  | nil => rfl
  | cons name names ih =>
    rw [follow, follow]
    by_cases same : start = place
    · subst same
      rw [entry?_put_self (isAbove_of_free free)]
      constructor
      · intro reached
        cases reached
      · intro reached
        split at reached
        · cases reached
        · cases reached
        · next through => exact absurd through free
    · rw [entry?_put_of_ne same]
      split
      · rfl
      · rfl
      · split
        · exact ih
        · split
          · exact ih
          · exact ih

theorem locate_put_eq_ok_iff (free : d.entry? place ≠ some .directory) {path : String}
    {found : Place} :
    (d.put place (.file content)).locate path = .ok found ↔ d.locate path = .ok found := by
  unfold locate
  split
  · rfl
  · exact follow_put_eq_ok_iff free

/-- Content goes to the place of the path, where no directory stands. -/
theorem locate_of_target {path : String} (target : d.target path = .ok place) :
    d.locate path = .ok place ∧ d.entry? place ≠ some .directory := by
  unfold Directory.target at target
  split at target
  · -- a path that ends in a slash is no target at all
    repeat' split at target
    all_goals cases target
  · split at target
    · cases target
    · next located =>
      split at target
      · cases target
      · next free =>
        cases target
        exact ⟨located, free⟩

/-- What was written to a path is read from it. -/
theorem contentAt_of_write {after : Directory} {path : String} {content : List UInt8}
    (written : d.write path content = .ok after) : after.contentAt path = .ok content := by
  unfold Directory.write at written
  split at written
  · cases written
  · next place target =>
    cases written
    obtain ⟨located, free⟩ := locate_of_target target
    rw [contentAt, (locate_put_eq_ok_iff free).mpr located]
    simp only [entry?_put_self (isAbove_of_free free)]

end Directory

/-- Files keep what is written to them: a path that content was written to gives it back. -/
def Files.Keep (σ : Type) [Files (StateM σ)] : Prop :=
  ∀ {before after : σ} {path : String} {content : List UInt8},
    (Files.write path content : StateM σ (Except FileError Unit)).run before = (.ok (), after) →
      ((Files.read path : StateM σ (Except FileError (List UInt8))).run after).1 = .ok content

theorem Directory.keeps : Files.Keep Directory := by
  intro before after path content written
  simp only [StateT.run, Files.write] at written
  split at written
  · cases written
  · next outcome =>
    cases written
    exact contentAt_of_write outcome

namespace Path

/-- The extension of a name is what stands behind its last dot, if something stands before it. -/
theorem extensionOfName?_eq_some_iff {name extension : String} :
    extensionOfName? name = some extension ↔
      ∃ stem, stem ≠ "" ∧ '.' ∉ extension.toList ∧ name = stem ++ "." ++ extension := by
  have whole := List.takeWhile_append_dropWhile (p := (· ≠ '.')) (l := name.toList.reverse)
  constructor
  · intro found
    simp only [extensionOfName?] at found
    split at found
    · cases found
    · cases found
    · next none alone =>
      have same := String.ofList_inj.mp ((Option.some.inj found).trans String.ofList_toList.symm)
      cases dropped : name.toList.reverse.dropWhile (· ≠ '.') with
      | nil => exact absurd dropped none
      | cons dot before =>
        have stops := List.head_dropWhile_not (· ≠ '.') (l := name.toList.reverse) none
        simp only [dropped, List.head_cons, decide_eq_false_iff_not, Decidable.not_not] at stops
        subst stops
        rw [dropped] at whole
        refine ⟨String.ofList before.reverse, ?_, ?_, ?_⟩
        · intro empty
          rw [← String.ofList_nil, String.ofList_inj, List.reverse_eq_nil_iff] at empty
          exact alone '.' (by rw [dropped, empty])
        · intro mem
          rw [← same, List.mem_reverse] at mem
          simpa using List.all_eq_true.mp List.all_takeWhile _ mem
        · apply String.toList_inj.mp
          rw [← List.reverse_reverse name.toList, ← whole, List.reverse_append, same]
          simp
  · rintro ⟨stem, something, dotless, rfl⟩
    have backwards : (stem ++ "." ++ extension).toList.reverse =
        extension.toList.reverse ++ '.' :: stem.toList.reverse := by simp
    have all : ∀ c ∈ extension.toList.reverse, decide (c ≠ '.') = true := by
      intro c mem
      simp only [decide_eq_true_eq]
      rintro rfl
      exact dotless (List.mem_reverse.mp mem)
    have taken : (extension.toList.reverse ++ '.' :: stem.toList.reverse).takeWhile (· ≠ '.') =
        extension.toList.reverse := by
      rw [List.takeWhile_append_of_pos all, List.takeWhile_cons_of_neg (by simp), List.append_nil]
    have dropped : (extension.toList.reverse ++ '.' :: stem.toList.reverse).dropWhile (· ≠ '.') =
        '.' :: stem.toList.reverse := by
      rw [List.dropWhile_append_of_pos all, List.dropWhile_cons_of_neg (by simp)]
    simp only [extensionOfName?, backwards, dropped, taken]
    split
    · next none => cases none
    · next alone =>
      have empty := (List.cons.inj alone).2
      rw [List.reverse_eq_nil_iff, ← String.toList_empty, String.toList_inj] at empty
      exact absurd empty something
    · rw [List.reverse_reverse, String.ofList_toList]

/-- The binary form is for last names that end in `.bin` with something before it. -/
theorem isBinary_iff {path : String} :
    isBinary path = true ↔ ∃ stem, stem ≠ "" ∧ fileName? path = some (stem ++ ".bin") := by
  rw [isBinary, decide_eq_true_eq, extension?]
  constructor
  · intro found
    obtain ⟨name, last, extended⟩ := Option.bind_eq_some_iff.mp found
    obtain ⟨stem, something, -, rfl⟩ := extensionOfName?_eq_some_iff.mp extended
    exact ⟨stem, something, by rw [last, String.append_assoc]; rfl⟩
  · rintro ⟨stem, something, last⟩
    have extended : extensionOfName? (stem ++ "." ++ "bin") = some "bin" :=
      extensionOfName?_eq_some_iff.mpr ⟨stem, something, by decide, rfl⟩
    rw [String.append_assoc] at extended
    exact Option.bind_eq_some_iff.mpr ⟨_, last, extended⟩

end Path

end TableSearch
