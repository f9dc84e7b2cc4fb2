import TableSearch.Proofs.Generated
import TableSearch.Proofs.GeneratedFiles

/-!
# What making an image changes

Making an image ends at the first step that fails, and `CommandLine.Course` lists the ways in which
it can go. Before the image is written nothing has changed, and a write that fails changes nothing
itself; so a failure leaves either the directory as it was or the whole image without its header.
However it ends, only the places that the two paths name are changed, and nothing is printed.
-/

namespace TableSearch

theorem Image.sequential_zero : Image.sequential 0 = .error .emptyTable := rfl

/-- Zero is the only size of which no image can be made. -/
theorem Image.sequential_eq_error {size : UInt32} {rejection : Rejection}
    (refused : Image.sequential size = .error rejection) : size = 0 := by
  rcases Nat.eq_zero_or_pos size.toNat with zero | positive
  · exact UInt32.toNat_inj.mp zero
  · rcases Image.exists_sequential positive with ⟨m, -, makes, -⟩
    cases refused.symm.trans makes

namespace Directory

variable {d between after : Directory} {path : String} {paths : List String}
  {content : List UInt8}

/-- Every path leads to the same place before and after, and the entries at the places that `paths`
lead to are the only ones that may differ. -/
structure ChangedAt (d after : Directory) (paths : List String) : Prop where
  locate_iff (path : String) (place : Place) :
    after.locate path = .ok place ↔ d.locate path = .ok place
  entry_eq (place : Place) :
    (∀ path ∈ paths, d.locate path ≠ .ok place) → after.entry? place = d.entry? place

/-- Both paths lead to one place. -/
def SamePlace (d : Directory) (path other : String) : Prop :=
  ∃ place, d.locate path = .ok place ∧ d.locate other = .ok place

theorem ChangedAt.refl (d : Directory) (paths : List String) : d.ChangedAt d paths :=
  ⟨fun _ _ => Iff.rfl, fun _ _ => rfl⟩

theorem ChangedAt.trans (one : d.ChangedAt between paths) (two : between.ChangedAt after paths) :
    d.ChangedAt after paths where
  locate_iff path place := (two.locate_iff path place).trans (one.locate_iff path place)
  entry_eq place apart := by
    -- the later change goes by where its paths lead in between, which is where they led before
    have still : ∀ path ∈ paths, between.locate path ≠ .ok place := by
      intro path named leads
      exact apart path named ((one.locate_iff path place).mp leads)
    rw [two.entry_eq place still, one.entry_eq place apart]

/-- A write changes the place of its own path and nothing else. -/
theorem changedAt_of_write (written : d.write path content = .ok after) (named : path ∈ paths) :
    d.ChangedAt after paths := by
  obtain ⟨target, leads, same⟩ := write_eq_ok_iff.mp written
  obtain ⟨located, free⟩ := locate_of_target leads
  subst same
  constructor
  · intro other place
    exact locate_put_eq_ok_iff free
  · intro place apart
    have different : place ≠ target := by
      intro meets
      rw [← meets] at located
      exact apart path named located
    exact entry?_put_of_ne different

theorem contentAt_eq_ok_iff :
    d.contentAt path = .ok content ↔
      ∃ place, d.locate path = .ok place ∧ d.entry? place = some (.file content) := by
  unfold contentAt
  cases d.locate path with
  | error e => simp
  | ok place =>
    cases found : d.entry? place with
    | none => simp [found]
    | some entry => cases entry <;> simp [found]

/-- A file is read as before unless its path leads to a place that was changed. -/
theorem ChangedAt.contentAt_iff (changed : d.ChangedAt after paths)
    (apart : ∀ other ∈ paths, ¬ d.SamePlace path other) :
    after.contentAt path = .ok content ↔ d.contentAt path = .ok content := by
  rw [contentAt_eq_ok_iff, contentAt_eq_ok_iff]
  refine exists_congr fun place => ?_
  rw [changed.locate_iff]
  refine and_congr_right fun leads => ?_
  rw [changed.entry_eq place fun other named same => apart other named ⟨place, leads, same⟩]

end Directory

namespace CommandLine

/-- An image of the size can be made, but not written. -/
def ImageFails (size : UInt32) (output : String) (d : Directory) : Prop :=
  ∃ m e, Image.sequential size = .ok m ∧ d.write output (m.content output) = .error e

/-- A header is asked for and cannot be written once the image has been. -/
def HeaderFails (size : UInt32) (output : String) (header? : Option String) (d : Directory) :
    Prop :=
  ∃ m written path e, Image.sequential size = .ok m ∧
    d.write output (m.content output) = .ok written ∧ header? = some path ∧
    written.write path (Utf8.encode (Header.render m)) = .error e

/-- The ways in which making an image can go, each with its outcome and the directory that it
leaves. -/
inductive Course (size : UInt32) (output : String) (header? : Option String) (d : Directory) :
    Outcome → Directory → Prop
  | refused {rejection : Rejection} :
    Image.sequential size = .error rejection →
      Course size output header? d (.failed [] rejection.message []) d
  | imageFailed {m : Image} {e : FileError} :
    Image.sequential size = .ok m → d.write output (m.content output) = .error e →
      Course size output header? d
        (.failed [] s!"writing image to {output}" (Error.file e).chain) d
  | headerless {m : Image} {written : Directory} :
    Image.sequential size = .ok m → d.write output (m.content output) = .ok written →
      header? = none →
        Course size output header? d { log := [wroteImage output m] } written
  | headerFailed {m : Image} {written : Directory} {path : String} {e : FileError} :
    Image.sequential size = .ok m → d.write output (m.content output) = .ok written →
      header? = some path → written.write path (Utf8.encode (Header.render m)) = .error e →
        Course size output header? d
          (.failed [wroteImage output m] s!"writing header to {path}" [e.message]) written
  | completed {m : Image} {written after : Directory} {path : String} :
    Image.sequential size = .ok m → d.write output (m.content output) = .ok written →
      header? = some path → written.write path (Utf8.encode (Header.render m)) = .ok after →
        Course size output header? d { log := [wroteImage output m, wroteHeader path] } after

variable {size : UInt32} {output : String} {header? : Option String} {d : Directory}
  {o : Outcome} {after : Directory}

theorem course_generated (size : UInt32) (output : String) (header? : Option String)
    (d : Directory) :
    Course size output header? d (generated size output header? d).1
      (generated size output header? d).2 := by
  rw [generated_eq]
  cases makes : Image.sequential size with
  | error rejection => exact .refused makes
  | ok m =>
    cases one : d.write output (m.content output) with
    | error e =>
      simp only [one]
      exact .imageFailed makes one
    | ok written =>
      simp only [one]
      cases header? with
      | none => exact .headerless makes one rfl
      | some path =>
        cases two : written.write path (Utf8.encode (Header.render m)) with
        | error e =>
          simp only [two]
          exact .headerFailed makes one rfl two
        | ok final =>
          simp only [two]
          exact .completed makes one rfl two

namespace Course

theorem output_eq (course : Course size output header? d o after) : o.output = [] := by
  cases course <;> rfl

theorem changedAt (course : Course size output header? d o after) :
    d.ChangedAt after (output :: header?.toList) := by
  have image : output ∈ output :: header?.toList := List.mem_cons_self ..
  cases course with
  | refused => exact .refl d _
  | imageFailed => exact .refl d _
  | headerless _ one => exact Directory.changedAt_of_write one image
  | headerFailed _ one => exact Directory.changedAt_of_write one image
  | completed _ one asked two =>
    have header : _ ∈ output :: header?.toList :=
      List.mem_cons_of_mem _ (Option.mem_toList.mpr asked)
    exact (Directory.changedAt_of_write one image).trans (Directory.changedAt_of_write two header)

/-- A command that fails has met one of three obstacles. -/
theorem fails_of_exitCode (course : Course size output header? d o after)
    (failed : o.exitCode = 1) :
    size = 0 ∨ ImageFails size output d ∨ HeaderFails size output header? d := by
  cases course with
  | refused refuses => exact .inl (Image.sequential_eq_error refuses)
  | imageFailed makes fails => exact .inr (.inl ⟨_, _, makes, fails⟩)
  | headerless => cases failed
  | headerFailed makes one asked fails => exact .inr (.inr ⟨_, _, _, _, makes, one, asked, fails⟩)
  | completed => cases failed

end Course

theorem generated_zero (output : String) (header? : Option String) (d : Directory) :
    (generated 0 output header? d).1.exitCode = 1 ∧ (generated 0 output header? d).2 = d := by
  rw [generated_eq, Image.sequential_zero]
  exact ⟨rfl, rfl⟩

theorem generated_of_imageFails (fails : ImageFails size output d) :
    (generated size output header? d).1.exitCode = 1 ∧
      (generated size output header? d).2 = d := by
  obtain ⟨m, e, makes, stops⟩ := fails
  rw [generated_eq, makes]
  simp only [stops]
  exact ⟨rfl, trivial⟩

/-- Without its header the image is all that has been written. -/
theorem generated_of_headerFails (fails : HeaderFails size output header? d) :
    (generated size output header? d).1.exitCode = 1 ∧
      ∃ m, Image.sequential size = .ok m ∧
        d.write output (m.content output) = .ok (generated size output header? d).2 ∧
        (generated size output header? d).2.imageAt output = .ok m := by
  obtain ⟨m, written, path, e, makes, one, asked, stops⟩ := fails
  have ends : generated size output header? d =
      (.failed [wroteImage output m] s!"writing header to {path}" [e.message], written) := by
    rw [generated_eq, makes, asked]
    simp only [one, stops]
  rw [ends]
  refine ⟨rfl, m, makes, one, ?_⟩
  rw [Directory.imageAt_of_contentAt (Directory.contentAt_of_write one), Image.ofContent_content]

/-- What a command to make an image changes. It fails for the size zero, and where the image or its
header cannot be written, and for no other cause. In the first two cases the directory is as it was;
in the third the image has been written, and it is loaded from its path. However the command ends,
it prints nothing and changes only what stands at the places of its own paths. -/
theorem generated_contained (size : UInt32) (output : String) (header? : Option String)
    (d : Directory) :
    ((generated size output header? d).1.exitCode = 1 ↔
        size = 0 ∨ ImageFails size output d ∨ HeaderFails size output header? d) ∧
      (size = 0 → (generated size output header? d).2 = d) ∧
      (ImageFails size output d → (generated size output header? d).2 = d) ∧
      (HeaderFails size output header? d →
        ∃ m, Image.sequential size = .ok m ∧
          d.write output (m.content output) = .ok (generated size output header? d).2 ∧
          (generated size output header? d).2.imageAt output = .ok m) ∧
      (generated size output header? d).1.output = [] ∧
      d.ChangedAt (generated size output header? d).2 (output :: header?.toList) ∧
      ∀ path, (∀ other ∈ output :: header?.toList, ¬ d.SamePlace path other) →
        ∀ content, (generated size output header? d).2.contentAt path = .ok content ↔
          d.contentAt path = .ok content := by
  have course := course_generated size output header? d
  refine ⟨⟨course.fails_of_exitCode, ?_⟩, ?_, fun fails => (generated_of_imageFails fails).2,
    fun fails => (generated_of_headerFails fails).2, course.output_eq, course.changedAt, ?_⟩
  · intro obstacle
    rcases obstacle with zero | image | header
    · rw [zero]
      exact (generated_zero output header? d).1
    · exact (generated_of_imageFails image).1
    · exact (generated_of_headerFails header).1
  · intro zero
    rw [zero]
    exact (generated_zero output header? d).2
  · intro path apart content
    exact course.changedAt.contentAt_iff apart

/-- The size zero, an image in a directory that is missing, and a header below the image itself,
next to a file of another name. -/
theorem generated_contained_below_image :
    ∃ (d : Directory) (m : Image), d.contentAt "notes" = .ok [104, 105] ∧
      Image.sequential 3 = .ok m ∧
      (generated 0 "image.json" (some "table.h") d).2 = d ∧
      (generated 3 "tables/image.bin" (some "table.h") d).1.exitCode = 1 ∧
      (generated 3 "tables/image.bin" (some "table.h") d).2 = d ∧
      (generated 3 "image.bin" (some "image.bin/table.h") d).1.exitCode = 1 ∧
      (generated 3 "image.bin" (some "image.bin/table.h") d).2.imageAt "image.bin" = .ok m ∧
      (generated 3 "image.bin" (some "image.bin/table.h") d).2.contentAt "notes" =
        .ok [104, 105] := by
  let d := Directory.empty.put ["notes"] (.file [104, 105])
  have positive : 0 < (3 : UInt32).toNat := by decide
  obtain ⟨m, -, makes, -⟩ := Image.exists_sequential positive
  have notes : d.contentAt "notes" = .ok [104, 105] := rfl
  have image : ImageFails 3 "tables/image.bin" d := ⟨m, .notFound, makes, rfl⟩
  have header : HeaderFails 3 "image.bin" (some "image.bin/table.h") d :=
    ⟨m, d.put ["image.bin"] (.file (m.content "image.bin")), "image.bin/table.h", .notADirectory,
      makes, rfl, rfl, rfl⟩
  have apart : ∀ other ∈ ["image.bin", "image.bin/table.h"], ¬ d.SamePlace "notes" other := by
    refine List.forall_mem_cons.mpr ⟨?_, List.forall_mem_singleton.mpr ?_⟩
    · intro same
      obtain ⟨place, leads, meets⟩ := same
      have here : d.locate "notes" = .ok ["notes"] := rfl
      have elsewhere : d.locate "image.bin" = .ok ["image.bin"] := rfl
      have places := (here.symm.trans leads).trans (meets.symm.trans elsewhere)
      exact absurd (Except.ok.inj places) (by decide)
    · intro same
      obtain ⟨place, -, meets⟩ := same
      cases meets
  obtain ⟨-, zero, -⟩ := generated_contained 0 "image.json" (some "table.h") d
  obtain ⟨codes, -, unwritten, -⟩ :=
    generated_contained 3 "tables/image.bin" (some "table.h") d
  obtain ⟨code, -, -, whole, -, -, kept⟩ :=
    generated_contained 3 "image.bin" (some "image.bin/table.h") d
  obtain ⟨n, same, -, loads⟩ := whole header
  cases makes.symm.trans same
  exact ⟨d, m, notes, makes, zero rfl, codes.mpr (.inr (.inl image)), unwritten image,
    code.mpr (.inr (.inr header)), loads, (kept "notes" apart _).mpr notes⟩

end CommandLine

end TableSearch
