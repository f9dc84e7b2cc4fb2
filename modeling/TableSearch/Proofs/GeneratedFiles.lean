import TableSearch.CommandLine.Perform
import TableSearch.Proofs.FormatsApart
import TableSearch.Proofs.HeaderReading
import TableSearch.Proofs.Persistence

/-!
# The files of a generated image

Making an image writes it to one path and perhaps its header to another. Both paths lead to the same
places before and after the first write, so the second write leaves the image alone unless its path
leads to the place of the image. Nothing keeps it from doing so: the paths may be equal, or differ
in names that stand for nothing. Then the header replaces the image, and since no header is an image
in either form, the image cannot be loaded although the command succeeds.
-/

namespace TableSearch

namespace Directory

variable {d : Directory} {place : Place} {content : List UInt8}

theorem write_eq_ok_iff {path : String} {after : Directory} :
    d.write path content = .ok after ↔
      ∃ place, d.target path = .ok place ∧ after = d.put place (.file content) := by
  unfold Directory.write
  cases d.target path with
  | error e => simp
  | ok place => simp [eq_comm]

theorem entry?_ne_directory_of_put (free : d.entry? place ≠ some .directory) {found : Place}
    (still : entry? (d.put place (.file content)) found ≠ some .directory) :
    d.entry? found ≠ some .directory := by
  by_cases same : found = place
  · rw [same]
    exact free
  · rwa [entry?_put_of_ne same] at still

theorem target_of_put (free : d.entry? place ≠ some .directory) {path : String} {found : Place}
    (target : (d.put place (.file content)).target path = .ok found) :
    d.target path = .ok found := by
  obtain ⟨located, still⟩ := locate_of_target target
  have before : d.locate path = .ok found := (locate_put_eq_ok_iff free).mp located
  unfold Directory.target at target ⊢
  split at target
  · repeat' split at target
    all_goals cases target
  · next open_ended =>
    rw [if_neg open_ended, before]
    exact if_neg (entry?_ne_directory_of_put free still)

/-- After two writes the first path gives what was written to it first, unless the second path led
to the same place. -/
theorem contentAt_of_writes {first second : String} {other : List UInt8} {between after : Directory}
    (one : d.write first content = .ok between) (two : between.write second other = .ok after) :
    (d.target second ≠ d.target first → after.contentAt first = .ok content) ∧
      (d.target second = d.target first → after.contentAt first = .ok other) := by
  obtain ⟨place, target, rfl⟩ := write_eq_ok_iff.mp one
  obtain ⟨found, later, rfl⟩ := write_eq_ok_iff.mp two
  obtain ⟨located, free⟩ := locate_of_target target
  obtain ⟨-, stillFree⟩ := locate_of_target later
  have kept : (d.put place (.file content)).locate first = .ok place :=
    (locate_put_eq_ok_iff free).mpr located
  have leads : ((d.put place (.file content)).put found (.file other)).locate first = .ok place :=
    (locate_put_eq_ok_iff stillFree).mpr kept
  have below := isAbove_of_free free
  rw [target_of_put free later, target, contentAt, leads]
  constructor
  · intro apart
    have different : place ≠ found := fun same => apart (by rw [same])
    simp only [entry?_put_of_ne different, entry?_put_self below]
  · intro same
    cases same
    simp only [entry?_put_self below]

/-! ## Actions on files -/

/-- The image that is loaded from a path. -/
def imageAt (d : Directory) (path : String) : Except Error Image :=
  ((Image.load path : StateM Directory (Except Error Image)).run d).1

theorem imageAt_of_contentAt {d : Directory} {path : String} {content : List UInt8}
    (found : d.contentAt path = .ok content) : d.imageAt path = Image.ofContent path content :=
  Image.load_of_read found

/-- What is done after a write goes on in the directory that the write leaves. -/
theorem run_write_bind {α : Type} (path : String) (content : List UInt8)
    (next : Except FileError Unit → StateM Directory α) (d : Directory) :
    ((Files.write path content : StateM Directory (Except FileError Unit)) >>= next).run d =
      match d.write path content with
      | .error e => (next (.error e)).run d
      | .ok after => (next (.ok ())).run after := by
  simp only [StateT.run, bind, StateT.bind, Files.write]
  cases d.write path content <;> rfl

theorem run_save_bind {α : Type} (m : Image) (path : String)
    (next : Except Error Unit → StateM Directory α) (d : Directory) :
    ((m.save path : StateM Directory (Except Error Unit)) >>= next).run d =
      match d.write path (m.content path) with
      | .error e => (next (.error (.file e))).run d
      | .ok after => (next (.ok ())).run after := by
  rw [Image.save, bind_assoc, run_write_bind]
  cases d.write path (m.content path) <;> rfl

end Directory

/-! ## Headers are no images -/

theorem Json.decode_of_other {b : UInt8} (solid : isSpace b = false) (notList : b ≠ ascii '[')
    (notObject : b ≠ ascii '\x7b') (rest : List UInt8) :
    ∃ failure, Json.decode Json.image (b :: rest) = .error failure := by
  have read : image.read (b :: rest) =
      .error (refuse s!"struct {imageRecord.name}" (b :: rest)) := by
    simp only [image, Reader.check, Record.reader, Record.readRecord, skipSpace_cons solid,
      if_neg notList, if_neg notObject]
  rw [decode, read]
  exact ⟨_, rfl⟩

namespace Header

/-- The characters of a header are ASCII, and none of them is zero. -/
theorem ascii_of_mem_chars {m : Image} {c : Char} (mem : c ∈ chars m) :
    0 < c.toNat ∧ c.toNat < 128 := by
  have known : signs.all (fun c => 0 < c.toNat ∧ c.toNat < 128) = true := by decide +kernel
  rw [chars_eq_lines] at mem
  obtain ⟨line, isLine, inside⟩ := List.mem_flatMap.mp mem
  rcases List.mem_append.mp inside with within | ends
  · rcases isDigit_or_mem_signs isLine c within with digit | sign
    · obtain ⟨low, high⟩ := Char.isDigit_iff_toNat.mp digit
      exact ⟨Nat.lt_of_lt_of_le (by decide) low, Nat.lt_of_le_of_lt high (by decide)⟩
    · exact of_decide_eq_true (List.all_eq_true.mp known c sign)
  · rw [List.mem_singleton.mp ends]
    decide

/-- No header is an image, in whichever form it is read. -/
theorem error_of_content (m : Image) (path : String) :
    ∃ e, Image.ofContent path (Utf8.encode (render m)) = .error e := by
  have bytes : Utf8.encode (render m) = (chars m).map ascii := by
    rw [render, Utf8.encode_ofList, Utf8.codes_ascii fun c mem => (ascii_of_mem_chars mem).2]
  cases outcome : Image.ofContent path (Utf8.encode (render m)) with
  | error e => exact ⟨e, rfl⟩
  | ok n =>
    rcases Image.ofContent_eq_ok_iff.mp outcome with ⟨-, binary⟩ | ⟨-, json⟩
    · -- the binary form has zero bytes, since its length is written in eight of them
      have zero := Binary.zero_mem_of_decode binary
      rw [bytes] at zero
      obtain ⟨c, mem, same⟩ := List.mem_map.mp zero
      obtain ⟨positive, small⟩ := ascii_of_mem_chars mem
      rw [← Json.toNat_ascii small, same] at positive
      exact absurd positive (by decide)
    · obtain ⟨others, starts⟩ : ∃ others, chars m = '#' :: others := ⟨_, rfl⟩
      rw [bytes, starts] at json
      obtain ⟨failure, refused⟩ := Json.decode_of_other (b := ascii '#') (by decide) (by decide)
        (by decide) (others.map ascii)
      cases refused.symm.trans json

end Header

namespace CommandLine

/-- What making an image comes to, and the directory that it leaves. -/
def generated (size : UInt32) (output : String) (header? : Option String) (d : Directory) :
    Outcome × Directory :=
  ((Command.generate size output header?).perform : StateM Directory Outcome).run d

variable {size : UInt32} {output : String} {header? : Option String} {d : Directory}

/-- The command ends at the first step that fails. -/
theorem generated_eq (size : UInt32) (output : String) (header? : Option String) (d : Directory) :
    generated size output header? d =
      match Image.sequential size with
      | .error rejection => (.failed [] rejection.message [], d)
      | .ok m =>
        match d.write output (m.content output) with
        | .error e => (.failed [] s!"writing image to {output}" (Error.file e).chain, d)
        | .ok written =>
          match header? with
          | none => ({ log := [wroteImage output m] }, written)
          | some path =>
            match written.write path (Utf8.encode (Header.render m)) with
            | .error e =>
              (.failed [wroteImage output m] s!"writing header to {path}" [e.message], written)
            | .ok after => ({ log := [wroteImage output m, wroteHeader path] }, after) := by
  change (performGenerate size output header? : StateM Directory Outcome).run d = _
  unfold performGenerate
  cases Image.sequential size with
  | error rejection => rfl
  | ok m =>
    simp only [Directory.run_save_bind]
    cases d.write output (m.content output) with
    | error e => rfl
    | ok written =>
      cases header? with
      | none => rfl
      | some path =>
        simp only [Directory.run_write_bind]
        cases written.write path (Utf8.encode (Header.render m)) <;> rfl

/-- A command that succeeds has written the image and then, if one is asked for, its header. -/
theorem writes_of_generated (succeeded : (generated size output header? d).1.exitCode = 0) :
    ∃ m written, Image.sequential size = .ok m ∧ d.write output (m.content output) = .ok written ∧
      (header? = none → (generated size output header? d).2 = written) ∧
      ∀ path, header? = some path →
        written.write path (Utf8.encode (Header.render m)) =
          .ok (generated size output header? d).2 := by
  rw [generated_eq] at succeeded ⊢
  cases makes : Image.sequential size with
  | error rejection =>
    simp only [makes] at succeeded
    cases succeeded
  | ok m =>
    simp only [makes] at succeeded ⊢
    cases one : d.write output (m.content output) with
    | error e =>
      simp only [one] at succeeded
      cases succeeded
    | ok written =>
      simp only [one] at succeeded ⊢
      refine ⟨m, written, rfl, one, ?_, ?_⟩
      · rintro rfl
        rfl
      · rintro path rfl
        cases two : written.write path (Utf8.encode (Header.render m)) with
        | error e =>
          simp only [two] at succeeded
          cases succeeded
        | ok after => simp only [two]

/-- A command that succeeds leaves the header where one is asked for, and the image unless the path
of the header led to the same place: then the header stands there, and nothing is loaded. -/
theorem generated_leaves (succeeded : (generated size output header? d).1.exitCode = 0) :
    ∃ m, Image.sequential size = .ok m ∧
      (∀ path, header? = some path →
        (generated size output header? d).2.contentAt path =
          .ok (Utf8.encode (Header.render m))) ∧
      ((∀ path, header? = some path → d.target path ≠ d.target output) →
        (generated size output header? d).2.imageAt output = .ok m) ∧
      ∀ path, header? = some path → d.target path = d.target output →
        ∃ e, (generated size output header? d).2.imageAt output = .error e := by
  obtain ⟨m, written, makes, one, alone, both⟩ := writes_of_generated succeeded
  refine ⟨m, makes, fun path asked => Directory.contentAt_of_write (both path asked), ?_, ?_⟩
  · intro apart
    have content : (generated size output header? d).2.contentAt output =
        .ok (m.content output) := by
      cases header? with
      | none =>
        rw [alone rfl]
        exact Directory.contentAt_of_write one
      | some path => exact (Directory.contentAt_of_writes one (both path rfl)).1 (apart path rfl)
    rw [Directory.imageAt_of_contentAt content, Image.ofContent_content]
  · intro path asked same
    have content := (Directory.contentAt_of_writes one (both path asked)).2 same
    rw [Directory.imageAt_of_contentAt content]
    exact Header.error_of_content m output

/-- The binary form and a header beside it. -/
theorem generated_leaves_beside :
    ∃ m, Image.sequential 3 = .ok m ∧
      (generated 3 "table.bin" (some "./table.h") .empty).2.contentAt "./table.h" =
        .ok (Utf8.encode (Header.render m)) ∧
      (generated 3 "table.bin" (some "./table.h") .empty).2.imageAt "table.bin" = .ok m := by
  have succeeded : (generated 3 "table.bin" (some "./table.h") .empty).1.exitCode = 0 := rfl
  have header : Directory.empty.target "./table.h" = .ok ["table.h"] := rfl
  have image : Directory.empty.target "table.bin" = .ok ["table.bin"] := rfl
  obtain ⟨m, makes, written, kept, -⟩ := generated_leaves succeeded
  refine ⟨m, makes, written "./table.h" rfl, kept fun path asked => ?_⟩
  rw [← Option.some.inj asked, header, image]
  exact fun same => absurd (Except.ok.inj same) (by decide)

/-- The command accepts the path of the image as that of the header, and succeeds without leaving
the image. -/
theorem generated_onto_itself :
    Command.ofArguments?
        ["gen", "--size", "3", "--output", "image.json", "--header", "image.json"] =
      some (.generate 3 "image.json" (some "image.json")) ∧
    (generated 3 "image.json" (some "image.json") .empty).1.exitCode = 0 ∧
    ∃ e, (generated 3 "image.json" (some "image.json") .empty).2.imageAt "image.json" =
      .error e := by
  have succeeded : (generated 3 "image.json" (some "image.json") .empty).1.exitCode = 0 := rfl
  obtain ⟨m, written, -, one, -, both⟩ := writes_of_generated succeeded
  have content := (Directory.contentAt_of_writes one (both "image.json" rfl)).2 rfl
  refine ⟨by decide +kernel, succeeded, ?_⟩
  rw [Directory.imageAt_of_contentAt content]
  exact Header.error_of_content m "image.json"

end CommandLine

end TableSearch
