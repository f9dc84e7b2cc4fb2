import TableSearch.Digest
import TableSearch.Proofs.BinaryForm
import TableSearch.Proofs.JsonForm
import TableSearch.Proofs.JsonLayout
import TableSearch.Proofs.StoredFiles

/-!
# Images survive being stored

An image that has been saved is loaded again, whichever form the name of its file selects, and both
layouts of JSON are read back as the image that was written.
-/

namespace TableSearch

theorem Json.decode_ofImage (m : Image) (layout : Json.Layout) :
    Json.decode Json.image (Json.Written.ofImage m layout) = .ok m := by
  have takes := Json.takes_parts .object .object m.config m.table.values.toList []
  rw [Image.assemble_parts] at takes
  exact Json.decode_of_accepted takes layout

namespace Image

theorem ofContent_content (m : Image) (path : String) :
    ofContent path (m.content path) = .ok m := by
  unfold ofContent content
  cases Path.isBinary path with
  | true =>
    have read := Binary.decode_ofImage m []
    rw [List.append_nil] at read
    simp only [if_true, read]
    rfl
  | false =>
    simp only [Bool.false_eq_true, if_false, Json.decode_ofImage]
    rfl

section Files

variable {σ : Type} [Files (StateM σ)]

/-- Saving succeeds if the file is written with the content for its path. -/
theorem write_of_save {m : Image} {path : String} {before after : σ}
    (saved : (m.save path : StateM σ (Except Error Unit)).run before = (.ok (), after)) :
    (Files.write path (m.content path) : StateM σ (Except FileError Unit)).run before =
      (.ok (), after) := by
  change (fun written : Except FileError Unit × σ => (written.1.mapError Error.file, written.2))
    ((Files.write path (m.content path) : StateM σ (Except FileError Unit)).run before) = _ at saved
  cases outcome :
    (Files.write path (m.content path) : StateM σ (Except FileError Unit)).run before with
  | mk written state =>
    rw [outcome] at saved
    obtain ⟨fine, rfl⟩ := Prod.mk.inj saved
    cases written with
    | error e => cases fine
    | ok done => rfl

/-- Loading a file comes to what its content says under its name. -/
theorem load_of_read {path : String} {state : σ} {bytes : List UInt8}
    (read : ((Files.read path : StateM σ (Except FileError (List UInt8))).run state).1 =
      .ok bytes) :
    ((load path : StateM σ (Except Error Image)).run state).1 = ofContent path bytes := by
  cases outcome : (Files.read path : StateM σ (Except FileError (List UInt8))).run state with
  | mk found state' =>
    rw [outcome] at read
    cases read
    unfold load
    simp only [StateT.run, bind, StateT.bind] at outcome ⊢
    rw [outcome]
    rfl

/-- Nothing is lost by storing an image: where files keep what is written to them, an image that
has been saved to a path is loaded from it. The form is the binary one for names that end in `.bin`
behind something else, and indented JSON for all others. The compact JSON text is read back as well,
and differs from the indented one only in white space between tokens. -/
theorem load_of_save (keep : Files.Keep σ) (m : Image) :
    (∀ (path : String) (before after : σ),
      (m.save path : StateM σ (Except Error Unit)).run before = (.ok (), after) →
        ((load path : StateM σ (Except Error Image)).run after).1 = .ok m) ∧
      (∀ path, (∃ stem, stem ≠ "" ∧ Path.fileName? path = some (stem ++ ".bin")) →
        m.content path = Binary.ofImage m) ∧
      (∀ path, (¬ ∃ stem, stem ≠ "" ∧ Path.fileName? path = some (stem ++ ".bin")) →
        m.content path = Json.Written.ofImage m (.indented 0)) ∧
      Json.decode Json.image (Json.Written.ofImage m .compact) = .ok m ∧
      Json.Written.ofImage m .compact = (Json.Token.ofImage m).flatMap Json.Token.bytes ∧
      Json.Spaced (Json.Token.ofImage m) (Json.Written.ofImage m (.indented 0)) := by
  refine ⟨?_, ?_, ?_, Json.decode_ofImage m .compact, (Json.Written.spells_ofImage m).compact,
    (Json.Written.spells_ofImage m).indented 0⟩
  · intro path before after saved
    have read := keep (write_of_save saved)
    rw [load_of_read read, ofContent_content]
  · intro path named
    exact if_pos (Path.isBinary_iff.mpr named)
  · intro path other
    exact if_neg fun binary => other (Path.isBinary_iff.mp binary)

end Files

/-- Numbers past those that a floating-point number holds exactly survive, under a name whose only
dot comes first. -/
theorem load_of_save_hidden :
    ∃ (m : Image) (after : Directory),
      m.table.values = #[0, 9007199254740993, 18446744073709551615] ∧
      (m.save ".bin" : StateM Directory (Except Error Unit)).run .empty = (.ok (), after) ∧
      ((load ".bin" : StateM Directory (Except Error Image)).run after).1 = .ok m ∧
      m.content ".bin" = Json.Written.ofImage m (.indented 0) := by
  let t : Table := ⟨#[0, 9007199254740993, 18446744073709551615], by decide, by decide, by decide⟩
  let m : Image := ⟨⟨3, 4294967295⟩, t, by decide, by decide⟩
  obtain ⟨loads, -, other, -⟩ := load_of_save Directory.keeps m
  have saved : (m.save ".bin" : StateM Directory (Except Error Unit)).run .empty =
      (.ok (), Directory.empty.put [".bin"] (.file (m.content ".bin"))) := rfl
  refine ⟨m, _, rfl, saved, loads _ _ _ saved, other _ ?_⟩
  rintro ⟨stem, something, named⟩
  have last : Path.fileName? ".bin" = some ".bin" := rfl
  have same := congrArg String.toList (Option.some.inj (last.symm.trans named))
  rw [String.toList_append, List.self_eq_append_left, ← String.toList_empty,
    String.toList_inj] at same
  exact something same

end Image

end TableSearch
