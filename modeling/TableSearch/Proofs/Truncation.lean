import TableSearch.ImageFile
import TableSearch.Proofs.BinaryForm
import TableSearch.Proofs.JsonCut

/-!
# Image files that are cut short

A file that was written only in part is never taken for a smaller image, nor for a text with another
fault: wherever it ends, the decoder of its form reports that it ends too early.
-/

namespace TableSearch

theorem Binary.decode_cut {m : Image} {p : List UInt8} (front : p <+: Binary.ofImage m)
    (strict : p ≠ Binary.ofImage m) : Binary.decode Binary.image p = .error .endOfInput := by
  have fits : m.table.values.toList.length < UInt64.size :=
    Nat.lt_trans m.table.size_lt (by decide)
  by_cases short : p.length < 16
  · exact Binary.decode_of_short short
  · -- the constants and the length are whole, so the cut falls into the values
    have whole : Binary.ofImage m = Binary.ofConfig m.config ++
        (littleEndian 8 m.table.values.toList.length ++
          m.table.values.toList.flatMap Binary.ofValue) := rfl
    have length : (Binary.ofConfig m.config ++
        littleEndian 8 m.table.values.toList.length).length = 16 := by
      rw [List.length_append, Binary.length_ofConfig, length_littleEndian]
    rw [whole, ← List.append_assoc] at front strict
    obtain ⟨tail, rfl⟩ := List.prefix_of_prefix_length_le (List.prefix_append _ _) front (by omega)
    have values := (List.prefix_append_right_inj _).mp front
    have less : tail.length < (m.table.values.toList.flatMap Binary.ofValue).length := by
      apply Nat.lt_of_le_of_ne values.length_le
      intro same
      exact strict (by rw [values.eq_of_length same])
    have eight : (m.table.values.toList.flatMap Binary.ofValue).length =
        8 * m.table.values.toList.length := by
      induction m.table.values.toList with
      | nil => rfl
      | cons value others ih =>
        rw [List.flatMap_cons, List.length_append, ih, Binary.ofValue, length_littleEndian,
          List.length_cons]
        omega
    rw [eight] at less
    rw [List.append_assoc]
    exact Binary.decode_of_short_values m.config fits less

/-- The error says that the content of a file ends too early, in the words of its form. -/
inductive Error.EndsEarly : (isBinary : Bool) → Error → Prop
  | binary {f : Binary.Failure} : f.message = "io error: unexpected end of file" →
    EndsEarly true (.binary f)
  | json {f : Json.Failure} : f.cause.category.name = "eof" → EndsEarly false (.json f)

/-- Whatever is missing at the end of the content of an image file, down to all of it, the file is
reported as ending too early, and the same holds of compact JSON text. -/
theorem Image.ofContent_cut (m : Image) :
    (∀ (path : String) (p : List UInt8), p <+: m.content path → p ≠ m.content path →
      ∃ e, ofContent path p = .error e ∧ e.EndsEarly (Path.isBinary path)) ∧
      ∀ p : List UInt8, p <+: Json.Written.ofImage m .compact →
        p ≠ Json.Written.ofImage m .compact →
          ∃ f, Json.decode Json.image p = .error f ∧ f.cause.category.name = "eof" := by
  have json (layout : Json.Layout) {p : List UInt8} (front : p <+: Json.Written.ofImage m layout)
      (strict : p ≠ Json.Written.ofImage m layout) :
      ∃ f, Json.decode Json.image p = .error f ∧ f.cause.category.name = "eof" := by
    obtain ⟨f, ended, category⟩ := Json.decode_cut m layout ⟨front, strict⟩
    exact ⟨f, ended, by rw [category]; rfl⟩
  refine ⟨?_, fun p front strict => json .compact front strict⟩
  intro path p front strict
  unfold ofContent content at *
  cases form : Path.isBinary path with
  | true =>
    simp only [form, if_true] at front strict ⊢
    rw [Binary.decode_cut front strict]
    exact ⟨_, rfl, .binary rfl⟩
  | false =>
    simp only [form, Bool.false_eq_true, if_false] at front strict ⊢
    obtain ⟨f, ended, category⟩ := json (.indented 0) front strict
    rw [ended]
    exact ⟨_, rfl, .json category⟩

/-- A cut within the last value leaves the value `1`, which would still be in order, and a cut
within the length leaves a smaller length. -/
theorem Image.ofContent_cut_within_number :
    ∃ m : Image, m.table.values = #[1, 12] ∧
      Json.Written.ofImage m .compact =
        asciiBytes "\x7b\"config\":\x7b\"right\":1,\"failed\":2\x7d,\"table\":[1,1" ++
          asciiBytes "2]\x7d" ∧
      (∃ f, Json.decode Json.image
        (asciiBytes "\x7b\"config\":\x7b\"right\":1,\"failed\":2\x7d,\"table\":[1,1") = .error f ∧
        f.cause.category.name = "eof") ∧
      [1, 0, 0, 0, 2, 0, 0, 0, 2] <+: m.content "image.bin" ∧
      ∃ e, ofContent "image.bin" [1, 0, 0, 0, 2, 0, 0, 0, 2] = .error e ∧
        e.EndsEarly (Path.isBinary "image.bin") := by
  let t : Table := ⟨#[1, 12], by decide, by decide, by decide⟩
  let m : Image := ⟨⟨1, 2⟩, t, by decide, by decide⟩
  obtain ⟨files, compact⟩ := ofContent_cut m
  have whole : Json.Written.ofImage m .compact =
      asciiBytes "\x7b\"config\":\x7b\"right\":1,\"failed\":2\x7d,\"table\":[1,1" ++
        asciiBytes "2]\x7d" := by decide +kernel
  have bytes : m.content "image.bin" =
      [1, 0, 0, 0, 2, 0, 0, 0, 2] ++ [0, 0, 0, 0, 0, 0, 0] ++ Binary.ofValue 1 ++
        Binary.ofValue 12 := (if_pos rfl).trans (by decide)
  have front : [1, 0, 0, 0, 2, 0, 0, 0, 2] <+: m.content "image.bin" := by
    rw [bytes, List.append_assoc, List.append_assoc]
    exact List.prefix_append _ _
  refine ⟨m, rfl, whole, compact _ ?_ ?_, front, files _ _ front ?_⟩
  · rw [whole]
    exact List.prefix_append _ _
  · rw [whole]
    intro same
    exact absurd (List.self_eq_append_right.mp same) (by decide)
  · rw [bytes]
    decide

end TableSearch
