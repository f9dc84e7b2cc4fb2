import TableSearch.Error
import TableSearch.Proofs.BinaryForm
import TableSearch.Proofs.JsonForm

/-!
# Both decoders agree with the checks

Whatever constants and values are written, in the binary form or in any form of JSON, reading them
back comes to what `Image.assemble` makes of them: the same image, or an error with the text of the
first rule that is broken.
-/

namespace TableSearch

/-- The error is how a decoder reports a broken rule: by its text, to which JSON adds a place if it
knows one. -/
inductive Error.Reports (rejection : Rejection) : Error → Prop
  | binary {f : Binary.Failure} : f.message = rejection.message → Reports rejection (.binary f)
  | json {f : Json.Failure} {place : String} : f.cause.category.name = "data" →
    f.message = rejection.message ++ place →
    (place = "" ∨ ∃ line column : Nat, place = s!" at line {line} column {column}") →
    Reports rejection (.json f)

/-- A decoder comes to the same outcome as the checks. -/
inductive Agrees : Except Rejection Image → Except Error Image → Prop
  | accepted (m : Image) : Agrees (.ok m) (.ok m)
  | refused {rejection : Rejection} {e : Error} : e.Reports rejection →
    Agrees (.error rejection) (.error e)

theorem Json.Failure.reports {f : Json.Failure} {rejection : Rejection}
    (cause : f.cause = .rejected rejection) : (Error.json f).Reports rejection := by
  rcases f with ⟨_, position⟩
  cases cause
  cases position with
  | none => exact .json rfl String.append_empty.symm (.inl rfl)
  | some p =>
    have message : Failure.message ⟨.rejected rejection, some p⟩ =
        rejection.message ++ s!" at line {p.line} column {p.column}" := by
      change rejection.message ++ " at line " ++ toString p.line ++ " column " ++
        toString p.column = rejection.message ++
          (" at line " ++ toString p.line ++ " column " ++ toString p.column)
      simp only [String.append_assoc]
    exact .json rfl message (.inr ⟨p.line, p.column, rfl⟩)

theorem Binary.agrees (c : Config) {values : List UInt64} (fits : values.length < UInt64.size) :
    Agrees (Image.assemble c values)
      ((Binary.decode Binary.image (Binary.ofParts c values)).mapError .binary) := by
  have read := Binary.decode_ofParts c fits []
  rw [List.append_nil] at read
  rw [read]
  cases Image.assemble c values with
  | ok m => exact .accepted m
  | error rejection => exact .refused (.binary rfl)

theorem Json.agrees (outer inner : Record.Shape) (c : Config) (values : List UInt64)
    (layout : Layout) :
    Agrees (Image.assemble c values)
      ((Json.decode Json.image (Written.ofPartsAs outer inner c values layout)).mapError .json) := by
  have takes := takes_parts outer inner c values []
  cases assembled : Image.assemble c values with
  | ok m =>
    rw [assembled] at takes
    rw [decode_of_accepted takes]
    exact .accepted m
  | error rejection =>
    rw [assembled] at takes
    obtain ⟨failure, read, cause⟩ := decode_of_refused takes layout
    rw [read]
    exact .refused (Failure.reports cause)

/-- Constants and values make the same image, or break the same rule, whether they are checked
directly or written in the binary form or in any form of JSON and read back. For the binary form
the number of values has to fit the eight bytes of the length. -/
theorem Image.decoders_agree (c : Config) (values : List UInt64) :
    (values.length < UInt64.size → Agrees (Image.assemble c values)
      ((Binary.decode Binary.image (Binary.ofParts c values)).mapError .binary)) ∧
    ∀ (outer inner : Json.Record.Shape) (layout : Json.Layout), Agrees (Image.assemble c values)
      ((Json.decode Json.image
        (Json.Written.ofPartsAs outer inner c values layout)).mapError .json) :=
  ⟨fun fits => Binary.agrees c fits,
    fun outer inner layout => Json.agrees outer inner c values layout⟩

/-- The order of the values is checked before the constants, neither of which fits here. -/
theorem Image.decoders_agree_unsorted :
    Image.assemble ⟨7, 1⟩ [5, 3] = .error (.unsorted 1) ∧
      Agrees (.error (.unsorted 1))
        ((Binary.decode Binary.image (Binary.ofParts ⟨7, 1⟩ [5, 3])).mapError .binary) ∧
      Agrees (.error (.unsorted 1))
        ((Json.decode Json.image
          (Json.Written.ofPartsAs .reversed .list ⟨7, 1⟩ [5, 3] .compact)).mapError .json) :=
  have agree := Image.decoders_agree ⟨7, 1⟩ [5, 3]
  ⟨rfl, agree.1 (by decide), agree.2 .reversed .list .compact⟩

end TableSearch
