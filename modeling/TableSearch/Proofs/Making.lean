import TableSearch.Json.Image
import TableSearch.Proofs.BinaryForm

/-!
# Ways of making an image

Images are built from checked values, generated, and read from either stored form.
`Image.Made.assembled` shows that each of these ways has put values and constants through the same
checks. For JSON that takes a fact about records: whatever form a record is written in, its parts
are what the readers of its members returned.
-/

namespace TableSearch

namespace Json.Record

variable {α β : Type} {r : Record α β} {P : α → Prop} {Q : β → Prop}

/-- Properties of the members that have been read. -/
def Members.All (P : α → Prop) (Q : β → Prop) (seen : Members α β) : Prop :=
  (∀ a, seen.1 = some a → P a) ∧ (∀ b, seen.2 = some b → Q b)

variable (first : ∀ {input a rest}, r.first.read input = .ok (a, rest) → P a)
  (second : ∀ {input b rest}, r.second.read input = .ok (b, rest) → Q b)

include first second

theorem all_of_member {seen more : Members α β} {input rest : List UInt8}
    (holds : seen.All P Q) (read : r.member seen input = .ok (more, rest)) : more.All P Q := by
  unfold member at read
  repeat' split at read
  all_goals try contradiction
  · next value =>
    obtain ⟨rfl, -⟩ := Prod.mk.inj (Except.ok.inj read)
    unfold memberValue at value
    split at value
    · cases value
    · refine ⟨fun a same => ?_, holds.2⟩
      cases same
      exact first value
  · next value =>
    obtain ⟨rfl, -⟩ := Prod.mk.inj (Except.ok.inj read)
    unfold memberValue at value
    split at value
    · cases value
    · refine ⟨holds.1, fun b same => ?_⟩
      cases same
      exact second value
  · obtain ⟨rfl, -⟩ := Prod.mk.inj (Except.ok.inj read)
    exact holds

theorem all_of_membersAfter {opening : Bool} {seen : Members α β} {input rest : List UInt8}
    {pair : α × β} (holds : seen.All P Q)
    (read : r.membersAfter opening seen input = .ok (pair, rest)) : P pair.1 ∧ Q pair.2 := by
  fun_induction membersAfter r opening seen input with
  | case1 | case3 => cases read
  | case2 opening seen input behind turn =>
    unfold complete at read
    split at read
    · cases read
    · cases read
    · obtain ⟨rfl, -⟩ := Prod.mk.inj (Except.ok.inj read)
      exact ⟨holds.1 _ rfl, holds.2 _ rfl⟩
  | case4 opening seen input behind turn more further step shorter taken ih =>
    exact ih (all_of_member first second holds step) read

theorem all_of_items {input rest : List UInt8} {pair : α × β}
    (read : r.items input = .ok (pair, rest)) : P pair.1 ∧ Q pair.2 := by
  unfold items at read
  split at read
  · cases read
  · cases read
  · split at read
    · cases read
    · next one =>
      split at read
      · cases read
      · cases read
      · split at read
        · cases read
        · next two =>
          split at read
          · cases read
          · obtain ⟨rfl, -⟩ := Prod.mk.inj (Except.ok.inj read)
            exact ⟨first one, second two⟩

/-- The parts of a record are what the readers of its members returned. -/
theorem all_of_read {input rest : List UInt8} {pair : α × β}
    (read : r.reader.read input = .ok (pair, rest)) : P pair.1 ∧ Q pair.2 := by
  change r.readRecord input = _ at read
  unfold readRecord at read
  split at read
  · cases read
  · split at read
    · exact all_of_items first second (ok_of_mapError read)
    · split at read
      · refine all_of_membersAfter first second ?_ (ok_of_mapError read)
        refine ⟨fun a found => ?_, fun b found => ?_⟩
        · cases found
        · cases found
      · cases read

end Json.Record

namespace Json

theorem exists_of_check {α β : Type} {f : α → Except Rejection β} {r : Reader α}
    {input rest : List UInt8} {b : β} (read : (r.check f).read input = .ok (b, rest)) :
    ∃ a, r.read input = .ok (a, rest) ∧ f a = .ok b := by
  simp only [Reader.check] at read
  split at read
  · cases read
  · next a behind inner =>
    split at read
    · cases read
    · next checked =>
      obtain ⟨rfl, rfl⟩ := Prod.mk.inj (Except.ok.inj read)
      exact ⟨a, inner, checked⟩

theorem exists_of_decode {α : Type} {r : Reader α} {input : List UInt8} {a : α}
    (read : decode r input = .ok a) : ∃ rest, r.read input = .ok (a, rest) := by
  unfold decode at read
  split at read
  · cases read
  · next value rest inner =>
    split at read
    · cases read
      exact ⟨rest, inner⟩
    · cases read

/-- An image read from JSON is assembled from a config and the values of a list. -/
theorem assembled_of_decode {input : List UInt8} {m : Image} (read : decode image input = .ok m) :
    ∃ c values, Image.assemble c values = .ok m := by
  obtain ⟨rest, inner⟩ := exists_of_decode read
  obtain ⟨⟨c, t⟩, parts, built⟩ := exists_of_check inner
  have checked : ∃ values : Array UInt64, Table.ofArray values = .ok t := by
    refine (Record.all_of_read (P := fun _ => True) (r := imageRecord)
      (Q := fun t => ∃ values : Array UInt64, Table.ofArray values = .ok t)
      (fun _ => trivial) (fun two => ?_) parts).2
    obtain ⟨values, -, checked⟩ := exists_of_check two
    exact ⟨values, checked⟩
  rcases checked with ⟨values, checked⟩
  exact ⟨c, values.toList, Image.assemble_eq_ok_iff.mpr ⟨t, checked, built⟩⟩

end Json

namespace Image

/-- The ways in which an image is made. -/
inductive Made (m : Image) : Prop
  | built {values : Array UInt64} {t : Table} {c : Config} :
    Table.ofArray values = .ok t → Image.build c t = .ok m → Made m
  | sequential {size : UInt32} : Image.sequential size = .ok m → Made m
  | exclusive {values : Array UInt64} {t : Table} {failed : UInt32} :
    Table.ofArray values = .ok t → Image.withExclusiveBound t failed = .ok m → Made m
  | binary {input : List UInt8} : Binary.decode Binary.image input = .ok m → Made m
  | json {input : List UInt8} : Json.decode Json.image input = .ok m → Made m

/-- However an image is made, its values and constants have passed the checks. -/
theorem Made.assembled {m : Image} (made : m.Made) :
    ∃ c values, Image.assemble c values = .ok m := by
  cases made with
  | @built values t c checked built =>
    exact ⟨c, values.toList, assemble_eq_ok_iff.mpr ⟨t, checked, built⟩⟩
  | @sequential size generated =>
    unfold Image.sequential at generated
    cases checked : Table.sequential size with
    | error rejection => rw [checked] at generated; cases generated
    | ok t =>
      rw [checked] at generated
      unfold Table.sequential at checked
      exact ⟨_, _, assemble_eq_ok_iff.mpr ⟨t, checked, generated⟩⟩
  | @exclusive values t failed checked built =>
    exact ⟨_, values.toList, assemble_eq_ok_iff.mpr ⟨t, checked, built⟩⟩
  | binary read =>
    obtain ⟨c, values, rest, -, assembled⟩ := Binary.exists_eq_ofParts read
    exact ⟨c, values, assembled⟩
  | json read => exact Json.assembled_of_decode read

end Image

end TableSearch
