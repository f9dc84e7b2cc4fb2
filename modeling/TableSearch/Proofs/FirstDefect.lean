import TableSearch.Proofs.Agreement
import TableSearch.Proofs.JsonAcceptance
import TableSearch.Proofs.JsonRules
import TableSearch.Proofs.Refusal

/-!
# The first defect is reported

A table is held to its rules as soon as its last value has been read. So values that make no table
are reported whatever stands before and behind them: constants that fit no table either, further
bytes, or text that would be malformed if it were read. The constants are held to the table once
both have been read, and before it is asked whether anything follows.

`RecordFront` describes the texts that lead up to the second member of a record and end with it.
They are the beginnings that a reader gets through, if what it meets there is what it would accept.
-/

namespace TableSearch

/-- The rule is one that constants break, and not the values of a table. -/
inductive Rejection.OfConstants : Rejection → Prop
  | right {right : UInt32} {size : Nat} : OfConstants (.rightOutOfRange right size)
  | failed {failed : UInt32} {size : Nat} : OfConstants (.sentinelCollision failed size)

theorem Table.not_ofConstants_of_ofArray {values : Array UInt64} {rejection : Rejection}
    (refused : Table.ofArray values = .error rejection) : ¬ rejection.OfConstants := by
  rcases Table.ofArray_eq_error_iff.mp refused with ⟨-, rfl⟩ | ⟨-, rfl⟩ | ⟨index, -, -, -, rfl⟩
  all_goals exact nofun

namespace Binary

/-- Values that make no table are reported before the constants are looked at. -/
theorem decode_of_refused {values : List UInt64} {rejection : Rejection}
    (refused : Table.ofArray values.toArray = .error rejection)
    (fits : values.length < UInt64.size) (c : Config) (trailing : List UInt8) :
    decode image (ofParts c values ++ trailing) = .error (.rejected rejection) := by
  rw [decode_ofParts c fits, Image.assemble, refused]
  rfl

/-- Constants are only reported behind a table. -/
theorem decode_eq_ofConstants_iff {d : List UInt8} {rejection : Rejection}
    (constants : rejection.OfConstants) :
    decode image d = .error (.rejected rejection) ↔
      ∃ (c : Config) (t : Table) (trailing : List UInt8),
        d = ofParts c t.values.toList ++ trailing ∧ Image.build c t = .error rejection := by
  constructor
  · intro read
    have long : decode image d ≠ .error .endOfInput := by
      rw [read]
      exact nofun
    obtain ⟨c, values, trailing, fits, rfl⟩ := exists_eq_ofParts_of_ne long
    rw [decode_ofParts c fits, Image.assemble] at read
    cases checked : Table.ofArray values.toArray with
    | error other =>
      rw [checked] at read
      cases read
      exact absurd constants (Table.not_ofConstants_of_ofArray checked)
    | ok t =>
      have same : t.values.toList = values := by rw [Table.values_of_ofArray checked]
      rw [checked, Except.bind] at read
      refine ⟨c, t, trailing, by rw [same], ?_⟩
      cases built : Image.build c t with
      | error other =>
        rw [built] at read
        cases read
        rfl
      | ok m =>
        rw [built] at read
        cases read
  · rintro ⟨c, t, trailing, rfl, built⟩
    have fits : t.values.toList.length < UInt64.size := Nat.lt_trans t.size_lt (by decide)
    rw [decode_ofParts c fits, Image.assemble, Array.toArray_toList, Table.ofArray_values,
      Except.bind, built]
    rfl

end Binary

namespace Json

variable {α β : Type}

/-! ## Beginnings -/

/-- What stands in a bracket up to a last item of another kind: the items before it, and it. -/
inductive UpTo (Last : List UInt8 → Prop) (Item : Form α) : Bool → Form (List α)
  | last {first : Bool} {before text : List UInt8} : Before first before → Last text →
    UpTo Last Item first (before ++ text) []
  | next {first : Bool} {before text behind : List UInt8} {a : α} {others : List α} :
    Before first before → Item text a → UpTo Last Item false behind others →
    UpTo Last Item first (before ++ (text ++ behind)) (a :: others)

/-- Among the members at most one has the key, and its value stands for something. -/
def OccursAtMostOnce (Value : Form α) (key : String) (members : List (String × List UInt8)) :
    Prop :=
  members.filter (fun m => m.1 = key) = [] ∨ ∃ a, OccursOnce Value key members a

/-- The beginning of a record up to the end of its second member, whose value is one of `Last`. In
an object any well-formed members may come before it, the first member of the record among them, but
no other second one. -/
inductive RecordFront (firstKey secondKey : String) (First : Form α) (Last : List UInt8 → Prop) :
    List UInt8 → Prop
  | object {inside : List UInt8} {members : List (String × List UInt8)} :
    UpTo (fun text => ∃ value, MemberForm text (secondKey, value) ∧ Last value) MemberForm true
      inside members →
    OccursAtMostOnce First firstKey members → (∀ m ∈ members, m.1 ≠ secondKey) →
    (∀ m ∈ members, m.1 ≠ firstKey → WellFormed .value m.2) →
    RecordFront firstKey secondKey First Last (ascii '\x7b' :: inside)
  | list {before one between blank two : List UInt8} {a : α} : Blank before → First one a →
    Blank between → Blank blank → Last two →
    RecordFront firstKey secondKey First Last
      (ascii '[' :: (before ++ (one ++ (between ++ ascii ',' :: (blank ++ two)))))

/-- The beginning of an image up to the end of its table, which is the list of the values. -/
def ImageFront (values : List UInt64) : List UInt8 → Prop :=
  RecordFront "config" "table" ConfigForm fun text => ListForm Word64Form text values

theorem UpTo.stops {Last : List UInt8 → Prop} {Item : Form α} {text : List UInt8} {items : List α}
    (upTo : UpTo Last Item false text items) (rest : List UInt8) : Stops (text ++ rest) := by
  have comma {before : List UInt8} (leads : Before false before) (behind : List UInt8) :
      Stops (before ++ behind) := by
    cases leads with
    | next spaced =>
      rw [List.append_assoc, List.cons_append]
      exact stops_blank spaced (stops_comma _)
  cases upTo with
  | last leads =>
    rw [List.append_assoc]
    exact comma leads _
  | next leads =>
    rw [List.append_assoc]
    exact comma leads _

/-! ## Refusals -/

/-- The reader refuses the texts for the cause, whatever follows them. -/
structure Reader.Refuses (r : Reader α) (Text : List UInt8 → Prop) (cause : Cause) : Prop where
  starts : ∀ {text}, Text text → Starts text
  refuses : ∀ {blank text}, Blank blank → Text text → ∀ rest,
    ∃ fault, r.read (blank ++ (text ++ rest)) = .error fault ∧ fault.cause = cause

theorem Reader.Refuses.check {r : Reader α} {Text : List UInt8 → Prop} {cause : Cause}
    (refuses : r.Refuses Text cause) (f : α → Except Rejection β) :
    (r.check f).Refuses Text cause where
  starts := refuses.starts
  refuses spaced form rest := by
    obtain ⟨fault, read, same⟩ := refuses.refuses spaced form rest
    exact ⟨fault, by simp only [Reader.check, read], same⟩

/-- A list of values that make no table is refused for the rule that they break. -/
theorem refuses_table {values : List UInt64} {rejection : Rejection}
    (refused : Table.ofArray values.toArray = .error rejection) :
    table.Refuses (fun text => ListForm Word64Form text values) (.rejected rejection) where
  starts form := (reads_list reads_word64).starts form
  refuses spaced form rest := by
    have read : (list word64).read _ = .ok (values.toArray, rest) :=
      readList_append reads_word64 spaced form rest
    exact ⟨.noticed (.rejected rejection) rest, by simp only [table, Reader.check, read, refused],
      rfl⟩

namespace Record

variable {r : Record α β} {First : Form α} {Second : Form β}

/-- Members among which the second of the record does not occur leave it missing. -/
theorem exists_addsAll {seen : Option α} {members : List (String × List UInt8)}
    (first : members.filter (fun m => m.1 = r.firstKey) = [] ∨
      ∃ a, Fills First r.firstKey seen members a)
    (second : ∀ m ∈ members, m.1 ≠ r.secondKey)
    (passed : ∀ m ∈ members, m.1 ≠ r.firstKey → WellFormed .value m.2) :
    ∃ all, AddsAll r First Second (seen, none) members (all, none) := by
  induction members generalizing seen with
  | nil => exact ⟨seen, .nil⟩
  | cons m members ih =>
    obtain ⟨key, text⟩ := m
    rw [List.forall_mem_cons] at second passed
    by_cases same : key = r.firstKey
    · subst same
      rcases first with nothing | ⟨a, fills⟩
      · simp at nothing
      · obtain ⟨d, rfl, value, fills⟩ := fills_cons_self.mp fills
        obtain ⟨all, adds⟩ := ih (.inr ⟨a, fills⟩) second.2 passed.2
        exact ⟨all, .cons (.first value) adds⟩
    · have behind : members.filter (fun m => m.1 = r.firstKey) = [] ∨
          ∃ a, Fills First r.firstKey seen members a := by
        rcases first with nothing | ⟨a, fills⟩
        · rw [List.filter_cons_of_neg (by simpa using same)] at nothing
          exact .inl nothing
        · exact .inr ⟨a, (fills_cons_of_ne same).mp fills⟩
      obtain ⟨all, adds⟩ := ih behind second.2 passed.2
      exact ⟨all, .cons (.other same second.1 (passed.1 same)) adds⟩

variable {Last : List UInt8 → Prop} {cause : Cause} (first : r.first.Reads First)
  (second : r.second.Reads Second) (refuses : r.second.Refuses Last cause)

include refuses

theorem member_refuses (distinct : r.secondKey ≠ r.firstKey) (one : Option α)
    {text value : List UInt8} (form : MemberForm (ascii '"' :: text) (r.secondKey, value))
    (last : Last value) (rest : List UInt8) :
    ∃ fault, r.member (one, none) (text ++ rest) = .error fault ∧ fault.cause = cause := by
  obtain ⟨source, between, blank, spelling, opening, spaced, rfl⟩ := memberForm_iff.mp form
  obtain ⟨fault, read, same⟩ := refuses.refuses spaced last rest
  have named := text_append spelling (between ++ ascii ':' :: (blank ++ (value ++ rest)))
  have found := colon_append opening (blank ++ (value ++ rest))
  refine ⟨fault, ?_, same⟩
  simp [member, memberValue, named, found, read, distinct]

include first second

/-- In an object the members before the second one are read, and then it is refused. -/
theorem membersAfter_refuses (distinct : r.secondKey ≠ r.firstKey) {opening : Bool}
    {text : List UInt8} {members : List (String × List UInt8)}
    (upTo : UpTo (fun text => ∃ value, MemberForm text (r.secondKey, value) ∧ Last value) MemberForm
      opening text members) {seen : Members α β} {one : Option α}
    (all : AddsAll r First Second seen members (one, none)) (rest : List UInt8) :
    ∃ fault, r.membersAfter opening seen (text ++ rest) = .error fault ∧ fault.cause = cause := by
  have quoted {text : List UInt8} {m : String × List UInt8} (form : MemberForm text m) :
      ∃ tail, text = ascii '"' :: tail := by
    cases form with
    | keyed name =>
      cases name
      exact ⟨_, rfl⟩
  induction upTo generalizing seen with
  | @last opening before text leads last =>
    cases all
    obtain ⟨value, form, last⟩ := last
    obtain ⟨tail, rfl⟩ := quoted form
    obtain ⟨fault, step, same⟩ := member_refuses refuses distinct one form last rest
    refine ⟨fault, ?_, same⟩
    rw [List.append_assoc, List.cons_append, membersAfter_eq, objectTurn_item leads]
    simp only [step]
  | @next opening before text behind m members leads form upTo ih =>
    cases all with
    | cons adds all =>
      obtain ⟨tail, rfl⟩ := quoted form
      have step := member_append first second distinct form adds (upTo.stops rest)
      obtain ⟨fault, read, same⟩ := ih all
      refine ⟨fault, ?_, same⟩
      rw [List.append_assoc, List.append_assoc, List.cons_append,
        membersAfter_member (objectTurn_item leads _) step, read]

omit second in
theorem items_refuses {before one between blank two : List UInt8} {a : α} (leads : Blank before)
    (form : First one a) (follows : Blank between) (more : Blank blank) (last : Last two)
    (rest : List UInt8) :
    ∃ fault, r.items (before ++ (one ++ (between ++ ascii ',' :: (blank ++ (two ++ rest))))) =
      .error fault ∧ fault.cause = cause := by
  have opening := listTurn_item (.first leads) ((first.starts form).append
    (between ++ ascii ',' :: (blank ++ (two ++ rest))))
  have turn := listTurn_item (.next follows more) ((refuses.starts last).append rest)
  have firstRead := first.complete blank_nil form
    (stops_blank follows (stops_comma (blank ++ (two ++ rest))))
  obtain ⟨fault, secondRead, same⟩ := refuses.refuses blank_nil last rest
  simp only [List.append_assoc, List.cons_append, List.nil_append] at turn firstRead secondRead
  exact ⟨fault, by simp only [items, opening, firstRead, turn, secondRead], same⟩

/-- What refuses the second member of a record refuses the record, in either of its forms. -/
theorem refuses_record (distinct : r.secondKey ≠ r.firstKey) :
    r.reader.Refuses (RecordFront r.firstKey r.secondKey First Last) cause where
  starts := by
    intro text front
    cases front with
    | object => exact ⟨ascii '\x7b', _, rfl, rfl, by decide⟩
    | list => exact ⟨ascii '[', _, rfl, rfl, by decide⟩
  refuses := by
    intro blank text spaced front rest
    change ∃ fault, r.readRecord _ = _ ∧ _
    cases front with
    | @object inside members upTo atMost other passed =>
      have solid : isSpace (ascii '\x7b') = false := rfl
      have notList : ascii '\x7b' ≠ ascii '[' := by decide
      obtain ⟨one, all⟩ : ∃ one, AddsAll r First Second (none, none) members (one, none) :=
        exists_addsAll atMost other passed
      obtain ⟨fault, read, same⟩ :=
        membersAfter_refuses first second refuses distinct upTo all rest
      refine ⟨fault.settle leaveObject, ?_, (fault.cause_settle _).trans same⟩
      rw [List.cons_append, readRecord]
      simp only [skipSpace_blank_cons spaced solid, if_neg notList, if_pos, read]
      rfl
    | list leads form follows more last =>
      have solid : isSpace (ascii '[') = false := rfl
      obtain ⟨fault, read, same⟩ := items_refuses first refuses leads form follows more last rest
      refine ⟨fault.settle leaveList, ?_, (fault.cause_settle _).trans same⟩
      simp only [List.append_assoc, List.cons_append]
      rw [readRecord]
      simp only [skipSpace_blank_cons spaced solid, if_pos, read]
      rfl

end Record

theorem refuses_image {values : List UInt64} {rejection : Rejection}
    (refused : Table.ofArray values.toArray = .error rejection) :
    image.Refuses (ImageFront values) (.rejected rejection) :=
  (Record.refuses_record (r := imageRecord) reads_config reads_table (refuses_table refused)
    (by decide)).check _

/-- A key whose characters stand for themselves is spelled by them. -/
theorem stringForm_plain {key : String} (plain : Plain key) :
    StringForm (ascii '"' :: (asciiBytes key ++ [ascii '"'])) key := by
  obtain ⟨source, spelling, same⟩ := spelling_of_text (text_key plain [])
  rw [asciiBytes, List.append_cancel_right same]
  exact .quoted spelling

/-! ## Whole texts -/

theorem decode_of_fault {r : Reader α} {d : List UInt8} {fault : Fault}
    (read : r.read d = .error fault) :
    ∃ failure, decode r d = .error failure ∧ failure.cause = fault.cause :=
  ⟨fault.failure d, by simp only [decode, read], rfl⟩

theorem decode_of_refuses {r : Reader α} {Text : List UInt8 → Prop} {cause : Cause}
    (refuses : r.Refuses Text cause) {blank text : List UInt8} (spaced : Blank blank)
    (form : Text text) (rest : List UInt8) :
    ∃ failure, decode r (blank ++ (text ++ rest)) = .error failure ∧ failure.cause = cause := by
  obtain ⟨fault, read, same⟩ := refuses.refuses spaced form rest
  obtain ⟨failure, decoded, cause⟩ := decode_of_fault read
  exact ⟨failure, decoded, cause.trans same⟩

/-- Constants are only reported behind a table, and then whatever follows the image. -/
theorem decode_ofConstants_iff {d : List UInt8} {rejection : Rejection}
    (constants : rejection.OfConstants) :
    (∃ failure, decode image d = .error failure ∧ failure.cause = .rejected rejection) ↔
      ∃ before value behind c t, d = before ++ (value ++ behind) ∧ Blank before ∧
        RecordForm "config" "table" ConfigForm TableForm value (c, t) ∧
        Image.build c t = .error rejection := by
  constructor
  · rintro ⟨failure, decoded, cause⟩
    unfold decode at decoded
    split at decoded
    · next fault read =>
      cases decoded
      change fault.cause = .rejected rejection at cause
      simp only [image, Reader.check] at read
      split at read
      · -- the parts of an image break the rules of tables alone
        next inner =>
        cases read
        have rule := (confined_parts d).fault inner
        rw [cause] at rule
        obtain ⟨values, refused⟩ := rule
        exact absurd constants (Table.not_ofConstants_of_ofArray refused)
      · next pair rest inner =>
        split at read
        · next built =>
          cases read
          cases cause
          have reads := Record.reads_record (r := imageRecord) reads_config reads_table (by decide)
          obtain ⟨before, value, spaced, form, rfl⟩ := reads.sound inner
          exact ⟨before, value, rest, pair.1, pair.2, rfl, spaced, form, built⟩
        · cases read
    · split at decoded
      · cases decoded
      · cases decoded
        cases cause
  · rintro ⟨before, value, behind, c, t, rfl, spaced, form, built⟩
    have parts := Record.readRecord_append (r := imageRecord) reads_config reads_table (by decide)
      spaced form behind
    have read : image.read (before ++ (value ++ behind)) =
        .error (.noticed (.rejected rejection) behind) := by
      simp only [image, Reader.check, parts, built]
    exact decode_of_fault read

end Json

namespace Image

/-- The first defect is reported, in both forms. Values that make no table are reported by the rule
that they break, in the binary form whatever the constants are and whatever follows, and in JSON
behind every beginning that leads up to them, whatever follows. A rule about the constants is
reported exactly if they stand with a table that they do not fit, whatever follows. -/
theorem first_defect_reported :
    (∀ (values : List UInt64) (rejection : Rejection),
      Table.ofArray values.toArray = .error rejection →
      ¬ rejection.OfConstants ∧
      (values.length < UInt64.size → ∀ (c : Config) (trailing : List UInt8),
        ∃ failure, Binary.decode Binary.image (Binary.ofParts c values ++ trailing) =
          .error failure ∧ (Error.binary failure).Reports rejection) ∧
      ∀ before front : List UInt8, Json.Blank before → Json.ImageFront values front →
        ∀ behind : List UInt8, ∃ failure,
          Json.decode Json.image (before ++ (front ++ behind)) = .error failure ∧
            (Error.json failure).Reports rejection) ∧
    ∀ rejection : Rejection, rejection.OfConstants → ∀ d : List UInt8,
      (Binary.decode Binary.image d = .error (.rejected rejection) ↔
        ∃ (c : Config) (t : Table) (trailing : List UInt8),
          d = Binary.ofParts c t.values.toList ++ trailing ∧ build c t = .error rejection) ∧
      ((∃ failure, Json.decode Json.image d = .error failure ∧
          failure.cause = .rejected rejection) ↔
        ∃ before value behind c t, d = before ++ (value ++ behind) ∧ Json.Blank before ∧
          Json.RecordForm "config" "table" Json.ConfigForm Json.TableForm value (c, t) ∧
          build c t = .error rejection) := by
  refine ⟨?_, fun rejection constants d => ⟨Binary.decode_eq_ofConstants_iff constants,
    Json.decode_ofConstants_iff constants⟩⟩
  intro values rejection refused
  refine ⟨Table.not_ofConstants_of_ofArray refused, ?_, ?_⟩
  · intro fits c trailing
    exact ⟨_, Binary.decode_of_refused refused fits c trailing, .binary rfl⟩
  · intro before front spaced form behind
    obtain ⟨failure, read, cause⟩ :=
      Json.decode_of_refuses (Json.refuses_image refused) spaced form behind
    exact ⟨failure, read, Json.Failure.reports cause⟩

/-- Behind values that descend neither a missing config nor malformed text is reported, and a bound
out of range is reported before what follows the image. -/
theorem first_defect_reported_before_malformed :
    Table.ofArray #[5, 3] = .error (.unsorted 1) ∧
      (∃ failure, Binary.decode Binary.image (Binary.ofParts ⟨7, 1⟩ [5, 3] ++ [0]) =
        .error failure ∧ (Error.binary failure).Reports (.unsorted 1)) ∧
      (∃ failure, Json.decode Json.image (asciiBytes "\x7b\"table\":[5,3],!") = .error failure ∧
        (Error.json failure).Reports (.unsorted 1)) ∧
      ∃ failure, Json.decode Json.image (asciiBytes "[[7,4],[3,5]]!") = .error failure ∧
        failure.cause = .rejected (.rightOutOfRange 7 2) := by
  have refused : Table.ofArray #[5, 3] = .error (.unsorted 1) := rfl
  obtain ⟨tables, constants⟩ := first_defect_reported
  obtain ⟨-, binary, json⟩ := tables [5, 3] (.unsorted 1) refused
  have listed (a b : UInt64) : Json.ListForm Json.Word64Form (ascii '[' :: ([] ++
      (Json.decimal a.toNat ++ ([] ++ [ascii ','] ++ (Json.decimal b.toNat ++
        ([] ++ [ascii ']'])))))) [a, b] :=
    .items (.next (.first Json.blank_nil) rfl
      (.next (.next Json.blank_nil Json.blank_nil) rfl (.last Json.blank_nil)))
  have front : Json.ImageFront [5, 3] _ :=
    .object (.last (.first Json.blank_nil)
      ⟨_, .keyed (Json.stringForm_plain (by decide)) Json.blank_nil Json.blank_nil, listed 5 3⟩)
      (.inl rfl) (List.forall_mem_nil _) (List.forall_mem_nil _)
  have early := json [] _ Json.blank_nil front (asciiBytes ",!")
  let t : Table := ⟨#[3, 5], by decide, by decide, by decide⟩
  have record : Json.RecordForm "config" "table" Json.ConfigForm Json.TableForm _ (⟨7, 4⟩, t) :=
    .list Json.blank_nil (.list Json.blank_nil rfl Json.blank_nil Json.blank_nil rfl Json.blank_nil)
      Json.blank_nil Json.blank_nil ⟨[3, 5], listed 3 5, rfl⟩ Json.blank_nil
  have late := (constants (.rightOutOfRange 7 2) .right _).2.mpr
    ⟨[], _, asciiBytes "!", ⟨7, 4⟩, t, rfl, Json.blank_nil, record, rfl⟩
  exact ⟨refused, binary (by decide) ⟨7, 1⟩ [0], early, late⟩

end Image

end TableSearch
