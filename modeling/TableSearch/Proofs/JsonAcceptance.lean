import TableSearch.Proofs.JsonReads

/-!
# Images are read by their grammar

Reading one member of an object adds a value that was missing, or nothing, and reading all of them
makes a record complete exactly if each of its two keys occurs once. So a record is read from the
texts of its form, and decoding accepts the texts of images and no others.
-/

namespace TableSearch.Json

variable {α β : Type}

/-! ## Members of records -/

theorem blank_of_colon {input rest : List UInt8} (read : colon input = .ok rest) :
    ∃ blank, Blank blank ∧ input = blank ++ ascii ':' :: rest := by
  unfold colon at read
  repeat' split at read
  all_goals try contradiction
  next skipped same =>
    cases read
    subst same
    exact blank_of_skipSpace skipped

theorem colon_append {blank : List UInt8} (spaced : Blank blank) (rest : List UInt8) :
    colon (blank ++ ascii ':' :: rest) = .ok rest := by
  have solid : isSpace (ascii ':') = false := rfl
  simp only [colon, skipSpace_blank_cons spaced solid, if_pos]

/-- A member behind the opening quote of its key. -/
theorem memberForm_iff {text value : List UInt8} {key : String} :
    MemberForm (ascii '"' :: text) (key, value) ↔ ∃ source between blank,
      Spelling source (key.toList.flatMap String.utf8EncodeChar) ∧ Blank between ∧ Blank blank ∧
        text = source ++ ascii '"' :: (between ++ ascii ':' :: (blank ++ value)) := by
  constructor
  · intro form
    generalize whole : ascii '"' :: text = member at form
    cases form with
    | @keyed _ between blank _ _ name first second =>
      cases name with
      | @quoted source _ spelling =>
        refine ⟨source, between, blank, spelling, first, second, ?_⟩
        simpa using whole
  · rintro ⟨source, between, blank, spelling, first, second, rfl⟩
    have form : MemberForm _ (key, value) := .keyed (.quoted spelling) first second
    simpa using form

namespace Record

variable {r : Record α β} {First : Form α} {Second : Form β}

/-- What the members that have been read become when one more is read. -/
inductive Adds (r : Record α β) (First : Form α) (Second : Form β) :
    Members α β → String × List UInt8 → Members α β → Prop
  | first {seen : Option β} {text : List UInt8} {a : α} : First text a →
    Adds r First Second (none, seen) (r.firstKey, text) (some a, seen)
  | second {seen : Option α} {text : List UInt8} {b : β} : Second text b →
    Adds r First Second (seen, none) (r.secondKey, text) (seen, some b)
  | other {seen : Members α β} {key : String} {text : List UInt8} : key ≠ r.firstKey →
    key ≠ r.secondKey → WellFormed .value text → Adds r First Second seen (key, text) seen

/-- What they become when several more are read. -/
inductive AddsAll (r : Record α β) (First : Form α) (Second : Form β) :
    Members α β → List (String × List UInt8) → Members α β → Prop
  | nil {seen : Members α β} : AddsAll r First Second seen [] seen
  | cons {seen more all : Members α β} {m : String × List UInt8}
    {members : List (String × List UInt8)} : Adds r First Second seen m more →
    AddsAll r First Second more members all → AddsAll r First Second seen (m :: members) all

theorem exists_of_memberValue {value : Reader α} {Value : Form α} (reads : value.Reads Value)
    {input rest : List UInt8} {a : α} (read : memberValue value input = .ok (a, rest)) :
    ∃ between blank text, Blank between ∧ Blank blank ∧ Value text a ∧
      input = between ++ ascii ':' :: (blank ++ (text ++ rest)) := by
  unfold memberValue at read
  split at read
  · cases read
  · next found =>
    obtain ⟨between, first, rfl⟩ := blank_of_colon found
    obtain ⟨blank, text, second, form, rfl⟩ := reads.sound read
    exact ⟨between, blank, text, first, second, form, rfl⟩

theorem memberValue_append {value : Reader α} {Value : Form α} (reads : value.Reads Value)
    {between blank text rest : List UInt8} {a : α} (first : Blank between) (second : Blank blank)
    (form : Value text a) (stops : Stops rest) :
    memberValue value (between ++ ascii ':' :: (blank ++ (text ++ rest))) = .ok (a, rest) := by
  rw [memberValue, colon_append first]
  exact reads.complete second form stops

section

variable (first : r.first.Reads First) (second : r.second.Reads Second)

include first second

theorem adds_of_member {seen more : Members α β} {input rest : List UInt8}
    (read : r.member seen input = .ok (more, rest)) :
    ∃ text m, MemberForm (ascii '"' :: text) m ∧ Adds r First Second seen m more ∧
      input = text ++ rest := by
  obtain ⟨one, two⟩ := seen
  unfold member at read
  split at read
  · cases read
  · next key behind named =>
    obtain ⟨source, spelling, rfl⟩ := spelling_of_text named
    -- whatever the key is, the member ends where its value does
    have whole {between blank text : List UInt8} (opening : Blank between) (spaced : Blank blank)
        (adds : Adds r First Second (one, two) (key, text) more)
        (same : behind = between ++ ascii ':' :: (blank ++ (text ++ rest))) :
        ∃ text m, MemberForm (ascii '"' :: text) m ∧ Adds r First Second (one, two) m more ∧
          source ++ ascii '"' :: behind = text ++ rest := by
      refine ⟨_, (key, text), memberForm_iff.mpr
        ⟨source, between, blank, spelling, opening, spaced, rfl⟩, adds, ?_⟩
      rw [same]
      simp only [List.append_assoc, List.cons_append]
    split at read
    · next same =>
      subst same
      split at read
      · cases read
      · next fresh =>
        obtain rfl : one = none := by simpa using fresh
        split at read
        · cases read
        · next value =>
          cases read
          obtain ⟨between, blank, text, opening, spaced, form, same⟩ :=
            exists_of_memberValue first value
          exact whole opening spaced (.first form) same
    split at read
    · next same =>
      subst same
      split at read
      · cases read
      · next fresh =>
        obtain rfl : two = none := by simpa using fresh
        split at read
        · cases read
        · next value =>
          cases read
          obtain ⟨between, blank, text, opening, spaced, form, same⟩ :=
            exists_of_memberValue second value
          exact whole opening spaced (.second form) same
    split at read
    · cases read
    · next otherFirst otherSecond _ _ passed =>
      cases read
      unfold skipMemberValue at passed
      split at passed
      · cases passed
      · next found =>
        obtain ⟨between, opening, rfl⟩ := blank_of_colon found
        obtain ⟨blank, value, spaced, form, rfl⟩ := wellFormed_of_skipValue passed
        exact whole opening spaced (.other otherFirst otherSecond form) rfl

theorem member_append (distinct : r.secondKey ≠ r.firstKey) {seen more : Members α β}
    {text rest : List UInt8} {m : String × List UInt8} (form : MemberForm (ascii '"' :: text) m)
    (adds : Adds r First Second seen m more) (stops : Stops rest) :
    r.member seen (text ++ rest) = .ok (more, rest) := by
  obtain ⟨key, value⟩ := m
  obtain ⟨source, between, blank, spelling, opening, spaced, rfl⟩ := memberForm_iff.mp form
  have named := text_append spelling (between ++ ascii ':' :: (blank ++ (value ++ rest)))
  simp only [List.append_assoc, List.cons_append]
  cases adds with
  | first form =>
    have read := memberValue_append first opening spaced form stops
    simp [member, named, read]
  | second form =>
    have read := memberValue_append second opening spaced form stops
    simp [member, named, read, distinct]
  | other otherFirst otherSecond form =>
    have found := colon_append opening (blank ++ (value ++ rest))
    have passed := skipValue_append spaced form stops
    simp [member, named, skipMemberValue, found, passed, otherFirst, otherSecond]

theorem addsAll_of_membersAfter {opening : Bool} {seen : Members α β} {input rest : List UInt8}
    {pair : α × β} (read : r.membersAfter opening seen input = .ok (pair, rest)) :
    ∃ text members, Items (ascii '\x7d') MemberForm opening text members ∧
      AddsAll r First Second seen members (some pair.1, some pair.2) ∧ input = text ++ rest := by
  fun_induction membersAfter r opening seen input with
  | case1 | case3 => cases read
  | case2 opening seen input behind turn =>
    obtain ⟨blank, spaced, rfl⟩ := blank_of_objectTurn turn
    unfold complete at read
    split at read
    · cases read
    · cases read
    · cases read
      refine ⟨_, [], .last spaced, .nil, ?_⟩
      rw [List.append_assoc, List.singleton_append]
  | case4 opening seen input behind turn more further step _ _ ih =>
    obtain ⟨text, members, items, all, rfl⟩ := ih read
    obtain ⟨before, leads, rfl⟩ := before_of_objectTurn turn
    obtain ⟨one, m, form, adds, rfl⟩ := adds_of_member first second step
    refine ⟨_, m :: members, .next leads form items, .cons adds all, ?_⟩
    simp only [List.append_assoc, List.cons_append]

theorem membersAfter_append (distinct : r.secondKey ≠ r.firstKey) {opening : Bool}
    {text : List UInt8} {members : List (String × List UInt8)}
    (items : Items (ascii '\x7d') MemberForm opening text members) {seen : Members α β} {a : α}
    {b : β} (all : AddsAll r First Second seen members (some a, some b)) (rest : List UInt8) :
    r.membersAfter opening seen (text ++ rest) = .ok ((a, b), rest) := by
  induction items generalizing seen with
  | @last opening blank spaced =>
    cases all
    rw [List.append_assoc, List.singleton_append,
      membersAfter_closing (objectTurn_closing opening spaced rest), complete]
  | @next opening before one behind m members leads form items ih =>
    cases all with
    | cons adds all =>
      have stops := items.stops (.inr rfl) rest
      obtain ⟨tail, rfl⟩ : ∃ tail, one = ascii '"' :: tail := by
        cases form with
        | keyed name =>
          cases name
          exact ⟨_, rfl⟩
      have step := member_append first second distinct form adds stops
      rw [List.append_assoc, List.append_assoc, List.cons_append,
        membersAfter_member (objectTurn_item leads _) step, ih all]

end

/-! ## Members that occur once -/

/-- What the members still to come say of one key: it does not occur if its value has been read,
and otherwise it occurs once. -/
def Fills {γ : Type} (Value : Form γ) (key : String) :
    Option γ → List (String × List UInt8) → γ → Prop
  | none, members, c => OccursOnce Value key members c
  | some d, members, c => members.filter (fun m => m.1 = key) = [] ∧ d = c

theorem fills_cons_self {γ : Type} {Value : Form γ} {key : String} {seen : Option γ}
    {text : List UInt8} {members : List (String × List UInt8)} {c : γ} :
    Fills Value key seen ((key, text) :: members) c ↔
      ∃ d, seen = none ∧ Value text d ∧ Fills Value key (some d) members c := by
  have kept : ((key, text) :: members).filter (fun m => m.1 = key) =
      (key, text) :: members.filter (fun m => m.1 = key) :=
    List.filter_cons_of_pos (by simp)
  constructor
  · intro fills
    cases seen with
    | none =>
      obtain ⟨value, only, form⟩ := fills
      obtain ⟨same, others⟩ := List.cons.inj (kept.symm.trans only)
      cases same
      exact ⟨c, rfl, form, others, rfl⟩
    | some d => cases kept.symm.trans fills.1
  · rintro ⟨d, rfl, form, others, rfl⟩
    exact ⟨text, by rw [kept, others], form⟩

theorem fills_cons_of_ne {γ : Type} {Value : Form γ} {key other : String} {seen : Option γ}
    {text : List UInt8} {members : List (String × List UInt8)} {c : γ} (distinct : other ≠ key) :
    Fills Value key seen ((other, text) :: members) c ↔ Fills Value key seen members c := by
  cases seen with
  | none => simp [Fills, OccursOnce, distinct]
  | some d => simp [Fills, distinct]

/-- The members make a record complete exactly if each key that is missing occurs once, and
members of other names only have to be well-formed. -/
theorem addsAll_iff (distinct : r.secondKey ≠ r.firstKey) {seen : Members α β}
    {members : List (String × List UInt8)} {a : α} {b : β} :
    AddsAll r First Second seen members (some a, some b) ↔
      Fills First r.firstKey seen.1 members a ∧ Fills Second r.secondKey seen.2 members b ∧
        ∀ m ∈ members, m.1 ≠ r.firstKey → m.1 ≠ r.secondKey → WellFormed .value m.2 := by
  induction members generalizing seen with
  | nil =>
    constructor
    · intro all
      cases all
      exact ⟨⟨rfl, rfl⟩, ⟨rfl, rfl⟩, List.forall_mem_nil _⟩
    · rintro ⟨first, second, -⟩
      obtain ⟨one, two⟩ := seen
      cases one with
      | none =>
        obtain ⟨_, nothing, -⟩ := first
        cases nothing
      | some a =>
        cases two with
        | none =>
          obtain ⟨_, nothing, -⟩ := second
          cases nothing
        | some b =>
          obtain ⟨-, rfl⟩ := first
          obtain ⟨-, rfl⟩ := second
          exact .nil
  | cons m members ih =>
    obtain ⟨key, text⟩ := m
    rw [List.forall_mem_cons]
    constructor
    · intro all
      cases all with
      | cons adds all =>
        obtain ⟨first, second, passed⟩ := ih.mp all
        cases adds with
        | first form =>
          exact ⟨fills_cons_self.mpr ⟨_, rfl, form, first⟩,
            (fills_cons_of_ne distinct.symm).mpr second, fun other => absurd rfl other, passed⟩
        | second form =>
          exact ⟨(fills_cons_of_ne distinct).mpr first,
            fills_cons_self.mpr ⟨_, rfl, form, second⟩, fun _ other => absurd rfl other, passed⟩
        | other otherFirst otherSecond form =>
          exact ⟨(fills_cons_of_ne otherFirst).mpr first, (fills_cons_of_ne otherSecond).mpr second,
            fun _ _ => form, passed⟩
    · rintro ⟨first, second, form, passed⟩
      obtain ⟨one, two⟩ := seen
      -- a key that occurs must not have been seen, and is seen from here on
      by_cases firstKey : key = r.firstKey
      · subst firstKey
        obtain ⟨_, rfl, value, first⟩ := fills_cons_self.mp first
        have second := (fills_cons_of_ne distinct.symm).mp second
        exact .cons (.first value) (ih.mpr ⟨first, second, passed⟩)
      by_cases secondKey : key = r.secondKey
      · subst secondKey
        obtain ⟨_, rfl, value, second⟩ := fills_cons_self.mp second
        have first := (fills_cons_of_ne firstKey).mp first
        exact .cons (.second value) (ih.mpr ⟨first, second, passed⟩)
      have first := (fills_cons_of_ne firstKey).mp first
      have second := (fills_cons_of_ne secondKey).mp second
      exact .cons (.other firstKey secondKey (form firstKey secondKey))
        (ih.mpr ⟨first, second, passed⟩)

/-! ## Records -/

theorem closeList_append {blank : List UInt8} (spaced : Blank blank) (rest : List UInt8) :
    closeList (blank ++ ascii ']' :: rest) = .ok rest := by
  have solid : isSpace (ascii ']') = false := rfl
  simp only [closeList, skipSpace_blank_cons spaced solid, if_pos]

theorem blank_of_closeList {input rest : List UInt8} (read : closeList input = .ok rest) :
    ∃ blank, Blank blank ∧ input = blank ++ ascii ']' :: rest := by
  unfold closeList at read
  repeat' split at read
  all_goals try contradiction
  next skipped same =>
    cases read
    subst same
    exact blank_of_skipSpace skipped

section

variable (first : r.first.Reads First) (second : r.second.Reads Second)

include first second

theorem recordForm_of_items {input rest : List UInt8} {pair : α × β}
    (read : r.items input = .ok (pair, rest)) :
    ∃ text, RecordForm r.firstKey r.secondKey First Second (ascii '[' :: text) pair ∧
      input = text ++ rest := by
  unfold items at read
  repeat' split at read
  all_goals try contradiction
  next _ _ opening _ _ _ one _ _ between _ _ _ two _ _ closing =>
    cases read
    obtain ⟨_, leads, rfl⟩ := before_of_listTurn opening
    obtain ⟨blank, firstText, spaced, firstForm, rfl⟩ := first.sound one
    obtain ⟨_, follows, rfl⟩ := before_of_listTurn between
    obtain ⟨left, secondText, further, secondForm, rfl⟩ := second.sound two
    obtain ⟨behind, last, rfl⟩ := blank_of_closeList closing
    cases leads with
    | first leads =>
      cases follows with
      | next follows more =>
        refine ⟨_, .list (blank_append leads spaced) firstForm follows (blank_append more further)
          secondForm last, ?_⟩
        simp only [List.append_assoc, List.cons_append, List.nil_append]

theorem items_append {before one between blank two behind : List UInt8} {a : α} {b : β}
    (leads : Blank before) (firstForm : First one a) (follows : Blank between) (more : Blank blank)
    (secondForm : Second two b) (last : Blank behind) (rest : List UInt8) :
    r.items (before ++ (one ++ (between ++ ascii ',' ::
      (blank ++ (two ++ (behind ++ ascii ']' :: rest)))))) = .ok ((a, b), rest) := by
  have opening := listTurn_item (.first leads) ((first.starts firstForm).append
    (between ++ ascii ',' :: (blank ++ (two ++ (behind ++ ascii ']' :: rest)))))
  have turn := listTurn_item (.next follows more) ((second.starts secondForm).append
    (behind ++ ascii ']' :: rest))
  have firstRead := first.complete blank_nil firstForm
    (stops_blank follows (stops_comma (blank ++ (two ++ (behind ++ ascii ']' :: rest)))))
  have secondRead := second.complete blank_nil secondForm
    (stops_closing (ascii ']') (.inl rfl) last rest)
  simp only [List.append_assoc, List.cons_append, List.nil_append] at turn firstRead secondRead
  simp only [items, opening, firstRead, turn, secondRead, closeList_append last]

/-- A record is read whatever follows its closing bracket. -/
theorem readRecord_append (distinct : r.secondKey ≠ r.firstKey) {blank text : List UInt8}
    {pair : α × β} (spaced : Blank blank)
    (form : RecordForm r.firstKey r.secondKey First Second text pair) (rest : List UInt8) :
    r.reader.read (blank ++ (text ++ rest)) = .ok (pair, rest) := by
  change r.readRecord _ = _
  cases form with
  | @object _ members a b object one two passed =>
    cases object with
    | items items =>
      have solid : isSpace (ascii '\x7b') = false := rfl
      have other : ascii '\x7b' ≠ ascii '[' := by decide
      have all : AddsAll r First Second (none, none) members (some a, some b) :=
        (addsAll_iff distinct).mpr ⟨one, two, passed⟩
      have read := membersAfter_append first second distinct items all rest
      rw [List.cons_append, readRecord]
      simp only [skipSpace_blank_cons spaced solid, if_neg other, if_pos, read]
      rfl
  | list leads firstForm follows more secondForm last =>
    have solid : isSpace (ascii '[') = false := rfl
    have read := items_append first second leads firstForm follows more secondForm last rest
    simp only [List.append_assoc, List.cons_append, List.nil_append]
    rw [readRecord]
    simp only [skipSpace_blank_cons spaced solid, if_pos, read]
    rfl

/-- The reader of a record takes both of its forms. -/
theorem reads_record (distinct : r.secondKey ≠ r.firstKey) :
    r.reader.Reads (RecordForm r.firstKey r.secondKey First Second) where
  starts := by
    intro text pair form
    cases form with
    | object members =>
      cases members
      exact ⟨ascii '\x7b', _, rfl, rfl, by decide⟩
    | list => exact ⟨ascii '[', _, rfl, rfl, by decide⟩
  sound := by
    intro input pair rest read
    change r.readRecord input = _ at read
    unfold readRecord at read
    split at read
    · cases read
    · next skipped =>
      obtain ⟨blank, spaced, rfl⟩ := blank_of_skipSpace skipped
      split at read
      · next list =>
        subst list
        obtain ⟨text, form, rfl⟩ := recordForm_of_items first second (ok_of_mapError read)
        exact ⟨blank, _, spaced, form, rfl⟩
      split at read
      · next object =>
        subst object
        obtain ⟨text, members, items, all, rfl⟩ :=
          addsAll_of_membersAfter first second (ok_of_mapError read)
        obtain ⟨one, two, passed⟩ := (addsAll_iff distinct).mp all
        exact ⟨blank, _, spaced, .object (.items items) one two passed, rfl⟩
      · cases read
  complete spaced form _ := readRecord_append first second distinct spaced form _

end

end Record

/-! ## Images and whole texts -/

theorem reads_config : config.Reads ConfigForm := by
  have record := Record.reads_record (r := configRecord) reads_word32 reads_word32 (by decide)
  refine (record.map _).of_iff fun text c => ⟨?_, fun form => ⟨_, form, rfl⟩⟩
  rintro ⟨pair, form, rfl⟩
  exact form

theorem reads_table : table.Reads TableForm := by
  refine ((reads_list reads_word64).check Table.ofArray).of_iff fun text t => ⟨?_, ?_⟩
  · rintro ⟨values, form, checked⟩
    exact ⟨values.toList, form, checked⟩
  · rintro ⟨values, form, checked⟩
    exact ⟨values.toArray, form, checked⟩

theorem reads_image : image.Reads ImageForm := by
  have record := Record.reads_record (r := imageRecord) reads_config reads_table (by decide)
  refine (record.check _).of_iff fun text m => ⟨?_, ?_⟩
  · rintro ⟨⟨c, t⟩, form, built⟩
    exact ⟨c, t, form, built⟩
  · rintro ⟨c, t, form, built⟩
    exact ⟨(c, t), form, built⟩

theorem decode_of_reads {r : Reader α} {Text : Form α} (reads : r.Reads Text) (d : List UInt8)
    (a : α) :
    decode r d = .ok a ↔ ∃ before value behind, d = before ++ (value ++ behind) ∧
      Blank before ∧ Blank behind ∧ Text value a := by
  constructor
  · intro decoded
    unfold decode at decoded
    split at decoded
    · cases decoded
    · next b behind read =>
      split at decoded
      · next ended =>
        cases decoded
        obtain ⟨before, value, spaced, form, rfl⟩ := reads.sound read
        exact ⟨before, value, behind, rfl, spaced, skipSpace_eq_nil_iff.mp ended, form⟩
      · cases decoded
  · rintro ⟨before, value, behind, rfl, spaced, left, form⟩
    have stops : Stops behind := by
      have ends : Stops (behind ++ []) := stops_blank left trivial
      rwa [List.append_nil] at ends
    have ended := skipSpace_eq_nil_iff.mpr left
    simp only [decode, reads.complete spaced form stops, ended]

/-- Decoding accepts the texts of images and no others, each for the image that it stands for. -/
theorem decode_eq_ok_iff_imageText (d : List UInt8) (m : Image) :
    decode image d = .ok m ↔ ImageText d m :=
  decode_of_reads reads_image d m

end TableSearch.Json
