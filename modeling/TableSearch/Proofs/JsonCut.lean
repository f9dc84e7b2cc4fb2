import TableSearch.Proofs.JsonForm

/-!
# Text that is cut short

Written text may be cut behind any of its bytes. A cut number leaves a shorter number, so a reader
may still get a value from what is left, but then it has taken all of it: `Exhausts` allows for
that, and `RunsOut` is for readings that fail because the text ends. A bracket that is cut has not
been closed, so lists and records run out if their items are exhausted, whatever the items are.
-/

namespace TableSearch.Json

variable {α β : Type}

/-- The text ends too early: it is the front of a longer one. -/
def Cut (p text : List UInt8) : Prop := p <+: text ∧ p ≠ text

theorem Cut.append {p left right : List UInt8} (cut : Cut p (left ++ right)) :
    Cut p left ∨ ∃ q, p = left ++ q ∧ Cut q right := by
  obtain ⟨⟨behind, whole⟩, strict⟩ := cut
  rcases List.append_eq_append_iff.mp whole with ⟨q, same, -⟩ | ⟨q, same, rest⟩
  · by_cases full : p = left
    · refine .inr ⟨[], by rw [full, List.append_nil], List.nil_prefix, ?_⟩
      rintro rfl
      exact strict (by rw [full, List.append_nil])
    · exact .inl ⟨⟨q, same.symm⟩, full⟩
  · refine .inr ⟨q, same, ⟨behind, rest.symm⟩, ?_⟩
    rintro rfl
    exact strict same

theorem Cut.cons {p text : List UInt8} {b : UInt8} (cut : Cut p (b :: text)) :
    p = [] ∨ ∃ q, p = b :: q ∧ Cut q text := by
  obtain ⟨front, strict⟩ := cut
  rcases List.prefix_cons_iff.mp front with rfl | ⟨q, rfl, inner⟩
  · exact .inl rfl
  · exact .inr ⟨q, rfl, inner, fun same => strict (by rw [same])⟩

theorem Blank.front {blank p : List UInt8} (skipped : Blank blank) (front : p <+: blank) :
    Blank p :=
  fun b mem => skipped b (front.mem mem)

theorem Stops.front {text p : List UInt8} (stops : Stops text) (front : p <+: text) : Stops p := by
  cases p with
  | nil => trivial
  | cons b p =>
    cases text with
    | nil => cases List.prefix_nil.mp front
    | cons c text =>
      obtain ⟨rfl, -⟩ := List.cons_prefix_cons.mp front
      exact stops

/-- The reading fails because the text ends. -/
def RunsOut (read : Except Fault α) : Prop :=
  ∃ fault, read = .error fault ∧ fault.cause.category = .unfinished

theorem runsOut_ended (what : Unfinished) : RunsOut (.error (.ended what) : Except Fault α) :=
  ⟨_, rfl, rfl⟩

/-- The reading fails because the text ends, or takes all of the text. -/
def Exhausts (read : Except Fault (α × List UInt8)) : Prop :=
  RunsOut read ∨ ∃ a, read = .ok (a, [])

/-- The reader exhausts what is left of the written value when it is cut. -/
def Reader.ExhaustsCut (r : Reader α) (written : Written) : Prop :=
  ∀ (layout : Layout) {blank p : List UInt8}, Blank blank → Cut p (written layout) →
    Exhausts (r.read (blank ++ p))

/-- The reader runs out of text when the written value is cut. -/
def Reader.RunsOutOfCut (r : Reader α) (written : Written) : Prop :=
  ∀ (layout : Layout) {blank p : List UInt8}, Blank blank → Cut p (written layout) →
    RunsOut (r.read (blank ++ p))

theorem Reader.RunsOutOfCut.exhausts {r : Reader α} {written : Written}
    (runs : r.RunsOutOfCut written) : r.ExhaustsCut written :=
  fun layout _ _ skipped cut => .inl (runs layout skipped cut)

theorem Reader.RunsOutOfCut.map {r : Reader α} {written : Written} (runs : r.RunsOutOfCut written)
    (f : α → β) : (r.map f).RunsOutOfCut written := by
  intro layout blank p skipped cut
  obtain ⟨fault, read, ended⟩ := runs layout skipped cut
  exact ⟨fault, by simp only [Reader.map, read, Except.map], ended⟩

theorem Reader.RunsOutOfCut.check {r : Reader α} {written : Written}
    (runs : r.RunsOutOfCut written) (f : α → Except Rejection β) :
    (r.check f).RunsOutOfCut written := by
  intro layout blank p skipped cut
  obtain ⟨fault, read, ended⟩ := runs layout skipped cut
  exact ⟨fault, by simp only [Reader.check, read], ended⟩

theorem Reader.ExhaustsCut.map {r : Reader α} {written : Written} (exhausts : r.ExhaustsCut written)
    (f : α → β) : (r.map f).ExhaustsCut written := by
  intro layout blank p skipped cut
  rcases exhausts layout skipped cut with ⟨fault, read, ended⟩ | ⟨a, read⟩
  · exact .inl ⟨fault, by simp only [Reader.map, read, Except.map], ended⟩
  · exact .inr ⟨f a, by simp only [Reader.map, read, Except.map]⟩

/-! ## Numbers -/

/-- What is left of a cut number is a number that is not larger. -/
theorem exists_toDigits_of_front {n : Nat} {p : List Char} (front : p <+: Nat.toDigits 10 n)
    (something : p ≠ []) : ∃ k ≤ n, p = Nat.toDigits 10 k := by
  induction n using Nat.base_induction 10 (by decide) with
  | single n small =>
    rw [Nat.toDigits_of_lt_base small] at front
    rcases List.prefix_cons_iff.mp front with rfl | ⟨q, rfl, inner⟩
    · exact absurd rfl something
    · rw [List.prefix_nil.mp inner]
      exact ⟨n, Nat.le_refl n, (Nat.toDigits_of_lt_base small).symm⟩
  | digit n last small leading ih =>
    rw [← Nat.toDigits_append_toDigits (by decide) leading small, Nat.toDigits_of_lt_base small,
      List.prefix_concat_iff] at front
    rcases front with rfl | front
    · refine ⟨10 * n + last, Nat.le_refl _, ?_⟩
      rw [← Nat.toDigits_append_toDigits (by decide) leading small, Nat.toDigits_of_lt_base small]
    · obtain ⟨k, smaller, same⟩ := ih front
      exact ⟨k, by omega, same⟩

theorem exhausts_integer {limit n : Nat} (fits : limit ≤ largest) (small : n ≤ limit)
    (expected : String) : (integer limit expected).ExhaustsCut (.natural n) := by
  intro layout blank p skipped cut
  obtain ⟨digits, front, rfl⟩ := List.prefix_map_iff.mp cut.1
  by_cases nothing : digits = []
  · refine .inl ⟨.ended .value, ?_, rfl⟩
    rw [nothing, List.map_nil, List.append_nil]
    simp only [integer, readInteger, skipSpace_eq_nil_iff.mpr skipped]
  · obtain ⟨k, smaller, rfl⟩ := exists_toDigits_of_front front nothing
    have takes : (integer limit expected).Takes (.natural k) (.ok k) [] :=
      takes_integer fits (Nat.le_trans smaller small) expected trivial
    cases takes.answers layout skipped with
    | accepted read =>
      rw [List.append_nil] at read
      exact .inr ⟨k, read⟩

theorem exhausts_word32 (n : UInt32) : word32.ExhaustsCut (.natural n.toNat) :=
  (exhausts_integer (by decide) (Nat.le_sub_one_of_lt n.toNat_lt_size) "u32").map _

theorem exhausts_word64 (n : UInt64) : word64.ExhaustsCut (.natural n.toNat) :=
  (exhausts_integer (Nat.le_refl _) (Nat.le_sub_one_of_lt n.toNat_lt_size) "u64").map _

/-! ## Lists -/

/-- A turn in a list runs out if nothing but white space, or a comma with white space, is left. -/
theorem listTurn_front {first : Bool} {layout : Layout} {p : List UInt8}
    (front : p <+: layout.before first) : RunsOut (listTurn first p) := by
  cases first with
  | true =>
    have nothing := skipSpace_eq_nil_iff.mpr (layout.blank_newline.front front)
    simp only [listTurn, nothing]
    exact runsOut_ended _
  | false =>
    have comma : isSpace (ascii ',') = false := rfl
    have other : ascii ',' ≠ ascii ']' := by decide
    rcases List.prefix_cons_iff.mp front with rfl | ⟨q, rfl, inner⟩
    · exact runsOut_ended _
    · have nothing := skipSpace_eq_nil_iff.mpr (layout.blank_newline.front inner)
      simp only [listTurn, skipSpace_cons comma, if_neg other, Bool.false_eq_true, if_neg not_false,
        if_pos, nothing]
      exact runsOut_ended _

/-- Before the end of a list, a turn runs out as well. -/
theorem listTurn_blank (first : Bool) {p : List UInt8} (skipped : Blank p) :
    RunsOut (listTurn first p) := by
  simp only [listTurn, skipSpace_eq_nil_iff.mpr skipped]
  exact runsOut_ended _

theorem itemsAfter_of_runsOut {item : Reader α} {first : Bool} {taken : Array α}
    {input : List UInt8} (turn : RunsOut (listTurn first input)) :
    RunsOut (itemsAfter item first taken input) := by
  obtain ⟨fault, ended, category⟩ := turn
  exact ⟨fault, by rw [itemsAfter_eq, ended], category⟩

theorem itemsAfter_of_item {item : Reader α} {first : Bool} {taken : Array α}
    {input behind : List UInt8} (turn : listTurn first input = .ok (.item behind))
    (value : RunsOut (item.read behind)) : RunsOut (itemsAfter item first taken input) := by
  obtain ⟨fault, ended, category⟩ := value
  exact ⟨fault, by simp only [itemsAfter_eq item first, turn, ended], category⟩

section Items

variable {item : Reader α} {write : α → Written}

/-- An item that is cut, or behind which the text is cut, lets the list run out. -/
theorem itemsAfter_cut {first : Bool} {taken : Array α} {written : Written} {a : α}
    {tail p : List UInt8} {layout : Layout} (exhausts : item.ExhaustsCut written)
    (takes : ∀ rest, Stops rest → item.Takes written (.ok a) rest) (stops : Stops tail)
    (others : ∀ {q}, Cut q tail → RunsOut (itemsAfter item false (taken.push a) q))
    (cut : Cut p (layout.before first ++ (written layout ++ tail))) :
    RunsOut (itemsAfter item first taken p) := by
  rcases cut.append with before | ⟨q, rfl, inner⟩
  · exact itemsAfter_of_runsOut (listTurn_front before.1)
  · cases q with
    | nil =>
      rw [List.append_nil]
      exact itemsAfter_of_runsOut (listTurn_front (List.prefix_refl _))
    | cons b q =>
      obtain ⟨c, behind, same, solid, start⟩ := (takes [] trivial).opens layout
      have front := inner.1
      rw [same, List.cons_append, List.cons_prefix_cons] at front
      obtain ⟨rfl, -⟩ := front
      have turn := listTurn_item (layout.before_before first) ⟨b, q, rfl, solid, start⟩
      rcases inner.append with within | ⟨q', whole, rest⟩
      · rcases exhausts layout blank_nil within with ended | ⟨shorter, read⟩
        · exact itemsAfter_of_item turn ended
        · rw [itemsAfter_item turn read]
          exact itemsAfter_of_runsOut (listTurn_blank false blank_nil)
      · rw [whole] at turn ⊢
        rw [itemsAfter_item turn ((takes q' (stops.front rest.1)).reads layout)]
        exact others rest

/-- The end of the list is never reached, so the items behind a first one run out. -/
theorem itemsAfter_others_cut {values : List α}
    (exhausts : ∀ a ∈ values, item.ExhaustsCut (write a))
    (takes : ∀ a ∈ values, ∀ rest, Stops rest → item.Takes (write a) (.ok a) rest)
    {layout : Layout} {taken : Array α} {p : List UInt8}
    (cut : Cut p (Written.others (values.map write) layout [])) :
    RunsOut (itemsAfter item false taken p) := by
  induction values generalizing taken p with
  | nil =>
    have front := cut.1
    have strict := cut.2
    change p <+: layout.newline ++ [ascii ']'] at front
    rcases List.prefix_concat_iff.mp front with full | front
    · exact absurd full strict
    · exact itemsAfter_of_runsOut (listTurn_blank false (layout.blank_newline.front front))
  | cons a values ih =>
    have form : Written.others ((a :: values).map write) layout [] =
        layout.inner.before false ++ (write a layout.inner ++
          Written.others (values.map write) layout []) := by
      rw [List.map_cons, others_cons]
    rw [form] at cut
    exact itemsAfter_cut (exhausts a (List.mem_cons_self ..)) (takes a (List.mem_cons_self ..))
      (stops_others (values.map write) layout [])
      (fun behind => ih (fun b mem => exhausts b (List.mem_cons_of_mem _ mem))
        (fun b mem => takes b (List.mem_cons_of_mem _ mem)) behind) cut

theorem runsOut_list {values : List α} (exhausts : ∀ a ∈ values, item.ExhaustsCut (write a))
    (takes : ∀ a ∈ values, ∀ rest, Stops rest → item.Takes (write a) (.ok a) rest) :
    (list item).RunsOutOfCut (.list (values.map write)) := by
  intro layout blank p skipped cut
  have solid : isSpace (ascii '[') = false := rfl
  change RunsOut (readList item _)
  have opened {inner : List UInt8}
      (form : Written.list (values.map write) layout = ascii '[' :: inner)
      (inside : ∀ {q}, Cut q inner → RunsOut (itemsAfter item true #[] q)) :
      RunsOut (readList item (blank ++ p)) := by
    rw [form] at cut
    rcases cut.cons with rfl | ⟨q, rfl, within⟩
    · rw [List.append_nil, readList, skipSpace_eq_nil_iff.mpr skipped]
      exact runsOut_ended _
    · rw [readList]
      simp only [skipSpace_blank_cons skipped solid, if_pos]
      exact inside within
  cases values with
  | nil =>
    refine opened rfl fun within => ?_
    rcases within.cons with rfl | ⟨q, rfl, none⟩
    · exact itemsAfter_of_runsOut (listTurn_blank true blank_nil)
    · exact absurd (List.prefix_nil.mp none.1) none.2
  | cons a values =>
    have form := list_append (write a) (values.map write) layout []
    rw [List.append_nil] at form
    refine opened form fun {q} within => ?_
    have start : Cut q (layout.inner.before true ++ (write a layout.inner ++
        Written.others (values.map write) layout [])) := within
    exact itemsAfter_cut (exhausts a (List.mem_cons_self ..)) (takes a (List.mem_cons_self ..))
      (stops_others (values.map write) layout []) (fun behind => itemsAfter_others_cut
        (fun b mem => exhausts b (List.mem_cons_of_mem _ mem))
        (fun b mem => takes b (List.mem_cons_of_mem _ mem)) behind) start

end Items

/-! ## Records -/

theorem objectTurn_front {first : Bool} {layout : Layout} {p : List UInt8}
    (front : p <+: layout.before first) : RunsOut (objectTurn first p) := by
  cases first with
  | true =>
    have nothing := skipSpace_eq_nil_iff.mpr (layout.blank_newline.front front)
    simp only [objectTurn, nothing]
    exact runsOut_ended _
  | false =>
    have comma : isSpace (ascii ',') = false := rfl
    have other : ascii ',' ≠ ascii '\x7d' := by decide
    rcases List.prefix_cons_iff.mp front with rfl | ⟨q, rfl, inner⟩
    · exact runsOut_ended _
    · have nothing := skipSpace_eq_nil_iff.mpr (layout.blank_newline.front inner)
      simp only [objectTurn, skipSpace_cons comma, if_neg other, Bool.false_eq_true,
        if_neg not_false, if_pos, nothing]
      exact runsOut_ended _

theorem objectTurn_blank (first : Bool) {p : List UInt8} (skipped : Blank p) :
    RunsOut (objectTurn first p) := by
  simp only [objectTurn, skipSpace_eq_nil_iff.mpr skipped]
  exact runsOut_ended _

namespace Record

variable {r : Record α β}

theorem membersAfter_of_runsOut {first : Bool} {seen : Members α β} {input : List UInt8}
    (turn : RunsOut (objectTurn first input)) : RunsOut (r.membersAfter first seen input) := by
  obtain ⟨fault, ended, category⟩ := turn
  exact ⟨fault, by rw [membersAfter_eq, ended], category⟩

/-- An object runs out in a member or behind it. -/
theorem membersAfter_of_member {first : Bool} {seen : Members α β} {input behind : List UInt8}
    (turn : objectTurn first input = .ok (.item behind))
    (step : RunsOut (r.member seen behind) ∨ ∃ more rest, r.member seen behind = .ok (more, rest) ∧
      RunsOut (r.membersAfter false more rest)) :
    RunsOut (r.membersAfter first seen input) := by
  rcases step with ⟨fault, ended, category⟩ | ⟨more, rest, read, fault, ended, category⟩
  · exact ⟨fault, by simp only [membersAfter_eq first, turn, ended], category⟩
  · rw [membersAfter_member turn read]
    exact ⟨fault, ended, category⟩

/-- The value of a member is cut, or the text is cut behind it. -/
theorem memberValue_cut {value : Reader α} {written : Written} {a : α} {layout : Layout}
    {tail p : List UInt8} (exhausts : value.ExhaustsCut written)
    (takes : ∀ rest, Stops rest → value.Takes written (.ok a) rest) (stops : Stops tail)
    (cut : Cut p (ascii ':' :: (layout.behindColon ++ (written layout ++ tail)))) :
    Exhausts (memberValue value p) ∨ ∃ q, Cut q tail ∧ memberValue value p = .ok (a, q) := by
  have solid : isSpace (ascii ':') = false := rfl
  have between (input : List UInt8) :
      memberValue value (ascii ':' :: input) = value.read input := by
    simp only [memberValue, colon, skipSpace_cons solid, if_pos]
  rcases cut.cons with rfl | ⟨q, rfl, inner⟩
  · exact .inl (.inl ⟨.ended .object, rfl, rfl⟩)
  · rw [between]
    rcases inner.append with before | ⟨q, rfl, within⟩
    · -- only white space is left, as if the value were cut before its first byte
      have nothing : Cut [] (written layout) := by
        obtain ⟨b, behind, same, -⟩ := (takes [] trivial).opens layout
        exact ⟨List.nil_prefix, by simp [same]⟩
      have alone := exhausts layout (layout.blank_behindColon.front before.1) nothing
      rw [List.append_nil] at alone
      exact .inl alone
    · rcases within.append with front | ⟨q, rfl, rest⟩
      · exact .inl (exhausts layout layout.blank_behindColon front)
      · have answers := (takes q (stops.front rest.1)).answers layout layout.blank_behindColon
        cases answers with
        | accepted read => exact .inr ⟨q, rest, read⟩

theorem text_cut {key : String} (plain : Plain key) {p : List UInt8}
    (front : p <+: key.toList.map ascii) : RunsOut (text p) := by
  have stop : p.dropWhile isPlain = [] := by
    have dropped : (p ++ []).dropWhile isPlain = [] :=
      List.dropWhile_append_of_pos fun b mem => isPlain_of_mem_key plain b (front.mem mem)
    rwa [List.append_nil] at dropped
  refine ⟨.ended .text, ?_, rfl⟩
  rw [text, textBytesAfter]
  split
  · next ended =>
    split at ended
    · exact congrArg _ (Except.error.inj ended.symm)
    · next other => rw [stop] at other; cases other
  · next read =>
    split at read
    · cases read
    · next other => rw [stop] at other; cases other

theorem member_of_text {seen : Members α β} {input : List UInt8} (key : RunsOut (text input)) :
    RunsOut (r.member seen input) := by
  obtain ⟨fault, ended, category⟩ := key
  exact ⟨fault, by simp only [member, ended], category⟩

/-- An object runs out in a member that is cut, or behind it. -/
theorem membersAfter_cut {γ : Type} {first : Bool} {seen : Members α β} {key : String}
    {value : Reader γ} {written : Written} {c : γ} {layout : Layout} {tail p : List UInt8}
    (add : γ → Members α β) (plain : Plain key)
    (member : ∀ {behind rest}, text behind = .ok (key, rest) →
      r.member seen behind = (memberValue value rest).map fun (c, rest) => (add c, rest))
    (exhausts : value.ExhaustsCut written)
    (takes : ∀ rest, Stops rest → value.Takes written (.ok c) rest) (stops : Stops tail)
    (others : ∀ {q}, Cut q tail → RunsOut (r.membersAfter false (add c) q))
    (cut : Cut p (layout.before first ++ (Written.member key written layout ++ tail))) :
    RunsOut (r.membersAfter first seen p) := by
  rcases cut.append with before | ⟨q, rfl, inner⟩
  · exact membersAfter_of_runsOut (objectTurn_front before.1)
  · rw [Written.member, written_text_plain plain] at inner
    simp only [List.cons_append, List.append_assoc, List.nil_append] at inner
    rcases inner.cons with rfl | ⟨q, rfl, named⟩
    · rw [List.append_nil]
      exact membersAfter_of_runsOut (objectTurn_front (List.prefix_refl _))
    · refine membersAfter_of_member (objectTurn_item (layout.before_before first) q) ?_
      rcases named.append with front | ⟨q, rfl, closing⟩
      · exact .inl (member_of_text (text_cut plain front.1))
      · rcases closing.cons with rfl | ⟨q, rfl, valued⟩
        · rw [List.append_nil]
          exact .inl (member_of_text (text_cut plain (List.prefix_refl _)))
        · rw [member (text_key plain q)]
          rcases memberValue_cut exhausts takes stops valued with
            (⟨fault, ended, category⟩ | ⟨shorter, read⟩) | ⟨q', rest, read⟩
          · exact .inl ⟨fault, by rw [ended, Except.map], category⟩
          · -- the value has been cut to another one, behind which the object does not end
            refine .inr ⟨add shorter, [], by rw [read, Except.map], ?_⟩
            exact membersAfter_of_runsOut (objectTurn_blank false blank_nil)
          · exact .inr ⟨add c, q', by rw [read, Except.map], others rest⟩

theorem member_first {seen : Members α β} (unseen : seen.1 = none) {behind rest : List UInt8}
    (key : text behind = .ok (r.firstKey, rest)) :
    r.member seen behind =
      (memberValue r.first rest).map fun (a, rest) => ((some a, seen.2), rest) := by
  have fresh : ¬ seen.1.isSome = true := by simp [unseen]
  simp only [member, key, if_pos, if_neg fresh]
  cases memberValue r.first rest <;> rfl

theorem member_second (distinct : r.secondKey ≠ r.firstKey) {seen : Members α β}
    (unseen : seen.2 = none) {behind rest : List UInt8}
    (key : text behind = .ok (r.secondKey, rest)) :
    r.member seen behind =
      (memberValue r.second rest).map fun (b, rest) => ((seen.1, some b), rest) := by
  have fresh : ¬ seen.2.isSome = true := by simp [unseen]
  simp only [member, key, if_neg distinct, if_pos, if_neg fresh]
  cases memberValue r.second rest <;> rfl

/-- A record that is written as an object is not read from less than all of it. -/
theorem runsOut_object {one two : Written} {a : α} {b : β} (distinct : r.secondKey ≠ r.firstKey)
    (firstPlain : Plain r.firstKey) (secondPlain : Plain r.secondKey)
    (first : r.first.ExhaustsCut one) (second : r.second.ExhaustsCut two)
    (firstTakes : ∀ rest, Stops rest → r.first.Takes one (.ok a) rest)
    (secondTakes : ∀ rest, Stops rest → r.second.Takes two (.ok b) rest) :
    r.reader.RunsOutOfCut (r.write .object one two) := by
  intro layout blank p skipped cut
  have solid : isSpace (ascii '\x7b') = false := rfl
  have other : ascii '\x7b' ≠ ascii '[' := by decide
  have form := object_append r.firstKey r.secondKey one two layout []
  rw [List.append_nil] at form
  rw [write, form] at cut
  change RunsOut (r.readRecord _)
  rcases cut.cons with rfl | ⟨q, rfl, inner⟩
  · rw [List.append_nil, readRecord, skipSpace_eq_nil_iff.mpr skipped]
    exact runsOut_ended _
  · have closing : Stops (layout.newline ++ [ascii '\x7d']) :=
      stops_closing _ (.inr rfl) layout.blank_newline []
    have members : RunsOut (r.membersAfter true (none, none) q) := by
      refine membersAfter_cut (fun a => (some a, none)) firstPlain (member_first rfl) first
        firstTakes (stops_comma _) ?_ inner
      intro q behind
      refine membersAfter_cut (fun b => (some a, some b)) secondPlain (member_second distinct rfl)
        second secondTakes closing ?_ behind
      intro q last
      rcases List.prefix_concat_iff.mp last.1 with full | front
      · exact absurd full last.2
      · exact membersAfter_of_runsOut (objectTurn_blank false (layout.blank_newline.front front))
    obtain ⟨fault, ended, category⟩ := members
    refine ⟨fault.settle leaveObject, ?_, ?_⟩
    · simp only [readRecord, skipSpace_blank_cons skipped solid, if_neg other, if_pos, ended]
      rfl
    · rw [Fault.cause_settle]
      exact category

end Record

/-! ## Images -/

theorem runsOut_config (c : Config) : config.RunsOutOfCut (.ofConfig c) :=
  Reader.RunsOutOfCut.map (Record.runsOut_object (r := configRecord) (by decide) (by decide)
    (by decide) (exhausts_word32 c.right) (exhausts_word32 c.failed)
    (fun _ stops => takes_word32 c.right stops) (fun _ stops => takes_word32 c.failed stops)) _

theorem runsOut_table (t : Table) : table.RunsOutOfCut (.ofTable t) :=
  Reader.RunsOutOfCut.check (runsOut_list (fun value _ => exhausts_word64 value)
    (fun value _ _ stops => takes_word64 value stops)) _

theorem runsOut_image (m : Image) : image.RunsOutOfCut (.ofImage m) := by
  refine Reader.RunsOutOfCut.check (Record.runsOut_object (r := imageRecord) (a := m.config)
    (b := m.table) (by decide) (by decide) (by decide) (runsOut_config m.config).exhausts
    (runsOut_table m.table).exhausts (fun rest _ => takes_config .object m.config rest) ?_) _
  intro rest _
  have takes := takes_values m.table.values.toList rest
  rw [Array.toArray_toList, Table.ofArray_values] at takes
  exact takes

/-- A written image that is cut ends too early for its decoder. -/
theorem decode_cut (m : Image) (layout : Layout) {p : List UInt8}
    (cut : Cut p (Written.ofImage m layout)) :
    ∃ failure, decode image p = .error failure ∧ failure.cause.category = .unfinished := by
  obtain ⟨fault, ended, category⟩ := runsOut_image m layout blank_nil cut
  rw [List.nil_append] at ended
  exact ⟨fault.failure p, by simp only [decode, ended], category⟩

end TableSearch.Json
