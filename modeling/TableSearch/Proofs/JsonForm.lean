import TableSearch.Json.Image
import TableSearch.Proofs.Acceptance
import TableSearch.Proofs.JsonTokens

/-!
# Reading back written values

`Reader.Takes` says what a reader makes of a written value before some rest, in every layout and
behind any white space: it returns a value and the rest, or a fault with the rule that the value
breaks. It passes through changes and checks of a value, through lists and through records in each
of their forms, and from a reader to the whole text.
-/

namespace TableSearch.Json

variable {α β : Type}

/-- A reading returns a value that the rules accept before `rest`, or a fault with the rule that is
broken. -/
inductive Answers (rest : List UInt8) (read : Except Fault (α × List UInt8)) :
    Except Rejection α → Prop
  | accepted {a : α} : read = .ok (a, rest) → Answers rest read (.ok a)
  | refused {rejection : Rejection} {fault : Fault} : read = .error fault →
    fault.cause = .rejected rejection → Answers rest read (.error rejection)

theorem Answers.settle {outcome : Except Rejection α} {rest : List UInt8}
    {read : Except Fault (α × List UInt8)} (answers : Answers rest read outcome)
    (close : List UInt8 → List UInt8) :
    Answers rest (read.mapError (Fault.settle close)) outcome := by
  cases answers with
  | accepted read => exact .accepted (by rw [read]; rfl)
  | @refused rejection fault read cause =>
    exact .refused (by rw [read]; rfl) ((fault.cause_settle close).trans cause)

/-- The value starts as one in every layout. -/
def Written.Opens (written : Written) : Prop := ∀ layout, Starts (written layout)

/-- The reader makes `outcome` of a written value before `rest`. -/
structure Reader.Takes (r : Reader α) (written : Written) (outcome : Except Rejection α)
    (rest : List UInt8) : Prop where
  opens : written.Opens
  answers : ∀ (layout : Layout) {blank : List UInt8}, Blank blank →
    Answers rest (r.read (blank ++ (written layout ++ rest))) outcome

theorem Reader.Takes.alone {r : Reader α} {written : Written} {outcome : Except Rejection α}
    {rest : List UInt8} (takes : r.Takes written outcome rest) (layout : Layout) :
    Answers rest (r.read (written layout ++ rest)) outcome :=
  takes.answers layout blank_nil

theorem Reader.Takes.reads {r : Reader α} {written : Written} {a : α} {rest : List UInt8}
    (takes : r.Takes written (.ok a) rest) (layout : Layout) :
    r.read (written layout ++ rest) = .ok (a, rest) := by
  cases takes.alone layout with
  | accepted read => exact read

theorem Reader.Takes.map {r : Reader α} {written : Written} {outcome : Except Rejection α}
    {rest : List UInt8} (takes : r.Takes written outcome rest) (f : α → β) :
    (r.map f).Takes written (outcome.map f) rest where
  opens := takes.opens
  answers layout blank skipped := by
    cases takes.answers layout skipped with
    | accepted read => exact .accepted (by simp only [Reader.map, read, Except.map])
    | refused read cause => exact .refused (by simp only [Reader.map, read, Except.map]) cause

theorem Reader.Takes.check {r : Reader α} {written : Written} {outcome : Except Rejection α}
    {rest : List UInt8} (takes : r.Takes written outcome rest) (f : α → Except Rejection β) :
    (r.check f).Takes written (outcome.bind f) rest where
  opens := takes.opens
  answers layout blank skipped := by
    cases takes.answers layout skipped with
    | @accepted a read =>
      rw [Except.bind]
      cases checked : f a with
      | ok b => exact .accepted (by simp only [Reader.check, read, checked])
      | error rejection => exact .refused (by simp only [Reader.check, read, checked]; rfl) rfl
    | refused read cause => exact .refused (by simp only [Reader.check, read]) cause

/-! ## Integers -/

theorem isSpace_of_isDigit {b : UInt8} (digit : isDigit b = true) : isSpace b = false := by
  cases space : isSpace b with
  | false => rfl
  | true =>
    have other := (stops_of_isSpace space []).1
    rw [digit] at other
    cases other

theorem opens_natural (n : Nat) : (Written.natural n).Opens := by
  intro layout
  obtain ⟨b, others, same, digit⟩ := exists_cons_of_natural n layout
  refine ⟨b, others, same, isSpace_of_isDigit digit, ?_⟩
  rintro rfl
  exact absurd digit (by decide)

theorem takes_integer {limit n : Nat} (fits : limit ≤ largest) (small : n ≤ limit)
    (expected : String) {rest : List UInt8} (stops : Stops rest) :
    (integer limit expected).Takes (.natural n) (.ok n) rest where
  opens := opens_natural n
  answers layout blank skipped := by
    obtain ⟨b, others, same, digit⟩ := exists_cons_of_natural n layout
    have solid := isSpace_of_isDigit digit
    have unsigned : b ≠ ascii '-' := by
      rintro rfl
      exact absurd digit (by decide)
    have read := number_natural (Nat.le_trans small fits) stops layout
    rw [same, List.cons_append] at read ⊢
    apply Answers.accepted
    simp only [integer, readInteger, skipSpace_blank_cons skipped solid, if_neg unsigned,
      if_pos digit, read, keepInteger, if_pos small]

theorem takes_word32 (n : UInt32) {rest : List UInt8} (stops : Stops rest) :
    word32.Takes (.natural n.toNat) (.ok n) rest := by
  have small : n.toNat ≤ UInt32.size - 1 := Nat.le_sub_one_of_lt n.toNat_lt_size
  have takes := (takes_integer (by decide) small "u32" stops).map UInt32.ofNat
  rw [Except.map, UInt32.ofNat_toNat] at takes
  exact takes

theorem takes_word64 (n : UInt64) {rest : List UInt8} (stops : Stops rest) :
    word64.Takes (.natural n.toNat) (.ok n) rest := by
  have small : n.toNat ≤ UInt64.size - 1 := Nat.le_sub_one_of_lt n.toNat_lt_size
  have takes := (takes_integer (Nat.le_refl _) small "u64" stops).map UInt64.ofNat
  rw [Except.map, UInt64.ofNat_toNat] at takes
  exact takes

/-! ## Turns of lists and objects -/

/-- What a layout puts before an item. -/
def Layout.before (first : Bool) (layout : Layout) : List UInt8 :=
  if first then layout.newline else ascii ',' :: layout.newline

theorem Layout.before_before (first : Bool) (layout : Layout) :
    Before first (layout.before first) := by
  cases first with
  | true => exact .first layout.blank_newline
  | false => exact .next blank_nil layout.blank_newline

theorem listTurn_closing (first : Bool) {blank : List UInt8} (skipped : Blank blank)
    (rest : List UInt8) : listTurn first (blank ++ ascii ']' :: rest) = .ok (.closing rest) := by
  have solid : isSpace (ascii ']') = false := rfl
  simp only [listTurn, skipSpace_blank_cons skipped solid, if_pos]

theorem listTurn_item {first : Bool} {before text : List UInt8} (leads : Before first before)
    (starts : Starts text) : listTurn first (before ++ text) = .ok (.item text) := by
  obtain ⟨b, behind, rfl, solid, item⟩ := starts
  cases leads with
  | first skipped =>
    simp only [listTurn, skipSpace_blank_cons skipped solid, if_neg item, if_pos]
  | next spaced skipped =>
    have comma : isSpace (ascii ',') = false := rfl
    have other : ascii ',' ≠ ascii ']' := by decide
    simp only [List.append_assoc, List.cons_append, listTurn, skipSpace_blank_cons spaced comma,
      if_neg other, Bool.false_eq_true, if_neg not_false, if_pos,
      skipSpace_blank_cons skipped solid, if_neg item]

theorem objectTurn_closing (first : Bool) {blank : List UInt8} (skipped : Blank blank)
    (rest : List UInt8) :
    objectTurn first (blank ++ ascii '\x7d' :: rest) = .ok (.closing rest) := by
  have solid : isSpace (ascii '\x7d') = false := rfl
  simp only [objectTurn, skipSpace_blank_cons skipped solid, if_pos]

theorem objectTurn_item {first : Bool} {before : List UInt8} (leads : Before first before)
    (rest : List UInt8) : objectTurn first (before ++ ascii '"' :: rest) = .ok (.item rest) := by
  have solid : isSpace (ascii '"') = false := rfl
  have closing : ascii '"' ≠ ascii '\x7d' := by decide
  cases leads with
  | first skipped =>
    simp only [objectTurn, skipSpace_blank_cons skipped solid, if_neg closing, if_pos]
  | next spaced skipped =>
    have comma : isSpace (ascii ',') = false := rfl
    have other : ascii ',' ≠ ascii '\x7d' := by decide
    simp only [List.append_assoc, List.cons_append, objectTurn, skipSpace_blank_cons spaced comma,
      if_neg other, Bool.false_eq_true, if_neg not_false, if_pos,
      skipSpace_blank_cons skipped solid]

/-! ## Lists -/

theorem stops_closing (b : UInt8) (closing : b = ascii ']' ∨ b = ascii '\x7d') {blank : List UInt8}
    (skipped : Blank blank) (rest : List UInt8) : Stops (blank ++ b :: rest) := by
  apply stops_blank skipped
  rcases closing with rfl | rfl
  all_goals exact ⟨rfl, by decide, rfl⟩

theorem stops_comma (rest : List UInt8) : Stops (ascii ',' :: rest) :=
  ⟨rfl, by decide, rfl⟩

/-- The items of a list behind its first, up to the end of the list. -/
def Written.others (items : List Written) (layout : Layout) (rest : List UInt8) : List UInt8 :=
  (items.flatMap fun item => ascii ',' :: (layout.inner.newline ++ item layout.inner)) ++
    (layout.newline ++ ascii ']' :: rest)

theorem list_append (item : Written) (items : List Written) (layout : Layout)
    (rest : List UInt8) :
    Written.list (item :: items) layout ++ rest =
      ascii '[' :: (layout.inner.before true ++ (item layout.inner ++
        Written.others items layout rest)) := by
  simp only [Written.list, Written.bracketed, Written.others, List.cons_append, List.append_assoc,
    List.nil_append, Layout.before, if_pos]

theorem others_cons (item : Written) (items : List Written) (layout : Layout)
    (rest : List UInt8) :
    Written.others (item :: items) layout rest =
      layout.inner.before false ++ (item layout.inner ++ Written.others items layout rest) := by
  simp only [Written.others, List.flatMap_cons, List.cons_append, List.append_assoc, Layout.before,
    Bool.false_eq_true, if_neg not_false]

theorem stops_others (items : List Written) (layout : Layout) (rest : List UInt8) :
    Stops (Written.others items layout rest) := by
  cases items with
  | nil => exact stops_closing _ (.inl rfl) layout.blank_newline rest
  | cons item items => exact stops_comma _

/-- One turn of a list. -/
theorem itemsAfter_eq (item : Reader α) (first : Bool) (taken : Array α) (input : List UInt8) :
    itemsAfter item first taken input =
      match listTurn first input with
      | .error fault => .error fault
      | .ok (.closing rest) => .ok (taken, rest)
      | .ok (.item behind) =>
        match item.read behind with
        | .error fault => .error fault
        | .ok (a, further) => itemsAfter item false (taken.push a) further := by
  rw [itemsAfter]
  split
  · next turn => rw [turn]
  · next turn => rw [turn]
  · next turn =>
    split
    all_goals next read => simp only [turn, read]

theorem itemsAfter_closing {item : Reader α} {first : Bool} {taken : Array α}
    {input rest : List UInt8} (turn : listTurn first input = .ok (.closing rest)) :
    itemsAfter item first taken input = .ok (taken, rest) := by
  rw [itemsAfter_eq, turn]

theorem itemsAfter_item {item : Reader α} {first : Bool} {taken : Array α}
    {input behind further : List UInt8} {a : α} (turn : listTurn first input = .ok (.item behind))
    (value : item.read behind = .ok (a, further)) :
    itemsAfter item first taken input = itemsAfter item false (taken.push a) further := by
  simp only [itemsAfter_eq item first, turn, value]

section Items

variable {item : Reader α} {write : α → Written}

/-- Behind the items that have been taken, the others follow in their order. -/
theorem itemsAfter_others {values : List α}
    (each : ∀ a ∈ values, ∀ rest, Stops rest → item.Takes (write a) (.ok a) rest)
    (layout : Layout) (taken : Array α) (rest : List UInt8) :
    itemsAfter item false taken (Written.others (values.map write) layout rest) =
      .ok (taken ++ values.toArray, rest) := by
  induction values generalizing taken with
  | nil =>
    rw [Array.append_empty]
    exact itemsAfter_closing (listTurn_closing false layout.blank_newline rest)
  | cons a values ih =>
    -- what follows the item starts with a comma or ends the list, so that a number stops before it
    have takes := each a (List.mem_cons_self ..) _ (stops_others (values.map write) layout rest)
    have turn := listTurn_item (layout.inner.before_before false)
      ((takes.opens layout.inner).append (Written.others (values.map write) layout rest))
    have form : Written.others ((a :: values).map write) layout rest =
        layout.inner.before false ++ (write a layout.inner ++
          Written.others (values.map write) layout rest) := by
      rw [List.map_cons, others_cons]
    rw [form, itemsAfter_item turn (takes.reads layout.inner),
      ih fun b mem => each b (List.mem_cons_of_mem _ mem)]
    simp

theorem takes_list {values : List α}
    (each : ∀ a ∈ values, ∀ rest, Stops rest → item.Takes (write a) (.ok a) rest)
    (rest : List UInt8) :
    (list item).Takes (Written.list (values.map write)) (.ok values.toArray) rest where
  opens layout := by
    cases values with
    | nil => exact ⟨ascii '[', _, rfl, rfl, by decide⟩
    | cons a values => exact ⟨ascii '[', _, rfl, rfl, by decide⟩
  answers layout blank skipped := by
    have solid : isSpace (ascii '[') = false := rfl
    apply Answers.accepted
    change readList item _ = _
    cases values with
    | nil =>
      have form : Written.list (([] : List α).map write) layout ++ rest =
          ascii '[' :: ascii ']' :: rest := rfl
      rw [form, readList]
      simp only [skipSpace_blank_cons skipped solid, if_pos]
      exact itemsAfter_closing (listTurn_closing true blank_nil rest)
    | cons a values =>
      have takes := each a (List.mem_cons_self ..) _ (stops_others (values.map write) layout rest)
      have turn := listTurn_item (layout.inner.before_before true)
        ((takes.opens layout.inner).append (Written.others (values.map write) layout rest))
      rw [List.map_cons, list_append, readList]
      simp only [skipSpace_blank_cons skipped solid, if_pos]
      rw [itemsAfter_item turn (takes.reads layout.inner),
        itemsAfter_others fun b mem => each b (List.mem_cons_of_mem _ mem)]
      simp

end Items

/-! ## Records -/

theorem objectTurn_member {key : String} (plain : Plain key) (written : Written) (first : Bool)
    (layout : Layout) (rest : List UInt8) :
    ∃ behind, objectTurn first (layout.before first ++
        (Written.member key written layout ++ rest)) = .ok (.item behind) ∧
      text behind =
        .ok (key, ascii ':' :: (layout.behindColon ++ (written layout ++ rest))) := by
  obtain ⟨behind, opening, named⟩ := text_plain plain layout
    (ascii ':' :: (layout.behindColon ++ (written layout ++ rest)))
  have form : Written.member key written layout ++ rest = ascii '"' :: behind := by
    rw [← opening, Written.member]
    simp only [List.cons_append, List.append_assoc]
  rw [form]
  exact ⟨behind, objectTurn_item (layout.before_before first) behind, named⟩

namespace Record

variable {r : Record α β}

theorem answers_memberValue {value : Reader α} {written : Written}
    {outcome : Except Rejection α} {rest : List UInt8} (takes : value.Takes written outcome rest)
    (layout : Layout) :
    Answers rest
      (memberValue value (ascii ':' :: (layout.behindColon ++ (written layout ++ rest)))) outcome := by
  have solid : isSpace (ascii ':') = false := rfl
  have between (input : List UInt8) : colon (ascii ':' :: input) = .ok input := by
    simp only [colon, skipSpace_cons solid, if_pos]
  rw [memberValue, between]
  exact takes.answers layout layout.blank_behindColon

theorem answers_member_first {seen : Members α β} {written : Written}
    {outcome : Except Rejection α} {behind rest : List UInt8} {layout : Layout}
    (unseen : seen.1 = none) (takes : r.first.Takes written outcome rest)
    (key : text behind =
      .ok (r.firstKey, ascii ':' :: (layout.behindColon ++ (written layout ++ rest)))) :
    Answers rest (r.member seen behind) (outcome.map fun a => (some a, seen.2)) := by
  have fresh : ¬ seen.1.isSome = true := by simp [unseen]
  cases answers_memberValue takes layout with
  | accepted read => exact .accepted (by simp only [member, key, if_pos, if_neg fresh, read])
  | refused read cause =>
    exact .refused (by simp only [member, key, if_pos, if_neg fresh, read]) cause

theorem answers_member_second {seen : Members α β} {written : Written}
    {outcome : Except Rejection β} {behind rest : List UInt8} {layout : Layout}
    (distinct : r.secondKey ≠ r.firstKey) (unseen : seen.2 = none)
    (takes : r.second.Takes written outcome rest)
    (key : text behind =
      .ok (r.secondKey, ascii ':' :: (layout.behindColon ++ (written layout ++ rest)))) :
    Answers rest (r.member seen behind) (outcome.map fun b => (seen.1, some b)) := by
  have fresh : ¬ seen.2.isSome = true := by simp [unseen]
  cases answers_memberValue takes layout with
  | accepted read =>
    exact .accepted (by simp only [member, key, if_neg distinct, if_pos, if_neg fresh, read])
  | refused read cause =>
    exact .refused (by simp only [member, key, if_neg distinct, if_pos, if_neg fresh, read])
      cause

/-- One turn of an object. -/
theorem membersAfter_eq (first : Bool) (seen : Members α β) (input : List UInt8) :
    r.membersAfter first seen input =
      match objectTurn first input with
      | .error fault => .error fault
      | .ok (.closing rest) => r.complete seen rest
      | .ok (.item behind) =>
        match r.member seen behind with
        | .error fault => .error fault
        | .ok (more, further) => r.membersAfter false more further := by
  rw [membersAfter]
  split
  · next turn => rw [turn]
  · next turn => rw [turn]
  · next turn =>
    split
    all_goals next read => simp only [turn, read]

theorem membersAfter_closing {first : Bool} {seen : Members α β} {input rest : List UInt8}
    (turn : objectTurn first input = .ok (.closing rest)) :
    r.membersAfter first seen input = r.complete seen rest := by
  rw [membersAfter_eq, turn]

theorem membersAfter_member {first : Bool} {seen more : Members α β}
    {input behind further : List UInt8} (turn : objectTurn first input = .ok (.item behind))
    (step : r.member seen behind = .ok (more, further)) :
    r.membersAfter first seen input = r.membersAfter false more further := by
  simp only [membersAfter_eq first, turn, step]

/-- A member that breaks a rule ends the object, and one that does not lets the others follow. -/
theorem answers_membersAfter {γ : Type} {first : Bool} {seen : Members α β}
    {input behind further rest : List UInt8} {outcome : Except Rejection γ}
    {add : γ → Members α β} {next : γ → Except Rejection (α × β)}
    (turn : objectTurn first input = .ok (.item behind))
    (step : Answers further (r.member seen behind) (outcome.map add))
    (others : ∀ c, outcome = .ok c →
      Answers rest (r.membersAfter false (add c) further) (next c)) :
    Answers rest (r.membersAfter first seen input) (outcome.bind next) := by
  cases outcome with
  | ok c =>
    cases step with
    | accepted read =>
      rw [membersAfter_member turn read]
      exact others c rfl
  | error rejection =>
    cases step with
    | refused read cause => exact .refused (by simp only [membersAfter_eq first, turn, read]) cause

theorem answers_first {opening : Bool} {seen : Members α β} {one : Written} {layout : Layout}
    {further rest : List UInt8} {a : α} {outcome : Except Rejection (α × β)}
    (plain : Plain r.firstKey) (unseen : seen.1 = none) (takes : r.first.Takes one (.ok a) further)
    (others : Answers rest (r.membersAfter false (some a, seen.2) further) outcome) :
    Answers rest (r.membersAfter opening seen
      (layout.before opening ++ (Written.member r.firstKey one layout ++ further))) outcome := by
  obtain ⟨behind, turn, key⟩ := objectTurn_member plain one opening layout further
  have follow (c : α) (same : (.ok a : Except Rejection α) = .ok c) :
      Answers rest (r.membersAfter false (some c, seen.2) further) outcome := by
    cases same
    exact others
  have read := answers_membersAfter turn (answers_member_first unseen takes key) follow
  exact read

theorem answers_second {opening : Bool} {seen : Members α β} {two : Written} {layout : Layout}
    {further rest : List UInt8} {outcome : Except Rejection β}
    {next : β → Except Rejection (α × β)} (distinct : r.secondKey ≠ r.firstKey)
    (plain : Plain r.secondKey) (unseen : seen.2 = none)
    (takes : r.second.Takes two outcome further)
    (others : ∀ b, outcome = .ok b →
      Answers rest (r.membersAfter false (seen.1, some b) further) (next b)) :
    Answers rest (r.membersAfter opening seen
      (layout.before opening ++ (Written.member r.secondKey two layout ++ further)))
      (outcome.bind next) := by
  obtain ⟨behind, turn, key⟩ := objectTurn_member plain two opening layout further
  exact answers_membersAfter turn (answers_member_second distinct unseen takes key) others

/-- The ways of writing a record of two members. -/
inductive Shape where
  | object
  | reversed
  | list
  deriving DecidableEq

/-- A record of two members, in one of its forms. -/
def write (r : Record α β) (shape : Shape) (first second : Written) : Written :=
  match shape with
  | .object => .object [(r.firstKey, first), (r.secondKey, second)]
  | .reversed => .object [(r.secondKey, second), (r.firstKey, first)]
  | .list => .list [first, second]

theorem object_append (one two : String) (first second : Written) (layout : Layout)
    (rest : List UInt8) :
    Written.object [(one, first), (two, second)] layout ++ rest =
      ascii '\x7b' :: (layout.inner.before true ++ (Written.member one first layout.inner ++
        (layout.inner.before false ++ (Written.member two second layout.inner ++
          (layout.newline ++ ascii '\x7d' :: rest))))) := by
  simp only [Written.object, Written.bracketed, Layout.before, if_pos, Bool.false_eq_true,
    if_neg not_false, List.map_cons, List.map_nil, List.flatMap_cons, List.flatMap_nil,
    List.cons_append, List.append_assoc, List.nil_append, List.append_nil]

section Forms

variable {a : α} {one two : Written} {outcome : Except Rejection β}
  (distinct : r.secondKey ≠ r.firstKey) (firstPlain : Plain r.firstKey)
  (secondPlain : Plain r.secondKey)
  (first : ∀ {rest}, Stops rest → r.first.Takes one (.ok a) rest)
  (second : ∀ {rest}, Stops rest → r.second.Takes two outcome rest)

include distinct firstPlain secondPlain first second

/-- In an object the members are read in the order in which they are written, but only the second
can break a rule. -/
theorem answers_membersAfter_object (layout : Layout) (rest : List UInt8) :
    Answers rest (r.membersAfter true (none, none)
      (layout.inner.before true ++ (Written.member r.firstKey one layout.inner ++
        (layout.inner.before false ++ (Written.member r.secondKey two layout.inner ++
          (layout.newline ++ ascii '\x7d' :: rest))))))
      (outcome.map fun b => (a, b)) := by
  have closing := stops_closing (ascii '\x7d') (.inr rfl) layout.blank_newline rest
  apply answers_first firstPlain rfl (first (stops_comma _))
  refine answers_second distinct secondPlain rfl (second closing) fun b _ => ?_
  rw [membersAfter_closing (objectTurn_closing false layout.blank_newline rest)]
  exact .accepted rfl

theorem answers_membersAfter_reversed (layout : Layout) (rest : List UInt8) :
    Answers rest (r.membersAfter true (none, none)
      (layout.inner.before true ++ (Written.member r.secondKey two layout.inner ++
        (layout.inner.before false ++ (Written.member r.firstKey one layout.inner ++
          (layout.newline ++ ascii '\x7d' :: rest))))))
      (outcome.map fun b => (a, b)) := by
  have closing := stops_closing (ascii '\x7d') (.inr rfl) layout.blank_newline rest
  -- the second member comes first: if it breaks a rule, the other one is not read at all
  refine answers_second distinct secondPlain rfl (second (stops_comma _)) fun b _ => ?_
  apply answers_first firstPlain rfl (first closing)
  rw [membersAfter_closing (objectTurn_closing false layout.blank_newline rest)]
  exact .accepted rfl

omit distinct firstPlain secondPlain

theorem answers_items (layout : Layout) (rest : List UInt8) :
    Answers rest (r.items (layout.inner.before true ++ (one layout.inner ++
      Written.others [two] layout rest))) (outcome.map fun b => (a, b)) := by
  have between := stops_others [two] layout rest
  have closing := stops_others [] layout rest
  have solid : isSpace (ascii ']') = false := rfl
  have opening := listTurn_item (layout.inner.before_before true)
    (((first between).opens layout.inner).append (Written.others [two] layout rest))
  have comma := listTurn_item (layout.inner.before_before false)
    (((second closing).opens layout.inner).append (Written.others [] layout rest))
  have closed : closeList (Written.others [] layout rest) = .ok rest := by
    simp only [Written.others, List.flatMap_nil, List.nil_append, closeList,
      skipSpace_blank_cons layout.blank_newline solid, if_pos]
  have read := (first between).reads layout.inner
  rw [others_cons] at opening read ⊢
  cases (second closing).alone layout.inner with
  | accepted further =>
    exact .accepted (by simp only [items, opening, read, comma, further, closed])
  | refused further cause =>
    exact .refused (by simp only [items, opening, read, comma, further]) cause

include distinct firstPlain secondPlain

/-- A record is read back in whichever form it is written. -/
theorem takes_record (shape : Shape) (rest : List UInt8) :
    r.reader.Takes (r.write shape one two) (outcome.map fun b => (a, b)) rest where
  opens layout := by
    cases shape with
    | object => exact ⟨ascii '\x7b', _, rfl, rfl, by decide⟩
    | reversed => exact ⟨ascii '\x7b', _, rfl, rfl, by decide⟩
    | list => exact ⟨ascii '[', _, rfl, rfl, by decide⟩
  answers layout blank skipped := by
    have solid : isSpace (ascii '\x7b') = false := rfl
    have other : ascii '\x7b' ≠ ascii '[' := by decide
    change Answers rest (r.readRecord _) _
    cases shape with
    | object =>
      rw [write, object_append]
      simp only [readRecord, skipSpace_blank_cons skipped solid, if_neg other, if_pos]
      refine Answers.settle ?_ _
      exact answers_membersAfter_object distinct firstPlain secondPlain first second layout rest
    | reversed =>
      rw [write, object_append]
      simp only [readRecord, skipSpace_blank_cons skipped solid, if_neg other, if_pos]
      refine Answers.settle ?_ _
      exact answers_membersAfter_reversed distinct firstPlain secondPlain first second layout rest
    | list =>
      have bracket : isSpace (ascii '[') = false := rfl
      rw [write, list_append]
      simp only [readRecord, skipSpace_blank_cons skipped bracket, if_pos]
      refine Answers.settle ?_ _
      exact answers_items first second layout rest

end Forms

end Record

/-! ## Images and whole texts -/

namespace Written

/-- The constants of a search, in a form of their record. -/
def ofConfigAs (shape : Record.Shape) (c : Config) : Written :=
  configRecord.write shape (natural c.right.toNat) (natural c.failed.toNat)

/-- A config with values, whether or not they make an image, in forms of the two records. -/
def ofPartsAs (outer inner : Record.Shape) (c : Config) (values : List UInt64) : Written :=
  imageRecord.write outer (ofConfigAs inner c) (ofValues values)

theorem ofPartsAs_object (c : Config) (values : List UInt64) :
    ofPartsAs .object .object c values = ofParts c values := rfl

example : ofPartsAs .reversed .list ⟨2, 9⟩ [1, 5] .compact =
    asciiBytes "\x7b\"table\":[1,5],\"config\":[2,9]\x7d" := by cbv

end Written

theorem takes_values (values : List UInt64) (rest : List UInt8) :
    table.Takes (.ofValues values) (Table.ofArray values.toArray) rest :=
  (takes_list (fun value _ _ stops => takes_word64 value stops) rest).check Table.ofArray

theorem takes_config (shape : Record.Shape) (c : Config) (rest : List UInt8) :
    config.Takes (.ofConfigAs shape c) (.ok c) rest := by
  have record := Record.takes_record (r := configRecord) (by decide) (by decide) (by decide)
    (takes_word32 c.right) (takes_word32 c.failed) shape rest
  exact record.map _

theorem takes_parts (outer inner : Record.Shape) (c : Config) (values : List UInt64)
    (rest : List UInt8) :
    image.Takes (.ofPartsAs outer inner c values) (Image.assemble c values) rest := by
  have record := Record.takes_record (r := imageRecord) (by decide) (by decide) (by decide)
    (fun _ => takes_config inner c _) (fun _ => takes_values values _) outer rest
  have takes : image.Takes (.ofPartsAs outer inner c values) _ rest := record.check _
  unfold Image.assemble
  cases checked : Table.ofArray values.toArray with
  | ok t => rw [checked] at takes; exact takes
  | error rejection => rw [checked] at takes; exact takes

theorem decode_of_accepted {r : Reader α} {written : Written} {a : α}
    (takes : r.Takes written (.ok a) []) (layout : Layout) : decode r (written layout) = .ok a := by
  have read := takes.reads layout
  rw [List.append_nil] at read
  simp only [decode, read]
  rfl

theorem decode_of_refused {r : Reader α} {written : Written} {rejection : Rejection}
    (takes : r.Takes written (.error rejection) []) (layout : Layout) :
    ∃ failure, decode r (written layout) = .error failure ∧
      failure.cause = .rejected rejection := by
  have answers := takes.alone layout
  rw [List.append_nil] at answers
  cases answers with
  | @refused _ fault read cause =>
    exact ⟨fault.failure (written layout), by simp only [decode, read], cause⟩

end TableSearch.Json
