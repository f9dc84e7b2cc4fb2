import TableSearch.Proofs.JsonPassing

/-!
# Readers of the texts of a form

`Reader.Reads` says that a reader takes exactly the texts of a form: what it takes is white space
and a text of the form, and it takes every such text if what follows does not go on with a number.
This holds of integers, and it passes through changes and checks of a value and through lists.
-/

namespace TableSearch.Json

variable {α β : Type}

/-- The reader takes the texts of the form, and returns what they stand for. -/
structure Reader.Reads (r : Reader α) (Text : Form α) : Prop where
  starts : ∀ {text a}, Text text a → Starts text
  sound : ∀ {input a rest}, r.read input = .ok (a, rest) →
    ∃ blank text, Blank blank ∧ Text text a ∧ input = blank ++ (text ++ rest)
  complete : ∀ {blank text a rest}, Blank blank → Text text a → Stops rest →
    r.read (blank ++ (text ++ rest)) = .ok (a, rest)

theorem Reader.Reads.map {r : Reader α} {Text : Form α} (reads : r.Reads Text) (f : α → β) :
    (r.map f).Reads fun text b => ∃ a, Text text a ∧ f a = b where
  starts := by
    rintro text b ⟨a, form, -⟩
    exact reads.starts form
  sound := by
    intro input b rest read
    cases inner : r.read input with
    | error fault => simp only [Reader.map, inner, Except.map] at read; cases read
    | ok pair =>
      simp only [Reader.map, inner, Except.map] at read
      cases read
      obtain ⟨blank, text, spaced, form, rfl⟩ := reads.sound inner
      exact ⟨blank, text, spaced, ⟨pair.1, form, rfl⟩, rfl⟩
  complete := by
    rintro blank text b rest spaced ⟨a, form, rfl⟩ stops
    simp only [Reader.map, reads.complete spaced form stops, Except.map]

theorem Reader.Reads.check {r : Reader α} {Text : Form α} (reads : r.Reads Text)
    (f : α → Except Rejection β) :
    (r.check f).Reads fun text b => ∃ a, Text text a ∧ f a = .ok b where
  starts := by
    rintro text b ⟨a, form, -⟩
    exact reads.starts form
  sound := by
    intro input b rest read
    simp only [Reader.check] at read
    split at read
    · cases read
    · next a behind inner =>
      split at read
      · cases read
      · next checked =>
        cases read
        obtain ⟨blank, text, spaced, form, rfl⟩ := reads.sound inner
        exact ⟨blank, text, spaced, ⟨a, form, checked⟩, rfl⟩
  complete := by
    rintro blank text b rest spaced ⟨a, form, checked⟩ stops
    simp only [Reader.check, reads.complete spaced form stops, checked]

/-- Two forms of the same texts have the same readers. -/
theorem Reader.Reads.of_iff {r : Reader α} {One Two : Form α} (reads : r.Reads One)
    (same : ∀ text a, One text a ↔ Two text a) : r.Reads Two := by
  have equal : One = Two := funext fun text => funext fun a => propext (same text a)
  exact equal ▸ reads

/-! ## Integers -/

theorem starts_decimal (n : Nat) : Starts (decimal n) :=
  opens_natural n .compact

theorem reads_integer {limit : Nat} (fits : limit ≤ largest) (expected : String) :
    (integer limit expected).Reads fun text n => n ≤ limit ∧ text = decimal n where
  starts := by
    rintro text n ⟨-, rfl⟩
    exact starts_decimal n
  sound := by
    intro input n rest read
    change readInteger limit expected input = _ at read
    have kept {outcome : Except Fault (Number × List UInt8)}
        (read : keepInteger limit expected outcome = .ok (n, rest)) :
        n ≤ limit ∧ outcome = .ok (.natural n, rest) := by
      unfold keepInteger at read
      repeat' split at read
      all_goals try contradiction
      next small =>
        cases read
        exact ⟨small, rfl⟩
    unfold readInteger at read
    split at read
    · cases read
    · next b behind skipped =>
      obtain ⟨blank, spaced, rfl⟩ := blank_of_skipSpace skipped
      split at read
      · -- a number behind a minus sign is never a natural one, not even zero
        obtain ⟨-, signed⟩ := kept read
        cases (natural_of_number signed).1
      · split at read
        · obtain ⟨small, unsigned⟩ := kept read
          exact ⟨blank, decimal n, spaced, ⟨small, rfl⟩,
            congrArg (blank ++ ·) (natural_of_number unsigned).2⟩
        · cases read
  complete := by
    rintro blank text n rest spaced ⟨small, rfl⟩ stops
    have takes := takes_integer fits small expected stops
    cases takes.answers .compact spaced with
    | accepted read => exact read

theorem reads_word32 : word32.Reads Word32Form := by
  refine ((reads_integer (by decide) "u32").map UInt32.ofNat).of_iff fun text n => ⟨?_, ?_⟩
  · rintro ⟨m, ⟨small, rfl⟩, rfl⟩
    exact congrArg decimal (UInt32.toNat_ofNat_of_lt (Nat.lt_of_le_sub_one (by decide) small)).symm
  · rintro rfl
    exact ⟨n.toNat, ⟨Nat.le_sub_one_of_lt n.toNat_lt_size, rfl⟩, UInt32.ofNat_toNat⟩

theorem reads_word64 : word64.Reads Word64Form := by
  refine ((reads_integer (Nat.le_refl _) "u64").map UInt64.ofNat).of_iff fun text n => ⟨?_, ?_⟩
  · rintro ⟨m, ⟨small, rfl⟩, rfl⟩
    exact congrArg decimal (UInt64.toNat_ofNat_of_lt (Nat.lt_of_le_sub_one (by decide) small)).symm
  · rintro rfl
    exact ⟨n.toNat, ⟨Nat.le_sub_one_of_lt n.toNat_lt_size, rfl⟩, UInt64.ofNat_toNat⟩

/-! ## Turns of lists and objects -/

theorem blank_of_listTurn {first : Bool} {input rest : List UInt8}
    (turn : listTurn first input = .ok (.closing rest)) :
    ∃ blank, Blank blank ∧ input = blank ++ ascii ']' :: rest := by
  unfold listTurn at turn
  split at turn
  · cases turn
  · next skipped =>
    repeat' split at turn
    all_goals cases turn
    next closing =>
      subst closing
      exact blank_of_skipSpace skipped

theorem Before.blank {first : Bool} {before blank : List UInt8} (leads : Before first before)
    (spaced : Blank blank) : Before first (before ++ blank) := by
  cases leads with
  | first opening => exact .first (blank_append opening spaced)
  | next one two =>
    rw [List.append_assoc, List.cons_append]
    exact .next one (blank_append two spaced)

theorem before_of_listTurn {first : Bool} {input rest : List UInt8}
    (turn : listTurn first input = .ok (.item rest)) :
    ∃ before, Before first before ∧ input = before ++ rest := by
  unfold listTurn at turn
  split at turn
  · cases turn
  · next skipped =>
    obtain ⟨blank, spaced, rfl⟩ := blank_of_skipSpace skipped
    split at turn
    · cases turn
    split at turn
    · next opening =>
      subst opening
      cases turn
      exact ⟨blank, .first spaced, rfl⟩
    split at turn
    · next other comma =>
      obtain rfl := eq_false_of_ne_true other
      subst comma
      split at turn
      · cases turn
      · next again =>
        obtain ⟨more, further, rfl⟩ := blank_of_skipSpace again
        split at turn
        · cases turn
        · cases turn
          refine ⟨_, .next spaced further, ?_⟩
          rw [List.append_assoc, List.cons_append]
    · cases turn

theorem blank_of_objectTurn {first : Bool} {input rest : List UInt8}
    (turn : objectTurn first input = .ok (.closing rest)) :
    ∃ blank, Blank blank ∧ input = blank ++ ascii '\x7d' :: rest := by
  unfold objectTurn at turn
  split at turn
  · cases turn
  · next skipped =>
    repeat' split at turn
    all_goals cases turn
    next closing =>
      subst closing
      exact blank_of_skipSpace skipped

theorem before_of_objectTurn {first : Bool} {input rest : List UInt8}
    (turn : objectTurn first input = .ok (.item rest)) :
    ∃ before, Before first before ∧ input = before ++ ascii '"' :: rest := by
  unfold objectTurn at turn
  split at turn
  · cases turn
  · next skipped =>
    obtain ⟨blank, spaced, rfl⟩ := blank_of_skipSpace skipped
    split at turn
    · cases turn
    split at turn
    · next opening =>
      subst opening
      split at turn
      · next quote =>
        subst quote
        cases turn
        exact ⟨blank, .first spaced, rfl⟩
      · cases turn
    split at turn
    · next other comma =>
      obtain rfl := eq_false_of_ne_true other
      subst comma
      split at turn
      · cases turn
      · next again =>
        obtain ⟨more, further, rfl⟩ := blank_of_skipSpace again
        split at turn
        · next quote =>
          subst quote
          cases turn
          refine ⟨_, .next spaced further, ?_⟩
          rw [List.append_assoc, List.cons_append]
        · split at turn <;> cases turn
    · cases turn

/-! ## Lists -/

/-- What follows an item does not go on with a number. -/
theorem Items.stops {closing : UInt8} {Item : Form α} {text : List UInt8} {values : List α}
    (items : Items closing Item false text values)
    (closes : closing = ascii ']' ∨ closing = ascii '\x7d') (rest : List UInt8) :
    Stops (text ++ rest) := by
  cases items with
  | last blank =>
    rw [List.append_assoc]
    exact stops_closing closing closes blank rest
  | next before =>
    cases before with
    | next spaced =>
      simp only [List.append_assoc, List.cons_append]
      exact stops_blank spaced (stops_comma _)

section Lists

variable {item : Reader α} {Item : Form α} (reads : item.Reads Item)

include reads

theorem items_of_itemsAfter {first : Bool} {taken all : Array α} {input rest : List UInt8}
    (read : itemsAfter item first taken input = .ok (all, rest)) :
    ∃ text values, Items (ascii ']') Item first text values ∧ all = taken ++ values ∧
      input = text ++ rest := by
  fun_induction itemsAfter item first taken input with
  | case1 | case3 => cases read
  | case2 first taken input behind turn =>
    cases read
    obtain ⟨blank, spaced, rfl⟩ := blank_of_listTurn turn
    refine ⟨_, [], .last spaced, Array.appendList_nil.symm, ?_⟩
    rw [List.append_assoc, List.singleton_append]
  | case4 first taken input behind turn a further value _ _ ih =>
    obtain ⟨text, values, items, rfl, rfl⟩ := ih read
    obtain ⟨before, leads, rfl⟩ := before_of_listTurn turn
    obtain ⟨blank, one, spaced, form, rfl⟩ := reads.sound value
    refine ⟨_, a :: values, .next (leads.blank spaced) form items, Array.appendList_cons.symm, ?_⟩
    simp only [List.append_assoc]

theorem itemsAfter_append {first : Bool} {text : List UInt8} {values : List α}
    (items : Items (ascii ']') Item first text values) (taken : Array α) (rest : List UInt8) :
    itemsAfter item first taken (text ++ rest) = .ok (taken ++ values, rest) := by
  induction items generalizing taken with
  | @last first blank spaced =>
    rw [List.append_assoc, List.singleton_append,
      itemsAfter_closing (listTurn_closing first spaced rest), Array.appendList_nil]
  | @next first before one behind a others leads form items ih =>
    have stops := items.stops (.inl rfl) rest
    have read := reads.complete blank_nil form stops
    rw [List.nil_append] at read
    rw [List.append_assoc, List.append_assoc,
      itemsAfter_item (listTurn_item leads ((reads.starts form).append _)) read, ih,
      Array.appendList_cons]

/-- A list is read whatever follows its closing bracket. -/
theorem readList_append {blank text : List UInt8} {values : Array α} (spaced : Blank blank)
    (form : ListForm Item text values.toList) (rest : List UInt8) :
    (list item).read (blank ++ (text ++ rest)) = .ok (values, rest) := by
  obtain ⟨items⟩ := form
  have solid : isSpace (ascii '[') = false := rfl
  change readList item _ = _
  rw [List.cons_append, readList]
  simp only [skipSpace_blank_cons spaced solid, if_pos]
  simpa using itemsAfter_append reads items #[] rest

theorem reads_list : (list item).Reads fun text values => ListForm Item text values.toList where
  starts := by
    rintro text values ⟨items⟩
    exact ⟨ascii '[', _, rfl, rfl, by decide⟩
  sound := by
    intro input values rest read
    change readList item input = _ at read
    unfold readList at read
    split at read
    · cases read
    · next skipped =>
      obtain ⟨blank, spaced, rfl⟩ := blank_of_skipSpace skipped
      split at read
      · next opening =>
        subst opening
        obtain ⟨text, others, items, rfl, rfl⟩ := items_of_itemsAfter reads read
        refine ⟨blank, _, spaced, .items ?_, rfl⟩
        simpa using items
      · cases read
  complete spaced form _ := readList_append reads spaced form _

end Lists

end TableSearch.Json
