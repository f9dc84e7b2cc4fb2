import TableSearch.Proofs.JsonForm
import TableSearch.Proofs.JsonNumerals
import TableSearch.Proofs.JsonStrings

/-!
# Values are passed over by their grammar

A value is passed over step by step, with a list of the brackets that are still open. The texts
that end these brackets are given by `Closing`, and `Ahead` tells what is still to be taken. Each
step takes what the grammar allows there, so a whole run takes a well-formed value together with
the ends of the brackets around it, and every such text is taken.
-/

namespace TableSearch.Json

/-! ## White space and words -/

theorem blank_append {one two : List UInt8} (first : Blank one) (second : Blank two) :
    Blank (one ++ two) :=
  List.forall_mem_append.mpr ⟨first, second⟩

/-- What was skipped before a byte is white space. -/
theorem blank_of_skipSpace {input rest : List UInt8} {b : UInt8}
    (skipped : skipSpace input = b :: rest) : ∃ blank, Blank blank ∧ input = blank ++ b :: rest :=
  ⟨input.takeWhile isSpace, List.all_eq_true.mp List.all_takeWhile, append_of_dropWhile skipped⟩

theorem word_eq_ok_iff {letters input rest : List UInt8} :
    word letters input = .ok rest ↔ input = letters ++ rest := by
  induction letters generalizing input with
  | nil => exact ⟨fun read => Except.ok.inj read, fun same => congrArg _ same⟩
  | cons letter letters ih =>
    cases input with
    | nil =>
      constructor
      · intro read
        cases read
      · intro same
        cases same
    | cons b input =>
      rw [word, List.cons_append, List.cons.injEq]
      split
      · next same => rw [ih, and_iff_right same]
      · next other =>
        constructor
        · intro read
          cases read
        · intro same
          exact absurd same.1 other

/-! ## How texts begin -/

theorem UnsignedNumber.opens {text : List UInt8} (form : UnsignedNumber text) :
    ∃ b others, text = b :: others ∧ isDigit b = true := by
  cases form with
  | parts integer =>
    cases integer with
    | zero => exact ⟨_, _, rfl, by decide⟩
    | digits digit => exact ⟨_, _, rfl, digit⟩

theorem WellFormed.starts {text : List UInt8} (form : WellFormed .value text) : Starts text := by
  cases form with
  | word known =>
    rcases known with rfl | rfl | rfl
    all_goals exact ⟨_, _, rfl, rfl, by decide⟩
  | number form =>
    obtain ⟨b, others, rfl, digit⟩ := form.opens
    refine ⟨b, others, rfl, isSpace_of_isDigit digit, ?_⟩
    rintro rfl
    exact absurd digit (by decide)
  | negative | text => exact ⟨_, _, rfl, rfl, by decide⟩
  | empty bracket | @bracket bracket =>
    cases bracket with
    | list => exact ⟨_, _, rfl, rfl, by decide⟩
    | object => exact ⟨_, _, rfl, rfl, by decide⟩

theorem Bracket.closing_cases (bracket : Bracket) :
    bracket.closing = ascii ']' ∨ bracket.closing = ascii '\x7d' := by
  cases bracket with
  | list => exact .inl rfl
  | object => exact .inr rfl

/-- What follows a value in a bracket does not go on with a number. -/
theorem WellFormed.stops {bracket : Bracket} {text : List UInt8}
    (form : WellFormed (.behind bracket) text) (rest : List UInt8) : Stops (text ++ rest) := by
  cases form with
  | last _ blank =>
    rw [List.append_assoc]
    exact stops_closing _ bracket.closing_cases blank rest
  | next blank =>
    rw [List.append_assoc]
    exact stops_blank blank (stops_comma _)

/-! ## Taking a value -/

/-- Goes on from the next value up to the end of the last bracket. -/
def finish : Except Fault Progress → Except Fault (List UInt8)
  | .error fault => .error fault
  | .ok ([], rest) => .ok rest
  | .ok (bracket :: outer, rest) => skipWithin (bracket :: outer) rest

theorem skipWithin_eq_finish (brackets : List Bracket) (input : List UInt8) :
    skipWithin brackets input = finish (skipStep brackets input) := by
  rw [skipWithin]
  split
  all_goals next step => simp only [step, finish]

theorem skipKey_append {before key between : List UInt8} (first : Blank before)
    (form : PassedText key) (second : Blank between) (rest : List UInt8) :
    skipKey (before ++ ascii '"' :: (key ++ ascii '"' :: (between ++ ascii ':' :: rest))) =
      .ok rest := by
  have quote : isSpace (ascii '"') = false := rfl
  have colon : isSpace (ascii ':') = false := rfl
  have taken := skipText_append form (between ++ ascii ':' :: rest)
  simp only [skipKey, skipSpace_blank_cons first quote, if_pos, taken,
    skipSpace_blank_cons second colon]

theorem skipToValue_lead {bracket : Bracket} {lead : List UInt8} (form : Lead bracket lead)
    (rest : List UInt8) : skipToValue bracket (lead ++ rest) = .ok rest := by
  cases form with
  | list => rfl
  | object first key second =>
    have taken := skipKey_append first key second rest
    simp only [List.append_assoc, List.cons_append, List.nil_append, skipToValue]
    exact taken

/-- Behind an opening bracket the first value follows, or what is left of the white space before
it. -/
theorem skipIntoBracket_lead {bracket : Bracket} {lead blank value : List UInt8}
    (form : Lead bracket lead) (spaced : Blank blank) (inner : WellFormed .value value)
    (outer : List Bracket) (rest : List UInt8) :
    ∃ left, Blank left ∧ skipIntoBracket bracket outer (lead ++ (blank ++ (value ++ rest))) =
      .ok (bracket :: outer, left ++ (value ++ rest)) := by
  cases form with
  | list =>
    obtain ⟨b, behind, rfl, solid, item⟩ := inner.starts
    refine ⟨[], blank_nil, ?_⟩
    have other : b ≠ Bracket.list.closing := item
    simp only [List.nil_append, List.cons_append, skipIntoBracket,
      skipSpace_blank_cons spaced solid, if_neg other, skipToValue]
  | @object before key between first text second =>
    have quote : isSpace (ascii '"') = false := rfl
    have other : ascii '"' ≠ Bracket.object.closing := by decide
    have taken := skipKey_append blank_nil text second (blank ++ (value ++ rest))
    refine ⟨blank, spaced, ?_⟩
    simp only [List.append_assoc, List.cons_append, List.nil_append] at taken ⊢
    simp only [skipIntoBracket, skipSpace_blank_cons first quote, if_neg other, skipToValue, taken]

theorem skipIntoBracket_closing (bracket : Bracket) {blank : List UInt8} (spaced : Blank blank)
    (outer : List Bracket) (rest : List UInt8) :
    skipIntoBracket bracket outer (blank ++ bracket.closing :: rest) =
      skipBehindValue outer rest := by
  have solid : isSpace bracket.closing = false := by
    cases bracket with
    | list => rfl
    | object => rfl
  simp only [skipIntoBracket, skipSpace_blank_cons spaced solid, if_pos]

theorem skipBehindValue_closing (bracket : Bracket) {blank : List UInt8} (spaced : Blank blank)
    (outer : List Bracket) (rest : List UInt8) :
    skipBehindValue (bracket :: outer) (blank ++ bracket.closing :: rest) =
      skipBehindValue outer rest := by
  cases bracket with
  | list =>
    have solid : isSpace Bracket.list.closing = false := rfl
    have other : Bracket.list.closing ≠ ascii ',' := by decide
    simp only [skipBehindValue, skipSpace_blank_cons spaced solid, if_neg other, if_pos]
  | object =>
    have solid : isSpace Bracket.object.closing = false := rfl
    have other : Bracket.object.closing ≠ ascii ',' := by decide
    simp only [skipBehindValue, skipSpace_blank_cons spaced solid, if_neg other, if_pos]

theorem skipBehindValue_lead {bracket : Bracket} {before lead : List UInt8} (spaced : Blank before)
    (form : Lead bracket lead) (outer : List Bracket) (rest : List UInt8) :
    skipBehindValue (bracket :: outer) (before ++ ascii ',' :: (lead ++ rest)) =
      .ok (bracket :: outer, rest) := by
  have comma : isSpace (ascii ',') = false := rfl
  simp only [skipBehindValue, skipSpace_blank_cons spaced comma, if_pos, skipToValue_lead form]

theorem skipStep_bracket (bracket : Bracket) {blank : List UInt8} (spaced : Blank blank)
    (outer : List Bracket) (rest : List UInt8) :
    skipStep outer (blank ++ bracket.opening :: rest) = skipIntoBracket bracket outer rest := by
  cases bracket with
  | list =>
    have solid : isSpace Bracket.list.opening = false := rfl
    simp only [skipStep, skipSpace_blank_cons spaced solid]
    rfl
  | object =>
    have solid : isSpace Bracket.object.opening = false := rfl
    simp only [skipStep, skipSpace_blank_cons spaced solid]
    rfl

/-- A value without brackets is taken at once. -/
theorem skipStep_plain {b : UInt8} {text : List UInt8} (solid : isSpace b = false)
    (list : b ≠ ascii '[') (object : b ≠ ascii '\x7b') {rest : List UInt8}
    (taken : skipPlainValue b (text ++ rest) = .ok rest) {blank : List UInt8}
    (spaced : Blank blank) (outer : List Bracket) :
    skipStep outer (blank ++ (b :: text ++ rest)) = skipBehindValue outer rest := by
  simp only [List.cons_append, skipStep, skipSpace_blank_cons spaced solid, if_neg list,
    if_neg object, taken]

/-- What the grammar says of a part of a value is what is taken of it, whatever follows: a value up
to its end, and the end of a bracket together with the bracket. -/
def Part.Taken : Part → List UInt8 → Prop
  | .value, text => ∀ (outer : List Bracket) {blank rest : List UInt8}, Blank blank → Stops rest →
    skipWithin outer (blank ++ (text ++ rest)) = finish (skipBehindValue outer rest)
  | .behind bracket, text => ∀ (outer : List Bracket) (rest : List UInt8),
    finish (skipBehindValue (bracket :: outer) (text ++ rest)) =
      finish (skipBehindValue outer rest)

theorem WellFormed.taken {part : Part} {text : List UInt8} (form : WellFormed part text) :
    part.Taken text := by
  induction form with
  | word known =>
    intro outer blank rest spaced _
    rw [skipWithin_eq_finish]
    rcases known with rfl | rfl | rfl
    · have taken : skipPlainValue (ascii 'n') (asciiBytes "ull" ++ rest) = .ok rest :=
        word_eq_ok_iff.mpr rfl
      exact congrArg finish (skipStep_plain rfl (by decide) (by decide) taken spaced outer)
    · have taken : skipPlainValue (ascii 't') (asciiBytes "rue" ++ rest) = .ok rest :=
        word_eq_ok_iff.mpr rfl
      exact congrArg finish (skipStep_plain rfl (by decide) (by decide) taken spaced outer)
    · have taken : skipPlainValue (ascii 'f') (asciiBytes "alse" ++ rest) = .ok rest :=
        word_eq_ok_iff.mpr rfl
      exact congrArg finish (skipStep_plain rfl (by decide) (by decide) taken spaced outer)
  | number form =>
    intro outer blank rest spaced stops
    have number := skipNumber_append form stops
    obtain ⟨b, others, rfl, digit⟩ := form.opens
    have other (c : Char) (none : isDigit (ascii c) = false) : b ≠ ascii c := by
      rintro rfl
      exact absurd (digit.symm.trans none) (by decide)
    have taken : skipPlainValue b (others ++ rest) = .ok rest := by
      rw [skipPlainValue, if_neg (other 'n' rfl), if_neg (other 't' rfl), if_neg (other 'f' rfl),
        if_neg (other '-' rfl), if_pos digit]
      exact number
    rw [skipWithin_eq_finish, skipStep_plain (isSpace_of_isDigit digit) (other '[' rfl)
      (other '\x7b' rfl) taken spaced]
  | negative form =>
    intro outer blank rest spaced stops
    have taken : skipPlainValue (ascii '-') (_ ++ rest) = .ok rest := skipNumber_append form stops
    rw [skipWithin_eq_finish, skipStep_plain rfl (by decide) (by decide) taken spaced]
  | @text text form =>
    intro outer blank rest spaced _
    have taken : skipPlainValue (ascii '"') (text ++ [ascii '"'] ++ rest) = .ok rest := by
      rw [List.append_assoc]
      exact skipText_append form rest
    rw [skipWithin_eq_finish, skipStep_plain rfl (by decide) (by decide) taken spaced]
  | empty bracket inner =>
    intro outer blank rest spaced _
    rw [skipWithin_eq_finish, List.cons_append, skipStep_bracket bracket spaced, List.append_assoc,
      List.singleton_append, skipIntoBracket_closing bracket inner]
  | @bracket bracket lead inner value behind form between first others value_taken behind_taken =>
    intro outer blank rest spaced _
    -- the bracket stays open behind its first value, and is closed by what follows it
    obtain ⟨left, still, into⟩ :=
      skipIntoBracket_lead form between first outer (behind ++ rest)
    simp only [List.append_assoc, List.cons_append] at into ⊢
    rw [skipWithin_eq_finish, skipStep_bracket bracket spaced, into, finish,
      value_taken (bracket :: outer) still (others.stops rest), behind_taken]
  | last bracket spaced =>
    intro outer rest
    rw [List.append_assoc, List.singleton_append, skipBehindValue_closing bracket spaced]
  | @next bracket before lead blank value behind spaced form between first others value_taken
      behind_taken =>
    intro outer rest
    simp only [List.append_assoc, List.cons_append]
    rw [skipBehindValue_lead spaced form, finish,
      value_taken (bracket :: outer) between (others.stops rest), behind_taken]

theorem skipValue_append {blank value rest : List UInt8} (spaced : Blank blank)
    (form : WellFormed .value value) (stops : Stops rest) :
    skipValue (blank ++ (value ++ rest)) = .ok rest :=
  form.taken [] spaced stops

/-! ## What has been taken -/

/-- Texts that end the brackets, the innermost first. -/
inductive Closing : List Bracket → List UInt8 → Prop
  | nil : Closing [] []
  | cons {bracket : Bracket} {outer : List Bracket} {behind others : List UInt8} :
    WellFormed (.behind bracket) behind → Closing outer others →
    Closing (bracket :: outer) (behind ++ others)

/-- A value and the texts that end the brackets around it. -/
def Within (brackets : List Bracket) (text : List UInt8) : Prop :=
  ∃ blank value others, Blank blank ∧ WellFormed .value value ∧ Closing brackets others ∧
    text = blank ++ (value ++ others)

/-- What is still to be taken: nothing without open brackets, and otherwise a value within them. -/
def Ahead : List Bracket → List UInt8 → Prop
  | [], text => text = []
  | bracket :: outer, text => Within (bracket :: outer) text

theorem lead_of_skipToValue {bracket : Bracket} {input rest : List UInt8}
    (read : skipToValue bracket input = .ok rest) :
    ∃ lead, Lead bracket lead ∧ input = lead ++ rest := by
  cases bracket with
  | list =>
    cases read
    exact ⟨[], .list, rfl⟩
  | object =>
    simp only [skipToValue, skipKey] at read
    repeat' split at read
    all_goals try contradiction
    next _ _ opening quote _ _ taken _ _ _ colon same =>
      cases read
      subst quote same
      obtain ⟨before, first, rfl⟩ := blank_of_skipSpace opening
      obtain ⟨key, form, rfl⟩ := passedText_of_skipped taken
      obtain ⟨between, second, rfl⟩ := blank_of_skipSpace colon
      refine ⟨_, .object first form second, ?_⟩
      simp only [List.append_assoc, List.cons_append, List.nil_append]

/-- White space before a value in a bracket is part of what stands there. -/
theorem Lead.blank {bracket : Bracket} {lead before after : List UInt8} (form : Lead bracket lead)
    (first : Blank before) (second : Blank after) :
    ∃ others blank, Lead bracket others ∧ Blank blank ∧
      before ++ (lead ++ after) = others ++ blank := by
  cases form with
  | list => exact ⟨[], before ++ after, .list, blank_append first second, rfl⟩
  | object spaced key between =>
    refine ⟨_, after, .object (blank_append first spaced) key between, second, ?_⟩
    simp only [List.append_assoc, List.cons_append]

/-- Behind a value, brackets are closed up to the next value. -/
theorem closing_of_skipBehindValue {brackets still : List Bracket} {input text rest : List UInt8}
    (read : skipBehindValue brackets input = .ok (still, text ++ rest)) (ahead : Ahead still text) :
    ∃ others, Closing brackets others ∧ input = others ++ rest := by
  induction brackets generalizing input with
  | nil =>
    cases read
    obtain rfl : text = [] := ahead
    exact ⟨[], .nil, rfl⟩
  | cons bracket outer ih =>
    rw [skipBehindValue] at read
    split at read
    · cases read
    · next b behind skipped =>
      obtain ⟨before, spaced, rfl⟩ := blank_of_skipSpace skipped
      split at read
      · next comma =>
        subst comma
        split at read
        · cases read
        · next further found =>
          -- the bracket stays open, so the value ahead is its next one
          cases read
          obtain ⟨blank, value, others, between, form, closing, rfl⟩ := ahead
          obtain ⟨lead, leading, rfl⟩ := lead_of_skipToValue found
          cases closing with
          | cons first closing =>
            refine ⟨_, .cons (.next spaced leading between form first) closing, ?_⟩
            simp only [List.append_assoc, List.cons_append]
      · split at read
        · next closes =>
          subst closes
          obtain ⟨others, closing, rfl⟩ := ih read
          refine ⟨_, .cons (.last bracket spaced) closing, ?_⟩
          simp only [List.append_assoc, List.cons_append, List.nil_append]
        · cases read

/-- Behind an opening bracket the rest of a value is taken. -/
theorem wellFormed_of_skipIntoBracket {bracket : Bracket} {outer still : List Bracket}
    {input text rest : List UInt8}
    (read : skipIntoBracket bracket outer input = .ok (still, text ++ rest))
    (ahead : Ahead still text) :
    ∃ value others, WellFormed .value (bracket.opening :: value) ∧ Closing outer others ∧
      input = value ++ (others ++ rest) := by
  unfold skipIntoBracket at read
  split at read
  · cases read
  · next b behind skipped =>
    obtain ⟨before, spaced, rfl⟩ := blank_of_skipSpace skipped
    split at read
    · next closes =>
      subst closes
      obtain ⟨others, closing, rfl⟩ := closing_of_skipBehindValue read ahead
      refine ⟨_, others, .empty bracket spaced, closing, ?_⟩
      rw [List.append_assoc, List.singleton_append]
    · split at read
      · cases read
      · next further found =>
        cases read
        obtain ⟨blank, value, others, between, form, closing, rfl⟩ := ahead
        obtain ⟨lead, leading, same⟩ := lead_of_skipToValue found
        -- the white space that was skipped stands before the key, or before the value in a list
        obtain ⟨most, left, first, last, spread⟩ := leading.blank spaced between
        cases closing with
        | @cons _ _ behind others second closing =>
          refine ⟨_, others, .bracket first last form second, closing, ?_⟩
          simp only [← List.append_assoc] at same spread ⊢
          rw [same, ← spread]
          simp only [List.append_assoc]

theorem wellFormed_of_skipPlainValue {b : UInt8} {input rest : List UInt8}
    (read : skipPlainValue b input = .ok rest) :
    ∃ text, WellFormed .value (b :: text) ∧ input = text ++ rest := by
  unfold skipPlainValue at read
  split at read
  · next letter =>
    subst letter
    exact ⟨asciiBytes "ull", .word (.inl rfl), word_eq_ok_iff.mp read⟩
  split at read
  · next letter =>
    subst letter
    exact ⟨asciiBytes "rue", .word (.inr (.inl rfl)), word_eq_ok_iff.mp read⟩
  split at read
  · next letter =>
    subst letter
    exact ⟨asciiBytes "alse", .word (.inr (.inr rfl)), word_eq_ok_iff.mp read⟩
  split at read
  · next sign =>
    subst sign
    obtain ⟨text, form, rfl⟩ := unsignedNumber_of_skipped read
    exact ⟨text, .negative form, rfl⟩
  split at read
  · obtain ⟨text, form, same⟩ := unsignedNumber_of_skipped read
    obtain ⟨c, others, rfl, -⟩ := form.opens
    obtain ⟨rfl, rfl⟩ := List.cons.inj same
    exact ⟨others, .number form, rfl⟩
  split at read
  · next quote =>
    subst quote
    obtain ⟨text, form, rfl⟩ := passedText_of_skipped read
    refine ⟨_, .text form, ?_⟩
    rw [List.append_assoc, List.singleton_append]
  · cases read

/-- A step takes a value, or its opening bracket, and goes on to what is ahead. -/
theorem within_of_skipStep {outer still : List Bracket} {input text rest : List UInt8}
    (read : skipStep outer input = .ok (still, text ++ rest)) (ahead : Ahead still text) :
    ∃ taken, Within outer taken ∧ input = taken ++ rest := by
  unfold skipStep at read
  split at read
  · cases read
  · next b behind skipped =>
    obtain ⟨blank, spaced, rfl⟩ := blank_of_skipSpace skipped
    have whole {value others : List UInt8} (form : WellFormed .value (b :: value))
        (closing : Closing outer others) (same : behind = value ++ (others ++ rest)) :
        ∃ taken, Within outer taken ∧ blank ++ b :: behind = taken ++ rest := by
      refine ⟨_, ⟨blank, _, others, spaced, form, closing, rfl⟩, ?_⟩
      rw [same]
      simp only [List.append_assoc, List.cons_append]
    split at read
    · next list =>
      subst list
      obtain ⟨value, others, form, closing, same⟩ := wellFormed_of_skipIntoBracket read ahead
      exact whole form closing same
    split at read
    · next object =>
      subst object
      obtain ⟨value, others, form, closing, same⟩ := wellFormed_of_skipIntoBracket read ahead
      exact whole form closing same
    split at read
    · cases read
    · next found =>
      obtain ⟨value, form, rfl⟩ := wellFormed_of_skipPlainValue found
      obtain ⟨others, closing, rfl⟩ := closing_of_skipBehindValue read ahead
      exact whole form closing rfl

/-- A run takes a value and the ends of the brackets around it. -/
theorem within_of_skipWithin {brackets : List Bracket} {input rest : List UInt8}
    (read : skipWithin brackets input = .ok rest) :
    ∃ taken, Within brackets taken ∧ input = taken ++ rest := by
  fun_induction skipWithin brackets input with
  | case1 => cases read
  | case2 brackets input behind step =>
    cases read
    have step : skipStep brackets input = .ok ([], [] ++ rest) := step
    exact within_of_skipStep step rfl
  | case3 brackets input bracket outer behind step shorter ih =>
    obtain ⟨taken, inner, rfl⟩ := ih read
    exact within_of_skipStep step inner

theorem wellFormed_of_skipValue {input rest : List UInt8} (read : skipValue input = .ok rest) :
    ∃ blank value, Blank blank ∧ WellFormed .value value ∧ input = blank ++ (value ++ rest) := by
  obtain ⟨taken, ⟨blank, value, others, spaced, form, closing, rfl⟩, rfl⟩ :=
    within_of_skipWithin read
  cases closing with
  | nil =>
    refine ⟨blank, value, spaced, form, ?_⟩
    rw [List.append_nil, List.append_assoc]

end TableSearch.Json
