import TableSearch.Proofs.JsonGrammar
import TableSearch.Proofs.Utf8Form

/-!
# Strings are read by their grammar

A string is read for its characters exactly if its escapes and bytes spell them, and it is passed
over exactly if its plain bytes and escapes run up to a quote. In both cases the text is what stands
before that quote.
-/

namespace TableSearch.Json

/-! ## Escapes -/

theorem hexNumber_eq_ok_iff {input rest : List UInt8} {n : Nat} :
    hexNumber input = .ok (n, rest) ↔
      ∃ a b c d, hexNumber? a b c d = some n ∧ input = a :: b :: c :: d :: rest := by
  constructor
  · intro read
    unfold hexNumber at read
    split at read
    · next a b c d behind =>
      split at read
      · next value =>
        cases read
        exact ⟨a, b, c, d, value, rfl⟩
      · cases read
    · cases read
  · rintro ⟨a, b, c, d, value, rfl⟩
    simp only [hexNumber, value]

theorem secondOfPair_eq_ok {first : Nat} {input rest : List UInt8} {c : Char}
    (read : secondOfPair first input = .ok (c, rest)) :
    ∃ second behind, hexNumber behind = .ok (second, rest) ∧ isTrailingSurrogate second = true ∧
      c = charOfPair first second ∧ input = ascii '\\' :: ascii 'u' :: behind := by
  unfold secondOfPair at read
  repeat' split at read
  all_goals try contradiction
  next backslash _ _ behind letter _ second _ found trailing =>
    subst backslash letter
    obtain ⟨same, rfl⟩ := Prod.mk.inj (Except.ok.inj read)
    exact ⟨second, behind, found, trailing, same.symm, rfl⟩

theorem escapeForm_of_escape {input rest : List UInt8} {c : Char}
    (read : escape input = .ok (c, rest)) : ∃ e, EscapeForm e c ∧ input = e ++ rest := by
  cases input with
  | nil => cases read
  | cons b behind =>
    rw [escape] at read
    split at read
    · next letter =>
      subst letter
      split at read
      · cases read
      · next n further found =>
        obtain ⟨a, b, c, d, value, rfl⟩ := hexNumber_eq_ok_iff.mp found
        split at read
        · cases read
        · next nonTrailing =>
          have nonTrailing := eq_false_of_ne_true nonTrailing
          split at read
          · next leading =>
            obtain ⟨second, behind, again, trailing, same, rfl⟩ := secondOfPair_eq_ok read
            obtain ⟨e, f, g, h, other, rfl⟩ := hexNumber_eq_ok_iff.mp again
            have pair := EscapeForm.pair value nonTrailing leading other trailing
            rw [← same] at pair
            exact ⟨_, pair, rfl⟩
          · next nonLeading =>
            cases read
            exact ⟨_, .number value nonTrailing (eq_false_of_ne_true nonLeading), rfl⟩
    · split at read
      · next character =>
        cases read
        exact ⟨_, .letter character, rfl⟩
      · cases read

/-- An escape of one letter is none of a number. -/
theorem ne_u_of_letterEscape? {b : UInt8} {c : Char} (letter : letterEscape? b = some c) :
    b ≠ ascii 'u' := by
  rintro rfl
  cases letter

theorem escape_append {e : List UInt8} {c : Char} (form : EscapeForm e c) (rest : List UInt8) :
    escape (e ++ rest) = .ok (c, rest) := by
  cases form with
  | letter character =>
    simp only [List.cons_append, List.nil_append, escape, if_neg (ne_u_of_letterEscape? character),
      character]
  | number value nonTrailing nonLeading =>
    simp only [List.cons_append, List.nil_append, escape, hexNumber, value, nonTrailing, nonLeading,
      if_pos, Bool.false_eq_true, if_neg not_false]
  | pair value nonTrailing leading other trailing =>
    simp only [List.cons_append, List.nil_append, escape, hexNumber, value, nonTrailing, leading,
      if_pos, Bool.false_eq_true, if_neg not_false, secondOfPair, other, trailing]

theorem passedEscape_of_skipped {input rest : List UInt8} (skipped : skipEscape input = .ok rest) :
    ∃ e, PassedEscape e ∧ input = e ++ rest := by
  cases input with
  | nil => cases skipped
  | cons b behind =>
    rw [skipEscape] at skipped
    split at skipped
    · next letter =>
      subst letter
      split at skipped
      · cases skipped
      · next found =>
        cases skipped
        obtain ⟨a, b, c, d, value, rfl⟩ := hexNumber_eq_ok_iff.mp found
        exact ⟨_, .number value, rfl⟩
    · split at skipped
      · next character =>
        cases skipped
        exact ⟨_, .letter character, rfl⟩
      · cases skipped

theorem skipEscape_append {e : List UInt8} (form : PassedEscape e) (rest : List UInt8) :
    skipEscape (e ++ rest) = .ok rest := by
  cases form with
  | letter character =>
    simp only [List.cons_append, List.nil_append, skipEscape,
      if_neg (ne_u_of_letterEscape? character), character]
  | number value =>
    simp only [List.cons_append, List.nil_append, skipEscape, hexNumber, value, if_pos]

/-! ## Strings that are read -/

theorem plain_takeWhile (input : List UInt8) : ∀ b ∈ input.takeWhile isPlain, isPlain b = true :=
  List.all_eq_true.mp List.all_takeWhile

theorem append_of_dropWhile {p : UInt8 → Bool} {input rest : List UInt8} {b : UInt8}
    (stop : input.dropWhile p = b :: rest) : input = input.takeWhile p ++ b :: rest := by
  rw [← stop, List.takeWhile_append_dropWhile]

/-- Plain bytes run up to the first byte that is not plain. -/
theorem dropWhile_plain {bytes : List UInt8} (plain : ∀ b ∈ bytes, isPlain b = true) {b : UInt8}
    (ends : isPlain b = false) (rest : List UInt8) :
    (bytes ++ b :: rest).dropWhile isPlain = b :: rest ∧
      (bytes ++ b :: rest).takeWhile isPlain = bytes := by
  rw [List.dropWhile_append_of_pos plain, List.dropWhile_cons_of_neg (by simp [ends]),
    List.takeWhile_append_of_pos plain, List.takeWhile_cons_of_neg (by simp [ends]),
    List.append_nil]
  exact ⟨rfl, rfl⟩

theorem spelling_plain {plain text bytes : List UInt8} (all : ∀ b ∈ plain, isPlain b = true)
    (form : Spelling text bytes) : Spelling (plain ++ text) (plain ++ bytes) := by
  induction plain with
  | nil => exact form
  | cons b plain ih =>
    obtain ⟨first, others⟩ := List.forall_mem_cons.mp all
    exact .plain first (ih others)

theorem appendList_assoc (done : Array UInt8) (one two : List UInt8) :
    done ++ one ++ two = done ++ (one ++ two) := by
  apply Array.toList_inj.mp
  simp only [Array.toList_appendList, List.append_assoc]

theorem spelling_of_textBytesAfter {done bytes : Array UInt8} {input rest : List UInt8}
    (read : textBytesAfter done input = .ok (bytes, rest)) :
    ∃ text out, Spelling text out ∧ input = text ++ ascii '"' :: rest ∧ bytes = done ++ out := by
  fun_induction textBytesAfter done input
  all_goals try contradiction
  · next done input behind stop =>
    cases read
    have plain := plain_takeWhile input
    have form := spelling_plain plain .nil
    rw [List.append_nil] at form
    exact ⟨_, _, form, append_of_dropWhile stop, rfl⟩
  · next done input behind c further escaped _ stop _ _ ih =>
    obtain ⟨text, out, form, rfl, rfl⟩ := ih read
    obtain ⟨e, character, rfl⟩ := escapeForm_of_escape escaped
    refine ⟨_, _, spelling_plain (plain_takeWhile input) (.escape character form), ?_, ?_⟩
    · have form := append_of_dropWhile stop
      simp only [List.append_assoc, List.cons_append] at form ⊢
      exact form
    · simp only [appendList_assoc, List.append_assoc]

theorem textBytesAfter_escape {input behind further : List UInt8} {c : Char}
    (stop : input.dropWhile isPlain = ascii '\\' :: behind)
    (escaped : escape behind = .ok (c, further)) (done : Array UInt8) :
    textBytesAfter done input =
      textBytesAfter (done ++ input.takeWhile isPlain ++ String.utf8EncodeChar c) further := by
  rw [textBytesAfter]
  split
  · next none => cases stop.symm.trans none
  · next found =>
    cases stop.symm.trans found
    rw [if_neg (by decide), if_pos rfl]
    split
    · next refused => cases escaped.symm.trans refused
    · next again => cases escaped.symm.trans again; rfl

/-- The plain bytes before the rest of a spelling are taken together with those at its front. -/
theorem textBytesAfter_spelling {text out : List UInt8} (form : Spelling text out)
    (rest plain : List UInt8) (all : ∀ b ∈ plain, isPlain b = true) (done : Array UInt8) :
    textBytesAfter done (plain ++ (text ++ ascii '"' :: rest)) =
      .ok (done ++ (plain ++ out), rest) := by
  induction form generalizing plain done with
  | nil =>
    rw [List.nil_append, List.append_nil]
    exact textBytesAfter_plain all done rest
  | @plain b text out first form ih =>
    have more : ∀ c ∈ plain ++ [b], isPlain c = true :=
      List.forall_mem_append.mpr ⟨all, List.forall_mem_singleton.mpr first⟩
    have read := ih (plain ++ [b]) more done
    rwa [List.append_assoc, List.append_assoc] at read
  | @escape e text out c character form ih =>
    have ends : isPlain (ascii '\\') = false := rfl
    obtain ⟨stop, taken⟩ := dropWhile_plain all ends (e ++ (text ++ ascii '"' :: rest))
    rw [List.cons_append, List.append_assoc,
      textBytesAfter_escape stop (escape_append character _), taken]
    have read := ih [] (List.forall_mem_nil _)
      (done ++ plain ++ String.utf8EncodeChar c)
    rw [List.nil_append, List.nil_append] at read
    rw [read, appendList_assoc, appendList_assoc]

theorem spelling_of_text {input rest : List UInt8} {s : String}
    (read : text input = .ok (s, rest)) :
    ∃ source, Spelling source (s.toList.flatMap String.utf8EncodeChar) ∧
      input = source ++ ascii '"' :: rest := by
  unfold text at read
  split at read
  · cases read
  · next taken =>
    split at read
    · next chars decoded =>
      cases read
      obtain ⟨source, out, form, rfl, rfl⟩ := spelling_of_textBytesAfter taken
      rw [Utf8.decode_eq_iff] at decoded
      refine ⟨source, ?_, rfl⟩
      rw [String.toList_ofList, ← decoded]
      simpa using form
    · cases read

theorem text_append {source : List UInt8} {s : String}
    (form : Spelling source (s.toList.flatMap String.utf8EncodeChar)) (rest : List UInt8) :
    text (source ++ ascii '"' :: rest) = .ok (s, rest) := by
  have taken := textBytesAfter_spelling form rest [] (List.forall_mem_nil _) #[]
  rw [List.nil_append, List.nil_append] at taken
  have decoded : Utf8.decode (s.toList.flatMap String.utf8EncodeChar) = (s.toList, []) :=
    Utf8.decode_eq_iff.mpr rfl
  simp [text, taken, decoded]

/-! ## Strings that are passed over -/

theorem passedText_plain {plain text : List UInt8} (all : ∀ b ∈ plain, isPlain b = true)
    (form : PassedText text) : PassedText (plain ++ text) := by
  induction plain with
  | nil => exact form
  | cons b plain ih =>
    obtain ⟨first, others⟩ := List.forall_mem_cons.mp all
    exact .plain first (ih others)

theorem passedText_of_skipped {input rest : List UInt8} (skipped : skipText input = .ok rest) :
    ∃ text, PassedText text ∧ input = text ++ ascii '"' :: rest := by
  fun_induction skipText input
  all_goals try contradiction
  · next input behind stop =>
    cases skipped
    have form := passedText_plain (plain_takeWhile input) .nil
    rw [List.append_nil] at form
    exact ⟨_, form, append_of_dropWhile stop⟩
  · next input behind further escaped _ stop _ _ ih =>
    obtain ⟨text, form, rfl⟩ := ih skipped
    obtain ⟨e, character, rfl⟩ := passedEscape_of_skipped escaped
    refine ⟨_, passedText_plain (plain_takeWhile input) (.escape character form), ?_⟩
    have source := append_of_dropWhile stop
    simp only [List.append_assoc, List.cons_append] at source ⊢
    exact source

theorem skipText_quote {input rest : List UInt8}
    (stop : input.dropWhile isPlain = ascii '"' :: rest) : skipText input = .ok rest := by
  rw [skipText]
  split
  · next none => cases stop.symm.trans none
  · next found =>
    cases stop.symm.trans found
    rw [if_pos rfl]

theorem skipText_escape {input behind further : List UInt8}
    (stop : input.dropWhile isPlain = ascii '\\' :: behind)
    (escaped : skipEscape behind = .ok further) : skipText input = skipText further := by
  rw [skipText]
  split
  · next none => cases stop.symm.trans none
  · next found =>
    cases stop.symm.trans found
    rw [if_neg (by decide), if_pos rfl]
    split
    · next refused => cases escaped.symm.trans refused
    · next again => cases escaped.symm.trans again; rfl

/-- The plain bytes before the rest of a text are taken together with those at its front. -/
theorem skipText_plain {text : List UInt8} (form : PassedText text) (rest plain : List UInt8)
    (all : ∀ b ∈ plain, isPlain b = true) :
    skipText (plain ++ (text ++ ascii '"' :: rest)) = .ok rest := by
  induction form generalizing plain with
  | nil => exact skipText_quote (dropWhile_plain all rfl rest).1
  | @plain b text first form ih =>
    have more : ∀ c ∈ plain ++ [b], isPlain c = true :=
      List.forall_mem_append.mpr ⟨all, List.forall_mem_singleton.mpr first⟩
    have read := ih (plain ++ [b]) more
    rwa [List.append_assoc] at read
  | @escape e text character form ih =>
    have ends : isPlain (ascii '\\') = false := rfl
    obtain ⟨stop, -⟩ := dropWhile_plain all ends (e ++ (text ++ ascii '"' :: rest))
    rw [List.cons_append, List.append_assoc, skipText_escape stop (skipEscape_append character _)]
    exact ih [] (List.forall_mem_nil _)

theorem skipText_append {text : List UInt8} (form : PassedText text) (rest : List UInt8) :
    skipText (text ++ ascii '"' :: rest) = .ok rest :=
  skipText_plain form rest [] (List.forall_mem_nil _)

end TableSearch.Json
