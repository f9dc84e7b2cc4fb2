import TableSearch.Proofs.JsonGrammar

/-!
# Numbers are read by their grammar

A natural number comes from its decimal digits and from nothing else: whatever goes on behind them
makes a floating-point number of it. A number that is passed over is taken as far as it goes, so
what follows it must not continue it.
-/

namespace TableSearch.Json

/-! ## Integers that are read -/

theorem float_of_floatBefore {negative : Bool} {significand : Nat} {place : Int}
    {input rest : List UInt8} {m : Number}
    (read : floatBefore negative significand place input = .ok (m, rest)) : ∃ x, m = .float x := by
  unfold floatBefore at read
  split at read
  · cases read
    exact ⟨_, rfl⟩
  · cases read

theorem float_of_exponent {negative : Bool} {significand : Nat} {place : Int}
    {input rest : List UInt8} {m : Number}
    (read : exponent negative significand place input = .ok (m, rest)) : ∃ x, m = .float x := by
  simp only [exponent] at read
  repeat' split at read
  all_goals first
    | contradiction
    | (cases read
       exact ⟨_, rfl⟩)
    | exact float_of_floatBefore read

theorem float_of_exponentOrEnd {negative : Bool} {significand : Nat} {place : Int}
    {input rest : List UInt8} {m : Number}
    (read : exponentOrEnd negative significand place input = .ok (m, rest)) :
    ∃ x, m = .float x := by
  unfold exponentOrEnd at read
  repeat' split at read
  · exact float_of_exponent read
  · exact float_of_floatBefore read
  · exact float_of_floatBefore read

theorem float_of_fraction {negative : Bool} {significand : Nat} {place : Int}
    {input rest : List UInt8} {m : Number}
    (read : fraction negative significand place input = .ok (m, rest)) : ∃ x, m = .float x := by
  unfold fraction at read
  repeat' split at read
  · cases read
  · exact float_of_exponentOrEnd read
  · cases read

/-- A natural number ends with its integer part, all of whose digits have been held. -/
theorem natural_of_afterInteger {negative : Bool} {significand dropped n : Nat}
    {input rest : List UInt8}
    (read : afterInteger negative significand dropped input = .ok (.natural n, rest)) :
    negative = false ∧ n = significand ∧ dropped = 0 ∧ rest = input := by
  have whole {input : List UInt8}
      (read : integerBefore negative significand input = .ok (.natural n, rest)) :
      negative = false ∧ n = significand ∧ rest = input := by
    unfold integerBefore at read
    split at read
    · next unsigned =>
      cases read
      exact ⟨by simpa using unsigned, rfl, rfl⟩
    · split at read
      · cases read
      · obtain ⟨x, other⟩ := float_of_floatBefore read
        cases other
  unfold afterInteger at read
  split at read
  · split at read
    · obtain ⟨x, other⟩ := float_of_fraction read
      cases other
    · split at read
      · obtain ⟨x, other⟩ := float_of_exponentOrEnd read
        cases other
      · next held =>
        obtain ⟨unsigned, same, rfl⟩ := whole read
        exact ⟨unsigned, same, by simpa using (not_or.mp held).2, rfl⟩
  · split at read
    · obtain ⟨x, other⟩ := float_of_floatBefore read
      cases other
    · next held =>
      obtain ⟨unsigned, same, rfl⟩ := whole read
      exact ⟨unsigned, same, by simpa using held, rfl⟩

theorem isDigit_iff {b : UInt8} : isDigit b = true ↔ 48 ≤ b.toNat ∧ b.toNat ≤ 57 := by
  simp only [isDigit, Bool.and_eq_true, decide_eq_true_eq, UInt8.le_iff_toNat_le]
  rfl

theorem digitValue_pos {b : UInt8} (digit : isDigit b = true) (nonzero : b ≠ ascii '0') :
    0 < digitValue b := by
  have low := (isDigit_iff.mp digit).1
  have other : b.toNat ≠ 48 := fun same => nonzero (UInt8.toNat_inj.mp same)
  unfold digitValue
  omega

/-- The byte of a digit is the decimal text of its value. -/
theorem decimal_digitValue {b : UInt8} (digit : isDigit b = true) :
    digitValue b < 10 ∧ decimal (digitValue b) = [b] := by
  obtain ⟨low, high⟩ := isDigit_iff.mp digit
  have small : digitValue b < 10 := by
    unfold digitValue
    omega
  have alone : Nat.toDigits 10 (digitValue b) = [(digitValue b).digitChar] :=
    Nat.toDigits_of_lt_base small
  have value : (digitValue b).digitChar.toNat = b.toNat := by
    have mem : (digitValue b).digitChar ∈ Nat.toDigits 10 (digitValue b) := by
      rw [alone]
      exact List.mem_singleton_self _
    have least : 48 ≤ (digitValue b).digitChar.toNat :=
      (Char.isDigit_iff_toNat.mp (Nat.isDigit_of_mem_toDigits (by decide) (by decide) mem)).1
    have above : (digitValue b).digitChar.toNat - 48 = b.toNat - 48 :=
      Nat.toNat_digitChar_sub_48_of_lt_ten small
    omega
  refine ⟨small, ?_⟩
  rw [decimal, alone, List.map_singleton, List.cons.injEq, ← UInt8.toNat_inj,
    toNat_ascii (by omega), value]
  exact ⟨rfl, rfl⟩

/-- Digits behind a number that is not zero lengthen its decimal text. -/
theorem decimal_of_digits {n : Nat} (leading : 0 < n) (limit : Nat) (input : List UInt8) :
    ∃ more, input = more ++ (digits limit n input).2 ∧
      decimal (digits limit n input).1 = decimal n ++ more := by
  induction input generalizing n with
  | nil => exact ⟨[], rfl, (List.append_nil _).symm⟩
  | cons b input ih =>
    rw [digits]
    split
    · next digit =>
      obtain ⟨small, single⟩ := decimal_digitValue digit.1
      obtain ⟨more, form, same⟩ := ih (n := 10 * n + digitValue b) (by omega)
      refine ⟨b :: more, congrArg (b :: ·) form, ?_⟩
      have longer : decimal (10 * n + digitValue b) = decimal n ++ [b] := by
        rw [decimal, ← Nat.toDigits_append_toDigits (by decide) leading small, List.map_append]
        exact congrArg _ single
      rw [same, longer, List.append_assoc, List.singleton_append]
    · exact ⟨[], rfl, (List.append_nil _).symm⟩

/-- A natural number is read from its decimal text. -/
theorem natural_of_number {negative : Bool} {n : Nat} {input rest : List UInt8}
    (read : number negative input = .ok (.natural n, rest)) :
    negative = false ∧ input = decimal n ++ rest := by
  cases input with
  | nil => cases read
  | cons b behind =>
    simp only [number] at read
    split at read
    · next zero =>
      subst zero
      have ends : afterInteger negative 0 0 behind = .ok (.natural n, rest) := by
        split at read
        · split at read
          · cases read
          · exact read
        · exact read
      obtain ⟨unsigned, rfl, -, rfl⟩ := natural_of_afterInteger ends
      exact ⟨unsigned, rfl⟩
    · next nonzero =>
      split at read
      · next digit =>
        obtain ⟨unsigned, same, held, rfl⟩ := natural_of_afterInteger read
        obtain ⟨small, single⟩ := decimal_digitValue digit
        have first : digits largest 0 (b :: behind) = digits largest (digitValue b) behind := by
          rw [digits, Nat.mul_zero, Nat.zero_add, if_pos]
          exact ⟨digit, Nat.le_trans (Nat.le_of_lt small) (by decide)⟩
        -- no digit was dropped, so nothing but the digits that were held has been taken
        have kept : (digits largest 0 (b :: behind)).2.dropWhile isDigit =
            (digits largest 0 (b :: behind)).2 := by
          have all := List.takeWhile_append_dropWhile (p := isDigit)
            (l := (digits largest 0 (b :: behind)).2)
          rwa [List.eq_nil_of_length_eq_zero held, List.nil_append] at all
        obtain ⟨more, form, longer⟩ :=
          decimal_of_digits (digitValue_pos digit nonzero) largest behind
        rw [kept, same, first, longer, single, List.singleton_append, List.cons_append, ← form]
        exact ⟨unsigned, rfl⟩
      · cases read

/-! ## Numbers that are passed over -/

theorem allDigits_takeWhile (input : List UInt8) : AllDigits (input.takeWhile isDigit) :=
  List.all_eq_true.mp List.all_takeWhile

theorem dropWhile_digits {others rest : List UInt8} (all : AllDigits others)
    (ends : startsWithDigit rest = false) : (others ++ rest).dropWhile isDigit = rest := by
  rw [List.dropWhile_append_of_pos all]
  cases rest with
  | nil => rfl
  | cons b rest => exact List.dropWhile_cons_of_neg (by simpa [startsWithDigit] using ends)

theorem startsWithDigit_of_stops {rest : List UInt8} (stops : Stops rest) :
    startsWithDigit rest = false := by
  cases rest with
  | nil => rfl
  | cons b rest => exact stops.1

theorem isDigit_of_isExponentMark {mark : UInt8} (marks : isExponentMark mark = true) :
    isDigit mark = false ∧ mark ≠ ascii '.' := by
  simp only [isExponentMark, Bool.or_eq_true, decide_eq_true_eq] at marks
  rcases marks with rfl | rfl
  all_goals exact ⟨rfl, by decide⟩

theorem exists_signPart (input : List UInt8) :
    ∃ sign, SignPart sign ∧ input = sign ++ (exponentSign input).2 := by
  cases input with
  | nil => exact ⟨[], .none, rfl⟩
  | cons b behind =>
    rw [exponentSign]
    split
    · next plus =>
      subst plus
      exact ⟨_, .plus, rfl⟩
    · split
      · next minus =>
        subst minus
        exact ⟨_, .minus, rfl⟩
      · exact ⟨[], .none, rfl⟩

theorem exponentSign_append {sign : List UInt8} (signed : SignPart sign) {b : UInt8}
    (digit : isDigit b = true) (rest : List UInt8) :
    (exponentSign (sign ++ b :: rest)).2 = b :: rest := by
  cases signed with
  | none =>
    have plus : b ≠ ascii '+' := by
      rintro rfl
      exact absurd digit (by decide)
    have minus : b ≠ ascii '-' := by
      rintro rfl
      exact absurd digit (by decide)
    rw [List.nil_append, exponentSign, if_neg plus, if_neg minus]
  | plus => rfl
  | minus => rfl

theorem exponentPart_of_skipped {input rest : List UInt8}
    (skipped : skipExponentIfAny input = .ok rest) :
    ∃ part, ExponentPart part ∧ input = part ++ rest := by
  cases input with
  | nil =>
    cases skipped
    exact ⟨[], .none, rfl⟩
  | cons mark behind =>
    rw [skipExponentIfAny] at skipped
    split at skipped
    · next marks =>
      obtain ⟨sign, signed, form⟩ := exists_signPart behind
      unfold skipExponent at skipped
      split at skipped
      · cases skipped
      · next b others unsigned =>
        split at skipped
        · next digit =>
          cases skipped
          refine ⟨_, .digits marks signed digit (allDigits_takeWhile others), ?_⟩
          rw [unsigned] at form
          rw [List.cons_append, List.append_assoc, List.cons_append,
            List.takeWhile_append_dropWhile, ← form]
        · cases skipped
    · cases skipped
      exact ⟨[], .none, rfl⟩

theorem skipExponentIfAny_append {part : List UInt8} (form : ExponentPart part)
    {rest : List UInt8} (stops : Stops rest) : skipExponentIfAny (part ++ rest) = .ok rest := by
  cases form with
  | none =>
    cases rest with
    | nil => rfl
    | cons b rest => rw [List.nil_append, skipExponentIfAny, if_neg (by simp [stops.2.2])]
  | @digits mark b sign others marks signed digit all =>
    rw [List.cons_append, List.append_assoc, List.cons_append, skipExponentIfAny, if_pos marks,
      skipExponent, exponentSign_append signed digit]
    simp only [if_pos digit, dropWhile_digits all (startsWithDigit_of_stops stops)]

theorem fractionPart_of_skipped {input rest : List UInt8}
    (skipped : skipAfterInteger input = .ok rest) :
    ∃ fraction exponent, FractionPart fraction ∧ ExponentPart exponent ∧
      input = fraction ++ (exponent ++ rest) := by
  cases input with
  | nil =>
    cases skipped
    exact ⟨[], [], .none, .none, rfl⟩
  | cons point behind =>
    rw [skipAfterInteger] at skipped
    split at skipped
    · next same =>
      subst same
      cases behind with
      | nil => cases skipped
      | cons b others =>
        split at skipped
        · next digit =>
          have digit : isDigit b = true := digit
          obtain ⟨exponent, form, taken⟩ := exponentPart_of_skipped skipped
          rw [List.dropWhile_cons_of_pos digit] at taken
          refine ⟨_, exponent, .digits digit (allDigits_takeWhile others), form, ?_⟩
          rw [List.cons_append, List.cons_append, ← taken, List.takeWhile_append_dropWhile]
        · cases skipped
    · obtain ⟨exponent, form, taken⟩ := exponentPart_of_skipped skipped
      exact ⟨[], exponent, .none, form, taken⟩

theorem startsWithDigit_exponent {part rest : List UInt8} (form : ExponentPart part)
    (stops : Stops rest) : startsWithDigit (part ++ rest) = false := by
  cases form with
  | none => exact startsWithDigit_of_stops stops
  | digits marks => exact (isDigit_of_isExponentMark marks).1

theorem startsWithDigit_fraction {fraction exponent rest : List UInt8}
    (first : FractionPart fraction) (second : ExponentPart exponent) (stops : Stops rest) :
    startsWithDigit (fraction ++ (exponent ++ rest)) = false := by
  cases first with
  | none =>
    rw [List.nil_append]
    exact startsWithDigit_exponent second stops
  | digits => rfl

theorem skipAfterInteger_append {fraction exponent rest : List UInt8}
    (first : FractionPart fraction) (second : ExponentPart exponent) (stops : Stops rest) :
    skipAfterInteger (fraction ++ (exponent ++ rest)) = .ok rest := by
  have last := skipExponentIfAny_append second stops
  cases first with
  | none =>
    cases second with
    | none =>
      cases rest with
      | nil => rfl
      | cons b rest =>
        rw [List.nil_append, List.nil_append, skipAfterInteger, if_neg stops.2.1]
        exact last
    | digits marks =>
      rw [List.cons_append] at last
      rw [List.nil_append, List.cons_append, skipAfterInteger,
        if_neg (isDigit_of_isExponentMark marks).2]
      exact last
  | @digits b others digit all =>
    have ends := startsWithDigit_exponent second stops
    have digits : AllDigits (b :: others) := List.forall_mem_cons.mpr ⟨digit, all⟩
    have more : startsWithDigit (b :: (others ++ (exponent ++ rest))) = true := digit
    rw [List.cons_append, List.cons_append, skipAfterInteger, if_pos rfl, if_pos more,
      ← List.cons_append, dropWhile_digits digits ends]
    exact last

theorem unsignedNumber_of_skipped {input rest : List UInt8}
    (skipped : skipNumber input = .ok rest) : ∃ text, UnsignedNumber text ∧ input = text ++ rest := by
  cases input with
  | nil => cases skipped
  | cons b behind =>
    rw [skipNumber] at skipped
    split at skipped
    · next zero =>
      subst zero
      split at skipped
      · cases skipped
      · obtain ⟨fraction, exponent, first, second, rfl⟩ := fractionPart_of_skipped skipped
        refine ⟨_, .parts .zero first second, ?_⟩
        simp only [List.cons_append, List.nil_append, List.append_assoc]
    · next nonzero =>
      split at skipped
      · next digit =>
        obtain ⟨fraction, exponent, first, second, taken⟩ := fractionPart_of_skipped skipped
        refine ⟨_, .parts (.digits digit nonzero (allDigits_takeWhile behind)) first second, ?_⟩
        rw [List.append_assoc, List.append_assoc, ← taken, List.cons_append,
          List.takeWhile_append_dropWhile]
      · cases skipped

theorem skipNumber_append {text : List UInt8} (form : UnsignedNumber text) {rest : List UInt8}
    (stops : Stops rest) : skipNumber (text ++ rest) = .ok rest := by
  cases form with
  | @parts integer fraction exponent whole first second =>
    have ends := startsWithDigit_fraction first second stops
    have last := skipAfterInteger_append first second stops
    rw [List.append_assoc, List.append_assoc]
    cases whole with
    | zero =>
      rw [List.cons_append, List.nil_append, skipNumber, if_pos rfl, if_neg (by simp [ends]), last]
    | @digits b others digit nonzero all =>
      rw [List.cons_append, skipNumber, if_neg nonzero, if_pos digit, dropWhile_digits all ends,
        last]

end TableSearch.Json
