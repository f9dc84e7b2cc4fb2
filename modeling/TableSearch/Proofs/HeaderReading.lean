import TableSearch.Header

/-!
# Reading a header back

A header is made of lines, each with its end: the two definitions, a blank line, the line that opens
the array with its size, the rows and the line that closes it. The rows share out the values eight
by eight, and what is left over makes the last row. `read?` takes a header apart again without
knowing what it was made of: it splits it into lines, a row at its blanks, and takes the digits of
each number from between the texts that stand around it. What it finds is what was written, so no
two images have the same header.
-/

namespace TableSearch.Header

/-! ## A reader of headers -/

/-- What a header says: its two constants, the size of the array, and the elements in each row. -/
structure Reading where
  failed : Nat
  right : Nat
  size : Nat
  rows : List (List Nat)
  deriving DecidableEq

/-- The text between a front and a back. -/
def between? (front back text : List Char) : Option (List Char) :=
  let behind := text.drop front.length
  let inner := behind.take (behind.length - back.length)
  if text = front ++ inner ++ back then some inner else none

/-- The number that decimal digits stand for. -/
def number? (digits : List Char) : Option Nat :=
  if digits ≠ [] ∧ digits.all Char.isDigit then some (Nat.ofDigitChars 10 digits 0) else none

/-- The number between a front and a back. -/
def numberBetween? (front back : String) (text : List Char) : Option Nat :=
  (between? front.toList back.toList text).bind number?

/-- The elements of a row. -/
def row? (line : List Char) : Option (List Nat) := do
  let elements ← between? "    ".toList [] line
  (elements.splitOn ' ').mapM (numberBetween? "" "ULL,")

/-- The rows up to the line that closes the array, behind which the text ends. -/
def body? : List (List Char) → Option (List (List Nat))
  | [] => none
  | line :: lines =>
    if line = "\x7d;".toList then if lines = [[]] then some [] else none
    else do
      let row ← row? line
      let rows ← body? lines
      return row :: rows

/-- Reads a header. -/
def read? (text : String) : Option Reading :=
  match text.toList.splitOn '\n' with
  | failed :: right :: [] :: opening :: body => do
    let failed ← numberBetween? "#define FAILED " "" failed
    let right ← numberBetween? "#define RIGHT " "" right
    let size ← numberBetween? "unsigned long long array[" "] = \x7b" opening
    let rows ← body? body
    return ⟨failed, right, size, rows⟩
  | _ => none

/-! ## Numbers -/

theorem between?_append (front back inner : List Char) :
    between? front back (front ++ inner ++ back) = some inner := by
  have behind : (front ++ inner ++ back).drop front.length = inner ++ back := by
    rw [List.append_assoc, List.drop_left]
  have taken : (inner ++ back).take ((inner ++ back).length - back.length) = inner := by
    rw [List.length_append, Nat.add_sub_cancel, List.take_left]
  simp only [between?, behind, taken, if_pos]

theorem isDigit_of_mem_decimal {n : Nat} {c : Char} (mem : c ∈ decimal n) : c.isDigit = true :=
  Nat.isDigit_of_mem_toDigits (by decide) (by decide) mem

theorem number?_decimal (n : Nat) : number? (decimal n) = some n := by
  have digits : decimal n ≠ [] ∧ (decimal n).all Char.isDigit :=
    ⟨Nat.toDigits_ne_nil, List.all_eq_true.mpr fun _ => isDigit_of_mem_decimal⟩
  have value : Nat.ofDigitChars 10 (decimal n) 0 = n := Nat.ofDigitChars_ten_toDigits
  rw [number?, if_pos digits, value]

theorem numberBetween?_append (front back : String) (n : Nat) :
    numberBetween? front back (front.toList ++ decimal n ++ back.toList) = some n := by
  rw [numberBetween?, between?_append, Option.bind_some, number?_decimal]

/-! ## Rows -/

theorem flatten_rows (values : List UInt64) : (rows values).flatten = values := by
  fun_induction rows values with
  | case1 => rfl
  | case2 value rest ih => rw [List.flatten_cons, ih, List.take_append_drop]

/-- There are as many rows as it takes for all values. -/
theorem length_rows (values : List UInt64) : (rows values).length = (values.length + 7) / 8 := by
  fun_induction rows values with
  | case1 => rfl
  | case2 value rest ih =>
    rw [List.length_cons, ih, List.length_drop, valuesPerRow, List.length_cons]
    omega

/-- All rows but the last are full, and the last is not empty. -/
structure Filled (rows : List (List UInt64)) : Prop where
  full : ∀ row ∈ rows.dropLast, row.length = 8
  last : ∀ row, rows.getLast? = some row → 1 ≤ row.length ∧ row.length ≤ 8

theorem Filled.single {row : List UInt64} (some : 1 ≤ row.length) (few : row.length ≤ 8) :
    Filled [row] where
  full := List.forall_mem_nil _
  last other only := by
    cases only
    exact ⟨some, few⟩

theorem Filled.cons {row : List UInt64} {rows : List (List UInt64)} (full : row.length = 8)
    (more : rows ≠ []) (filled : Filled rows) : Filled (row :: rows) where
  full := by
    rw [List.dropLast_cons_of_ne_nil more]
    exact List.forall_mem_cons.mpr ⟨full, filled.full⟩
  last other final := by
    obtain ⟨next, others, rfl⟩ := List.exists_cons_of_ne_nil more
    rw [List.getLast?_cons_cons] at final
    exact filled.last other final

theorem filled_rows {values : List UInt64} (nonempty : values ≠ []) : Filled (rows values) := by
  fun_induction rows values with
  | case1 => exact absurd rfl nonempty
  | case2 value rest ih =>
    have length : ((value :: rest).take valuesPerRow).length = min 8 (rest.length + 1) := by
      rw [List.length_take, List.length_cons, valuesPerRow]
    cases left : (value :: rest).drop valuesPerRow with
    | nil =>
      rw [rows]
      exact .single (by omega) (by omega)
    | cons next others =>
      rw [left] at ih
      have more : (value :: rest).drop valuesPerRow ≠ [] := by simp [left]
      have exceeds : 8 < rest.length + 1 := List.length_lt_of_drop_ne_nil more
      have rows_ne : rows (next :: others) ≠ [] := by
        rw [rows]
        exact List.cons_ne_nil _ _
      exact .cons (by omega) rows_ne (ih (List.cons_ne_nil _ _))

/-! ## Lines -/

/-- The line of a row: four blanks, and its elements with a blank between them. -/
def rowLine (row : List UInt64) : List Char :=
  "    ".toList ++ [' '].intercalate (row.map element)

/-- The lines of a header, with values shared out to rows. -/
def lines (m : Image) (rows : List (List UInt64)) : List (List Char) :=
  ("#define FAILED ".toList ++ decimal m.failed.toNat) ::
    ("#define RIGHT ".toList ++ decimal m.right.toNat) :: [] ::
    ("unsigned long long array[".toList ++ decimal m.table.size ++ "] = \x7b".toList) ::
    (rows.map rowLine ++ ["\x7d;".toList])

theorem chars_eq_lines (m : Image) :
    chars m = (lines m (rows m.table.values.toList)).flatMap (· ++ ['\n']) := by
  have each : (rows m.table.values.toList).flatMap row =
      ((rows m.table.values.toList).map rowLine).flatMap (· ++ ['\n']) := by
    rw [List.flatMap_map]
    rfl
  have defines (name text : String) (value : UInt32)
      (front : "#define ".toList ++ name.toList ++ [' '] = text.toList) :
      definition name value = text.toList ++ decimal value.toNat ++ ['\n'] :=
    congrArg (fun front => front ++ decimal value.toNat ++ ['\n']) front
  have opens : "] = \x7b\n".toList = "] = \x7b".toList ++ ['\n'] := by decide
  have opened : opening m.table.size =
      "unsigned long long array[".toList ++ decimal m.table.size ++ "] = \x7b".toList ++ ['\n'] :=
    (congrArg ("unsigned long long array[".toList ++ decimal m.table.size ++ ·) opens).trans
      (List.append_assoc _ _ _).symm
  have closed : "\x7d;\n".toList = "\x7d;".toList ++ ['\n'] := by decide
  rw [chars, each, defines "FAILED" "#define FAILED " m.failed (by decide),
    defines "RIGHT" "#define RIGHT " m.right (by decide), opened, closed, lines]
  simp only [List.flatMap_cons, List.flatMap_append, List.flatMap_nil, List.append_assoc,
    List.append_nil, List.nil_append]

theorem not_mem_element {c : Char} (other : c.isDigit = false) (outside : c ∉ "ULL,".toList)
    (value : UInt64) : c ∉ element value := by
  rw [element, List.mem_append]
  refine not_or_intro (fun mem => ?_) outside
  rw [isDigit_of_mem_decimal mem] at other
  cases other

theorem mem_of_mem_intercalate {c : Char} {separator : List Char} {parts : List (List Char)}
    (mem : c ∈ separator.intercalate parts) : c ∈ separator ∨ ∃ part ∈ parts, c ∈ part := by
  induction parts with
  | nil => cases mem
  | cons one parts ih =>
    cases parts with
    | nil =>
      rw [List.intercalate_singleton] at mem
      exact .inr ⟨one, List.mem_cons_self, mem⟩
    | cons two parts =>
      rw [List.intercalate_cons_cons, List.mem_append, List.mem_append] at mem
      rcases mem with (first | between) | behind
      · exact .inr ⟨one, List.mem_cons_self, first⟩
      · exact .inl between
      · exact (ih behind).imp_right fun ⟨part, later, inside⟩ =>
          ⟨part, List.mem_cons_of_mem _ later, inside⟩

/-- The characters other than digits that the lines of a header are written in. -/
def signs : List Char := "#define FAILED RIGHT unsigned long long array[] = \x7b\x7d;ULL,".toList

theorem isDigit_or_mem_signs {m : Image} {rows : List (List UInt64)} {line : List Char}
    (isLine : line ∈ lines m rows) : ∀ c ∈ line, c.isDigit = true ∨ c ∈ signs := by
  have digits (n : Nat) : ∀ c ∈ decimal n, c.isDigit = true ∨ c ∈ signs :=
    fun _ mem => .inl (isDigit_of_mem_decimal mem)
  have known {text : List Char} (among : text ⊆ signs) :
      ∀ c ∈ text, c.isDigit = true ∨ c ∈ signs := fun _ mem => .inr (among mem)
  have elements (value : UInt64) : ∀ c ∈ element value, c.isDigit = true ∨ c ∈ signs :=
    List.forall_mem_append.mpr ⟨digits _, known (by decide)⟩
  have row (values : List UInt64) : ∀ c ∈ rowLine values, c.isDigit = true ∨ c ∈ signs := by
    refine List.forall_mem_append.mpr ⟨known (by decide), fun c mem => ?_⟩
    rcases mem_of_mem_intercalate mem with blank | ⟨part, isElement, inside⟩
    · exact known (by decide) c blank
    · obtain ⟨value, -, rfl⟩ := List.mem_map.mp isElement
      exact elements value c inside
  revert line
  simp only [lines, List.forall_mem_cons, List.forall_mem_append, List.forall_mem_map]
  exact ⟨⟨known (by decide), digits _⟩, ⟨known (by decide), digits _⟩, List.forall_mem_nil _,
    ⟨⟨known (by decide), digits _⟩, known (by decide)⟩, fun values _ => row values,
    known (by decide), List.forall_mem_nil _⟩

theorem newline_not_mem_lines (m : Image) (rows : List (List UInt64)) :
    ∀ line ∈ lines m rows, '\n' ∉ line := by
  intro line isLine mem
  rcases isDigit_or_mem_signs isLine _ mem with digit | sign
  · cases digit
  · exact absurd sign (by decide)

/-! ## What is read -/

theorem mapM_element (row : List UInt64) :
    (row.map element).mapM (numberBetween? "" "ULL,") = some (row.map UInt64.toNat) := by
  induction row with
  | nil => rfl
  | cons value row ih =>
    have one : numberBetween? "" "ULL," (element value) = some value.toNat :=
      numberBetween?_append "" "ULL," value.toNat
    rw [List.map_cons, List.mapM_cons, one, ih]
    rfl

theorem row?_rowLine {row : List UInt64} (nonempty : row ≠ []) :
    row? (rowLine row) = some (row.map UInt64.toNat) := by
  have blankless : ∀ part ∈ row.map element, ' ' ∉ part := by
    intro part mem
    obtain ⟨value, -, rfl⟩ := List.mem_map.mp mem
    exact not_mem_element rfl (by decide) value
  have inner := between?_append "    ".toList [] ([' '].intercalate (row.map element))
  rw [List.append_nil] at inner
  have parts := List.splitOn_intercalate ' ' blankless (by simpa using nonempty)
  rw [row?, rowLine, inner]
  simp only [Option.bind_eq_bind, Option.bind_some, parts, mapM_element]

theorem body?_rowLines {rows : List (List UInt64)} (nonempty : ∀ row ∈ rows, row ≠ []) :
    body? (rows.map rowLine ++ ["\x7d;".toList, []]) = some (rows.map (·.map UInt64.toNat)) := by
  induction rows with
  | nil => rfl
  | cons row rows ih =>
    obtain ⟨first, others⟩ := List.forall_mem_cons.mp nonempty
    have inside : rowLine row ≠ "\x7d;".toList :=
      fun same => absurd (List.cons.inj same).1 (by decide)
    rw [List.map_cons, List.cons_append, body?, if_neg inside, row?_rowLine first, ih others]
    rfl

theorem ne_nil_of_mem_rows {values row : List UInt64} (mem : row ∈ rows values) : row ≠ [] := by
  fun_induction rows values with
  | case1 => cases mem
  | case2 value rest ih =>
    rcases List.mem_cons.mp mem with rfl | later
    · exact List.cons_ne_nil _ _
    · exact ih later

/-- Lines with their ends are split into themselves and the nothing behind the last end. -/
theorem splitOn_lines {ls : List (List Char)} (inner : ∀ line ∈ ls, '\n' ∉ line) :
    (ls.flatMap (· ++ ['\n'])).splitOn '\n' = ls ++ [[]] := by
  have joined : ls.flatMap (· ++ ['\n']) = ['\n'].intercalate (ls ++ [[]]) := by
    clear inner
    induction ls with
    | nil => rfl
    | cons line ls ih =>
      have something : ls ++ [[]] ≠ [] := by simp
      obtain ⟨next, others, same⟩ := List.exists_cons_of_ne_nil something
      rw [List.flatMap_cons, ih, List.cons_append, same, List.intercalate_cons_cons]
  have all : ∀ line ∈ ls ++ [[]], '\n' ∉ line := by
    rw [List.forall_mem_append]
    exact ⟨inner, by simp⟩
  rw [joined, List.splitOn_intercalate '\n' all (by simp)]

/-- What is read from a header is what was written in it. -/
theorem read?_render (m : Image) :
    read? (render m) = some ⟨m.failed.toNat, m.right.toNat, m.table.size,
      (rows m.table.values.toList).map (·.map UInt64.toNat)⟩ := by
  have split := splitOn_lines (newline_not_mem_lines m (rows m.table.values.toList))
  have failed := numberBetween?_append "#define FAILED " "" m.failed.toNat
  have right := numberBetween?_append "#define RIGHT " "" m.right.toNat
  have size := numberBetween?_append "unsigned long long array[" "] = \x7b" m.table.size
  have nonempty : ∀ row ∈ rows m.table.values.toList, row ≠ [] := fun _ => ne_nil_of_mem_rows
  have body := body?_rowLines nonempty
  rw [String.toList_empty, List.append_nil] at failed right
  rw [read?, render, String.toList_ofList, chars_eq_lines, split]
  simp only [lines, List.cons_append, List.append_assoc, List.nil_append]
  rw [List.append_assoc] at size
  simp only [failed, right, size, body, Option.bind_eq_bind, Option.bind_some, Option.pure_def]

/-- The header of an image tells it from all others. -/
theorem eq_of_render_eq {m n : Image} (same : render m = render n) : m = n := by
  have read := read?_render m
  rw [same, read?_render n] at read
  injection read with read
  injection read with failed right _ shared
  have values := congrArg List.flatten shared
  rw [← List.map_flatten, ← List.map_flatten, flatten_rows, flatten_rows,
    List.map_inj_right fun _ _ => UInt64.toNat_inj.mp] at values
  apply Image.ext
  · have config : m.config = ⟨m.right, m.failed⟩ := rfl
    rw [config, UInt32.toNat_inj.mp right.symm, UInt32.toNat_inj.mp failed.symm]
    rfl
  · exact Table.ext (Array.toList_inj.mp values.symm)

/-- A header is made of lines without line ends of their own, each followed by one: its two
definitions in decimal, a blank line, the opening of the array with the number of its elements, one
row for every eight values and one more for what is left over, and the end of the array. All rows
but the last hold eight elements and the last at least one, and together they are the values of the
table in their order. A reader that knows nothing of the image finds the two constants, as many
elements as the array is said to have, and in them the values. So no two images have the same
header. -/
theorem render_faithful (m : Image) :
    ∃ (rows : List (List UInt64)) (reading : Reading),
      (render m).toList = (lines m rows).flatMap (· ++ ['\n']) ∧
      (∀ line ∈ lines m rows, '\n' ∉ line) ∧
      rows.length = (m.table.size + 7) / 8 ∧ Filled rows ∧
      rows.flatten = m.table.values.toList ∧
      read? (render m) = some reading ∧
      reading.failed = m.failed.toNat ∧ reading.right = m.right.toNat ∧
      reading.rows = rows.map (·.map UInt64.toNat) ∧
      reading.rows.flatten = m.table.values.toList.map UInt64.toNat ∧
      reading.size = m.table.size ∧ reading.size = reading.rows.flatten.length ∧
      ∀ other, render other = render m → other = m := by
  have nonempty : m.table.values.toList ≠ [] := List.ne_nil_of_length_pos m.table.size_pos
  have elements : ((rows m.table.values.toList).map (·.map UInt64.toNat)).flatten =
      m.table.values.toList.map UInt64.toNat := by
    rw [← List.map_flatten, flatten_rows]
  refine ⟨rows m.table.values.toList, _, ?_, newline_not_mem_lines m _, length_rows _,
    filled_rows nonempty, flatten_rows _, read?_render m, rfl, rfl, rfl, elements, rfl, ?_,
    fun _ => eq_of_render_eq⟩
  · rw [render, String.toList_ofList, chars_eq_lines]
  · rw [elements, List.length_map]
    rfl

/-- Nine values fill a row and begin another. -/
theorem render_faithful_nine :
    ∃ (m : Image) (first second : List UInt64), m.table.values = #[1, 2, 3, 4, 5, 6, 7, 8, 9] ∧
      (render m).toList = (lines m [first, second]).flatMap (· ++ ['\n']) ∧
      first.length = 8 ∧ 1 ≤ second.length ∧ second.length ≤ 8 ∧
      first ++ second = [1, 2, 3, 4, 5, 6, 7, 8, 9] := by
  let t : Table := ⟨#[1, 2, 3, 4, 5, 6, 7, 8, 9], by decide, by decide, by decide⟩
  let m : Image := ⟨⟨8, 9⟩, t, by decide, by decide⟩
  obtain ⟨rows, -, written, -, number, filled, values, -⟩ := render_faithful m
  have nine : m.table.size = 9 := rfl
  have two : rows.length = 1 + 1 := by rw [number, nine]
  obtain ⟨first, others, rfl⟩ := List.exists_cons_of_length_eq_add_one two
  obtain ⟨second, nothing, rfl⟩ := List.exists_cons_of_length_eq_add_one (Nat.succ.inj two)
  obtain rfl := List.eq_nil_of_length_eq_zero (Nat.succ.inj (Nat.succ.inj two))
  rw [List.flatten_cons, List.flatten_cons, List.flatten_nil, List.append_nil] at values
  obtain ⟨some, few⟩ := filled.last second rfl
  exact ⟨m, first, second, rfl, written, filled.full first (List.mem_singleton_self _), some, few,
    values⟩

end TableSearch.Header
