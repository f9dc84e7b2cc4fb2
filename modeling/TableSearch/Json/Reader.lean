import TableSearch.Json.Skip

/-!
# Readers of JSON text

A reader takes a value of a known shape off the front of the input and leaves the rest. It always
takes something, which is why lists and records, read item by item, come to an end. There are
readers of integers up to a limit, of lists, and of records.

A record has two members. It is written as an object, in which members may come in any order
between members of other names, or as a list of the two values. A fault that is noticed between
members is placed where the record ends, if it ends there.
-/

namespace TableSearch.Json

/-- A reader of values. -/
structure Reader (α : Type) where
  /-- Takes a value off the front of the input. -/
  read : List UInt8 → Except Fault (α × List UInt8)
  /-- A value takes at least one byte. -/
  shortens : ∀ {input a rest}, read input = .ok (a, rest) → rest.length < input.length

namespace Reader

variable {α β : Type}

/-- Changes the value that is read. -/
def map (f : α → β) (r : Reader α) : Reader β where
  read input := (r.read input).map fun (a, rest) => (f a, rest)
  shortens := by
    intro input b rest read
    cases inner : r.read input with
    | error fault => rw [inner] at read; cases read
    | ok pair =>
      rw [inner] at read
      obtain ⟨-, rfl⟩ := Prod.mk.inj (Except.ok.inj read)
      exact r.shortens inner

/-- Holds the value that is read to the rules of tables or images. -/
def check (f : α → Except Rejection β) (r : Reader α) : Reader β where
  read input :=
    match r.read input with
    | .error fault => .error fault
    | .ok (a, rest) =>
      match f a with
      | .error rejection => .error (.noticed (.rejected rejection) rest)
      | .ok b => .ok (b, rest)
  shortens := by
    intro input b rest read
    split at read
    · cases read
    · next inner =>
      split at read
      · cases read
      · obtain ⟨-, rfl⟩ := Prod.mk.inj (Except.ok.inj read)
        exact r.shortens inner

end Reader

/-! ## Values of another kind -/

/-- The fault of a word that stands for a value of another kind. -/
def refuseWord (letters : String) (found : Found) (expected : String) (input : List UInt8) :
    Fault :=
  match word (asciiBytes letters) input with
  | .error fault => fault
  | .ok rest => .here (.wrongKind found expected) rest

/-- The fault of a number that stands in place of a value of another kind. -/
def refuseNumber (expected : String) : Except Fault (Number × List UInt8) → Fault
  | .error fault => fault
  | .ok (n, rest) => .here (.wrongKind n.found expected) rest

/-- The fault of a value that is not what was asked for. Words, numbers and strings are read, so
that they can be named; lists and objects are not. -/
def refuse (expected : String) : List UInt8 → Fault
  | [] => .ended .value
  | b :: rest =>
    if b = ascii 'n' then refuseWord "ull" .null expected rest
    else if b = ascii 't' then refuseWord "rue" (.boolean true) expected rest
    else if b = ascii 'f' then refuseWord "alse" (.boolean false) expected rest
    else if b = ascii '-' then refuseNumber expected (number true rest)
    else if isDigit b then refuseNumber expected (number false (b :: rest))
    else if b = ascii '"' then
      match text rest with
      | .error fault => fault
      | .ok (s, behind) => .here (.wrongKind (.text s) expected) behind
    else if b = ascii '[' then .here (.wrongKind .list expected) (b :: rest)
    else if b = ascii '\x7b' then .here (.wrongKind .object expected) (b :: rest)
    else .malformed .expectedValue rest

/-! ## Integers -/

/-- Keeps a number that is an integer from zero to `limit`. -/
def keepInteger (limit : Nat) (expected : String) :
    Except Fault (Number × List UInt8) → Except Fault (Nat × List UInt8)
  | .error fault => .error fault
  | .ok (.natural n, rest) =>
    if n ≤ limit then .ok (n, rest)
    else .error (.here (.wrongValue (.natural n) expected) rest)
  | .ok (.negative n, rest) => .error (.here (.wrongValue (.negative n) expected) rest)
  | .ok (.float x, rest) => .error (.here (.wrongKind (.float x) expected) rest)

/-- Reads an integer from zero to `limit`. -/
def readInteger (limit : Nat) (expected : String) (input : List UInt8) :
    Except Fault (Nat × List UInt8) :=
  match skipSpace input with
  | [] => .error (.ended .value)
  | b :: rest =>
    if b = ascii '-' then keepInteger limit expected (number true rest)
    else if isDigit b then keepInteger limit expected (number false (b :: rest))
    else .error (refuse expected (b :: rest))

theorem read_of_keepInteger {limit n : Nat} {expected : String} {rest : List UInt8}
    {outcome : Except Fault (Number × List UInt8)}
    (kept : keepInteger limit expected outcome = .ok (n, rest)) :
    ∃ m, outcome = .ok (m, rest) := by
  unfold keepInteger at kept
  split at kept
  · cases kept
  · split at kept
    · obtain ⟨-, rfl⟩ := Prod.mk.inj (Except.ok.inj kept)
      exact ⟨_, rfl⟩
    · cases kept
  · cases kept
  · cases kept

/-- A reader of integers from zero to `limit`. -/
def integer (limit : Nat) (expected : String) : Reader Nat where
  read := readInteger limit expected
  shortens := by
    intro input n rest read
    unfold readInteger at read
    split at read
    · cases read
    · next b behind spaced =>
      have kept := length_skipSpace_le input
      rw [spaced, List.length_cons] at kept
      split at read
      · obtain ⟨m, inner⟩ := read_of_keepInteger read
        have shorter := length_number_lt inner
        omega
      · split at read
        · obtain ⟨m, inner⟩ := read_of_keepInteger read
          have shorter := length_number_lt inner
          rw [List.length_cons] at shorter
          omega
        · cases read

/-- A reader of 32-bit words. -/
def word32 : Reader UInt32 := (integer (UInt32.size - 1) "u32").map UInt32.ofNat

/-- A reader of 64-bit words. -/
def word64 : Reader UInt64 := (integer (UInt64.size - 1) "u64").map UInt64.ofNat

/-! ## Lists -/

/-- How a bracket goes on: it ends, with the input behind its end, or one more item follows. -/
inductive Turn where
  | closing (rest : List UInt8)
  | item (rest : List UInt8)

/-- Goes on in a list: before its first item, or behind an item. -/
def listTurn (first : Bool) (input : List UInt8) : Except Fault Turn :=
  match skipSpace input with
  | [] => .error (.ended .list)
  | b :: rest =>
    if b = ascii ']' then .ok (.closing rest)
    else if first then .ok (.item (b :: rest))
    else if b = ascii ',' then
      match skipSpace rest with
      | [] => .error (.ended .value)
      | c :: further =>
        if c = ascii ']' then .error (.malformed .trailingComma further)
        else .ok (.item (c :: further))
    else .error (.malformed .expectedCommaOrBracket rest)

theorem length_listTurn_closing_lt {first : Bool} {input rest : List UInt8}
    (turn : listTurn first input = .ok (.closing rest)) : rest.length < input.length := by
  unfold listTurn at turn
  split at turn
  · cases turn
  · next spaced =>
    have shorter := length_lt_of_skipSpace spaced
    repeat' split at turn
    all_goals cases turn
    exact shorter

theorem length_listTurn_item_le {first : Bool} {input rest : List UInt8}
    (turn : listTurn first input = .ok (.item rest)) : rest.length ≤ input.length := by
  unfold listTurn at turn
  split at turn
  · cases turn
  · next b behind spaced =>
    have kept := length_skipSpace_le input
    rw [spaced, List.length_cons] at kept
    split at turn
    · cases turn
    · split at turn
      · cases turn
        exact kept
      · split at turn
        · split at turn
          · cases turn
          · next c further again =>
            have shorter := length_lt_of_skipSpace again
            split at turn
            · cases turn
            · cases turn
              rw [List.length_cons]
              omega
        · cases turn

/-- Reads the items of a list and puts them behind those in `taken`. -/
def itemsAfter {α : Type} (item : Reader α) (first : Bool) (taken : Array α)
    (input : List UInt8) : Except Fault (Array α × List UInt8) :=
  match turn : listTurn first input with
  | .error fault => .error fault
  | .ok (.closing rest) => .ok (taken, rest)
  | .ok (.item behind) =>
    match value : item.read behind with
    | .error fault => .error fault
    | .ok (a, further) =>
      have := length_listTurn_item_le turn
      have := item.shortens value
      itemsAfter item false (taken.push a) further
termination_by input.length

theorem length_itemsAfter_lt {α : Type} {item : Reader α} {first : Bool} {taken all : Array α}
    {input rest : List UInt8}
    (read : itemsAfter item first taken input = .ok (all, rest)) :
    rest.length < input.length := by
  fun_induction itemsAfter item first taken input with
  | case1 | case3 => cases read
  | case2 first taken input behind turn =>
    obtain ⟨-, rfl⟩ := Prod.mk.inj (Except.ok.inj read)
    exact length_listTurn_closing_lt turn
  | case4 first taken input behind turn a further value shorter kept ih =>
    have last := ih read
    omega

/-- Reads a list of items. -/
def readList {α : Type} (item : Reader α) (input : List UInt8) :
    Except Fault (Array α × List UInt8) :=
  match skipSpace input with
  | [] => .error (.ended .value)
  | b :: rest =>
    if b = ascii '[' then itemsAfter item true #[] rest
    else .error (refuse "a sequence" (b :: rest))

/-- A reader of lists of items. -/
def list {α : Type} (item : Reader α) : Reader (Array α) where
  read := readList item
  shortens := by
    intro input all rest read
    unfold readList at read
    split at read
    · cases read
    · next spaced =>
      have shorter := length_lt_of_skipSpace spaced
      split at read
      · have further := length_itemsAfter_lt read
        omega
      · cases read

/-! ## Records -/

/-- Goes on in an object: before its first member, or behind a member. An item starts behind the
opening quote of its key. -/
def objectTurn (first : Bool) (input : List UInt8) : Except Fault Turn :=
  match skipSpace input with
  | [] => .error (.ended .object)
  | b :: rest =>
    if b = ascii '\x7d' then .ok (.closing rest)
    else if first then
      if b = ascii '"' then .ok (.item rest) else .error (.malformed .keyNotText rest)
    else if b = ascii ',' then
      match skipSpace rest with
      | [] => .error (.ended .value)
      | c :: further =>
        if c = ascii '"' then .ok (.item further)
        else if c = ascii '\x7d' then .error (.malformed .trailingComma further)
        else .error (.malformed .keyNotText further)
    else .error (.malformed .expectedCommaOrBrace rest)

/-- Takes the colon between a key and its value. -/
def colon (input : List UInt8) : Except Fault (List UInt8) :=
  match skipSpace input with
  | [] => .error (.ended .object)
  | b :: rest => if b = ascii ':' then .ok rest else .error (.malformed .expectedColon rest)

/-- A record of two members. -/
structure Record (α β : Type) where
  /-- What the record is called where another value was found. -/
  name : String
  /-- The key of the first member. -/
  firstKey : String
  /-- The key of the second member. -/
  secondKey : String
  /-- The reader of the first member. -/
  first : Reader α
  /-- The reader of the second member. -/
  second : Reader β

theorem length_objectTurn_closing_lt {first : Bool} {input rest : List UInt8}
    (turn : objectTurn first input = .ok (.closing rest)) : rest.length < input.length := by
  unfold objectTurn at turn
  split at turn
  · cases turn
  · next spaced =>
    have shorter := length_lt_of_skipSpace spaced
    repeat' split at turn
    all_goals cases turn
    exact shorter

theorem length_objectTurn_item_lt {first : Bool} {input rest : List UInt8}
    (turn : objectTurn first input = .ok (.item rest)) : rest.length < input.length := by
  unfold objectTurn at turn
  split at turn
  · cases turn
  · next b behind spaced =>
    have shorter := length_lt_of_skipSpace spaced
    split at turn
    · cases turn
    · split at turn
      · split at turn
        · cases turn
          exact shorter
        · cases turn
      · split at turn
        · split at turn
          · cases turn
          · next c further again =>
            have closer := length_lt_of_skipSpace again
            repeat' split at turn
            all_goals cases turn
            omega
        · cases turn

theorem length_colon_lt {input rest : List UInt8} (read : colon input = .ok rest) :
    rest.length < input.length := by
  unfold colon at read
  repeat' split at read
  · cases read
  · next spaced _ =>
    obtain rfl := Except.ok.inj read
    exact length_lt_of_skipSpace spaced
  · cases read

namespace Record

variable {α β : Type}

/-- The members of a record that have been read. -/
abbrev Members (α β : Type) : Type := Option α × Option β

/-- What a record is called where its length matters. -/
def withLength (r : Record α β) : String := s!"struct {r.name} with 2 elements"

/-- Reads the value of a member, with the colon before it. -/
def memberValue {γ : Type} (value : Reader γ) (input : List UInt8) :
    Except Fault (γ × List UInt8) :=
  match colon input with
  | .error fault => .error fault
  | .ok rest => value.read rest

/-- Passes over the value of a member, with the colon before it. -/
def skipMemberValue (input : List UInt8) : Except Fault (List UInt8) :=
  match colon input with
  | .error fault => .error fault
  | .ok rest => skipValue rest

/-- Reads one member behind the opening quote of its key. A member of another name is passed
over. -/
def member (r : Record α β) (seen : Members α β) (input : List UInt8) :
    Except Fault (Members α β × List UInt8) :=
  match text input with
  | .error fault => .error fault
  | .ok (key, rest) =>
    if key = r.firstKey then
      if seen.1.isSome then .error (.noticed (.duplicateField key) rest)
      else match memberValue r.first rest with
        | .error fault => .error fault
        | .ok (a, rest) => .ok ((some a, seen.2), rest)
    else if key = r.secondKey then
      if seen.2.isSome then .error (.noticed (.duplicateField key) rest)
      else match memberValue r.second rest with
        | .error fault => .error fault
        | .ok (b, rest) => .ok ((seen.1, some b), rest)
    else match skipMemberValue rest with
      | .error fault => .error fault
      | .ok rest => .ok (seen, rest)

theorem length_memberValue_lt {γ : Type} {value : Reader γ} {input rest : List UInt8} {c : γ}
    (read : memberValue value input = .ok (c, rest)) : rest.length < input.length := by
  unfold memberValue at read
  split at read
  · cases read
  · next between =>
    have shorter := length_colon_lt between
    have further := value.shortens read
    omega

theorem length_skipMemberValue_lt {input rest : List UInt8}
    (read : skipMemberValue input = .ok rest) : rest.length < input.length := by
  unfold skipMemberValue at read
  split at read
  · cases read
  · next between =>
    have shorter := length_colon_lt between
    have further := length_skipValue_lt read
    omega

/-- A member takes at least one byte. -/
theorem length_member_lt {r : Record α β} {seen all : Members α β} {input rest : List UInt8}
    (read : r.member seen input = .ok (all, rest)) : rest.length < input.length := by
  unfold member at read
  split at read
  · cases read
  · next key =>
    have shorter := length_text_lt key
    repeat' split at read
    all_goals try contradiction
    · next value =>
      obtain ⟨-, rfl⟩ := Prod.mk.inj (Except.ok.inj read)
      have further := length_memberValue_lt value
      omega
    · next value =>
      obtain ⟨-, rfl⟩ := Prod.mk.inj (Except.ok.inj read)
      have further := length_memberValue_lt value
      omega
    · next value =>
      obtain ⟨-, rfl⟩ := Prod.mk.inj (Except.ok.inj read)
      have further := length_skipMemberValue_lt value
      omega

/-- The record of the members that have been read, if none is missing. -/
def complete (r : Record α β) (seen : Members α β) (rest : List UInt8) :
    Except Fault ((α × β) × List UInt8) :=
  match seen with
  | (none, _) => .error (.here (.missingField r.firstKey) rest)
  | (some _, none) => .error (.here (.missingField r.secondKey) rest)
  | (some a, some b) => .ok ((a, b), rest)

/-- Reads the members of an object up to its end, `seen` being those read before. -/
def membersAfter (r : Record α β) (first : Bool) (seen : Members α β) (input : List UInt8) :
    Except Fault ((α × β) × List UInt8) :=
  match turn : objectTurn first input with
  | .error fault => .error fault
  | .ok (.closing rest) => r.complete seen rest
  | .ok (.item behind) =>
    match step : r.member seen behind with
    | .error fault => .error fault
    | .ok (seen, further) =>
      have := length_objectTurn_item_lt turn
      have := length_member_lt step
      membersAfter r false seen further
termination_by input.length

/-- Ends a record that is written as a list. -/
def closeList (input : List UInt8) : Except Fault (List UInt8) :=
  match skipSpace input with
  | [] => .error (.ended .list)
  | b :: rest =>
    if b = ascii ']' then .ok rest
    else if b = ascii ',' then
      match skipSpace rest with
      | [] => .error (.malformed .trailingCharacters [])
      | c :: further =>
        if c = ascii ']' then .error (.malformed .trailingComma further)
        else .error (.malformed .trailingCharacters further)
    else .error (.malformed .trailingCharacters rest)

/-- Reads the two items of a list. -/
def items (r : Record α β) (input : List UInt8) : Except Fault ((α × β) × List UInt8) :=
  match listTurn true input with
  | .error fault => .error fault
  | .ok (.closing rest) => .error (.here (.shortRecord 0 r.withLength) rest)
  | .ok (.item rest) =>
    match r.first.read rest with
    | .error fault => .error fault
    | .ok (a, rest) =>
      match listTurn false rest with
      | .error fault => .error fault
      | .ok (.closing rest) => .error (.here (.shortRecord 1 r.withLength) rest)
      | .ok (.item rest) =>
        match r.second.read rest with
        | .error fault => .error fault
        | .ok (b, rest) =>
          match closeList rest with
          | .error fault => .error fault
          | .ok rest => .ok ((a, b), rest)

/-- Leaves a list after a fault: takes its end if it comes next, or a comma. -/
def leaveList (input : List UInt8) : List UInt8 :=
  match skipSpace input with
  | [] => []
  | b :: rest =>
    if b = ascii ']' then rest else if b = ascii ',' then skipSpace rest else b :: rest

/-- Leaves an object after a fault: takes its end if it comes next. -/
def leaveObject (input : List UInt8) : List UInt8 :=
  match skipSpace input with
  | [] => []
  | b :: rest => if b = ascii '\x7d' then rest else b :: rest

/-- Reads a record in either form. -/
def readRecord (r : Record α β) (input : List UInt8) : Except Fault ((α × β) × List UInt8) :=
  match skipSpace input with
  | [] => .error (.ended .value)
  | b :: rest =>
    if b = ascii '[' then (r.items rest).mapError (Fault.settle leaveList)
    else if b = ascii '\x7b' then
      (r.membersAfter true (none, none) rest).mapError (Fault.settle leaveObject)
    else .error (refuse s!"struct {r.name}" (b :: rest))

theorem length_membersAfter_lt {r : Record α β} {first : Bool} {seen : Members α β}
    {input rest : List UInt8} {pair : α × β}
    (read : r.membersAfter first seen input = .ok (pair, rest)) :
    rest.length < input.length := by
  fun_induction membersAfter r first seen input with
  | case1 | case3 => cases read
  | case2 first seen input behind turn =>
    unfold complete at read
    split at read
    · cases read
    · cases read
    · obtain ⟨-, rfl⟩ := Prod.mk.inj (Except.ok.inj read)
      exact length_objectTurn_closing_lt turn
  | case4 first seen input behind turn more further step shorter taken ih =>
    have last := ih read
    omega

theorem length_closeList_lt {input rest : List UInt8} (read : closeList input = .ok rest) :
    rest.length < input.length := by
  unfold closeList at read
  repeat' split at read
  all_goals try contradiction
  next spaced _ =>
    obtain rfl := Except.ok.inj read
    exact length_lt_of_skipSpace spaced

theorem length_items_lt {r : Record α β} {input rest : List UInt8} {pair : α × β}
    (read : r.items input = .ok (pair, rest)) : rest.length < input.length := by
  unfold items at read
  split at read
  · cases read
  · cases read
  · next opening =>
    have kept := length_listTurn_item_le opening
    split at read
    · cases read
    · next one =>
      have shorter := r.first.shortens one
      split at read
      · cases read
      · cases read
      · next between =>
        have still := length_listTurn_item_le between
        split at read
        · cases read
        · next two =>
          have further := r.second.shortens two
          split at read
          · cases read
          · next closing =>
            obtain ⟨-, rfl⟩ := Prod.mk.inj (Except.ok.inj read)
            have last := length_closeList_lt closing
            omega

theorem ok_of_mapError {ε δ γ : Type} {f : ε → δ} {outcome : Except ε γ} {c : γ}
    (mapped : outcome.mapError f = .ok c) : outcome = .ok c := by
  cases outcome with
  | error fault => cases mapped
  | ok c => exact congrArg Except.ok (Except.ok.inj mapped)

/-- The reader of a record. -/
def reader (r : Record α β) : Reader (α × β) where
  read := r.readRecord
  shortens := by
    intro input pair rest read
    unfold readRecord at read
    split at read
    · cases read
    · next spaced =>
      have shorter := length_lt_of_skipSpace spaced
      split at read
      · have further := length_items_lt (ok_of_mapError read)
        omega
      · split at read
        · have further := length_membersAfter_lt (ok_of_mapError read)
          omega
        · cases read

end Record

/-! ## Whole texts -/

/-- Reads a text that holds one value, with white space around it. -/
def decode {α : Type} (r : Reader α) (input : List UInt8) : Except Failure α :=
  match r.read input with
  | .error fault => .error (fault.failure input)
  | .ok (a, rest) =>
    match skipSpace rest with
    | [] => .ok a
    | _ :: behind => .error ((Fault.malformed .trailingCharacters behind).failure input)

end TableSearch.Json
