import TableSearch.Json.Writer
import TableSearch.Proofs.JsonTokens

/-!
# The two layouts of written values

A written value is a list of tokens: marks, numbers and strings. In the compact layout the tokens
stand next to each other, and in the indented one white space may stand between any two of them but
not within one. `Written.Spells` says this of a value, and it passes through brackets and members.
-/

namespace TableSearch.Json

/-- A token of written JSON. -/
inductive Token where
  /-- A bracket, a comma or a colon. -/
  | mark (b : UInt8)
  | natural (n : Nat)
  | text (s : String)
  deriving DecidableEq

namespace Token

/-- The bytes of a token. -/
def bytes : Token → List UInt8
  | mark b => [b]
  | natural n => Written.natural n .compact
  | text s => Written.text s .compact

/-- Items with commas between them, in brackets. -/
def bracketed (opening closing : UInt8) : List (List Token) → List Token
  | [] => [mark opening, mark closing]
  | first :: others =>
    mark opening :: (first ++ others.flatMap (fun item => mark (ascii ',') :: item) ++
      [mark closing])

/-- A member of an object. -/
def member (key : String) (value : List Token) : List Token :=
  text key :: mark (ascii ':') :: value

/-- The tokens of the constants of a search. -/
def ofConfig (config : Config) : List Token :=
  bracketed (ascii '\x7b') (ascii '\x7d')
    [member "right" [natural config.right.toNat], member "failed" [natural config.failed.toNat]]

/-- The tokens of the values of a table. -/
def ofValues (values : List UInt64) : List Token :=
  bracketed (ascii '[') (ascii ']') (values.map fun value => [natural value.toNat])

/-- The tokens of an image. -/
def ofImage (m : Image) : List Token :=
  bracketed (ascii '\x7b') (ascii '\x7d')
    [member "config" (ofConfig m.config), member "table" (ofValues m.table.values.toList)]

end Token

/-- The bytes are the tokens in their order, with nothing but white space between them. -/
inductive Spaced : List Token → List UInt8 → Prop
  | last (t : Token) : Spaced [t] t.bytes
  | next (t : Token) {blank bytes : List UInt8} {ts : List Token} : Blank blank →
    Spaced ts bytes → Spaced (t :: ts) (t.bytes ++ (blank ++ bytes))

theorem Spaced.append {ts us : List Token} {left blank right : List UInt8}
    (first : Spaced ts left) (between : Blank blank) (second : Spaced us right) :
    Spaced (ts ++ us) (left ++ (blank ++ right)) := by
  induction first with
  | last t => exact .next t between second
  | next t skipped _ ih =>
    simp only [List.cons_append, List.append_assoc]
    exact .next t skipped ih

theorem Spaced.mark {ts : List Token} {blank bytes : List UInt8} (b : UInt8)
    (between : Blank blank) (others : Spaced ts bytes) :
    Spaced (.mark b :: ts) (b :: (blank ++ bytes)) :=
  .next (.mark b) between others

namespace Written

/-- The value is the tokens, next to each other in the compact layout and with white space between
them in the indented one. -/
structure Spells (w : Written) (ts : List Token) : Prop where
  compact : w .compact = ts.flatMap Token.bytes
  indented : ∀ depth, Spaced ts (w (.indented depth))

theorem spells_natural (n : Nat) : (natural n).Spells [.natural n] where
  compact := (List.append_nil _).symm
  indented _ := .last (.natural n)

theorem Spells.member {value : Written} {ts : List Token} (spells : value.Spells ts)
    (key : String) : (member key value).Spells (Token.member key ts) where
  compact := by
    rw [Token.member, List.flatMap_cons, List.flatMap_cons, ← spells.compact]
    rfl
  indented depth := by
    have colon := Spaced.mark (ascii ':') (Layout.indented depth).blank_behindColon
      (spells.indented depth)
    exact .next (.text key) blank_nil colon

/-- What follows the first item of a bracket is spaced if the items are. -/
theorem spaced_others {items : List (Written × List Token)}
    (each : ∀ item ∈ items, item.1.Spells item.2) (depth : Nat) (closing : UInt8) :
    ∃ blank bytes, Blank blank ∧
      (items.map Prod.fst).flatMap (fun item => ascii ',' ::
        ((Layout.indented depth).inner.newline ++ item (Layout.indented depth).inner)) ++
        ((Layout.indented depth).newline ++ [closing]) = blank ++ bytes ∧
      Spaced ((items.map Prod.snd).flatMap (fun item => .mark (ascii ',') :: item) ++
        [.mark closing]) bytes := by
  induction items with
  | nil =>
    exact ⟨_, _, (Layout.indented depth).blank_newline, rfl, .last (.mark closing)⟩
  | cons item items ih =>
    obtain ⟨blank, bytes, skipped, same, others⟩ :=
      ih fun other mem => each other (List.mem_cons_of_mem _ mem)
    have first := (each item (List.mem_cons_self ..)).indented (depth + 1)
    refine ⟨[], _, blank_nil, (List.nil_append _).symm, ?_⟩
    simp only [List.map_cons, List.flatMap_cons, List.cons_append, List.append_assoc]
    rw [same]
    exact .mark _ (Layout.indented (depth + 1)).blank_newline (first.append skipped others)

theorem packed_others {items : List (Written × List Token)}
    (each : ∀ item ∈ items, item.1.Spells item.2) :
    (items.map Prod.fst).flatMap (fun item => ascii ',' :: item .compact) =
      ((items.map Prod.snd).flatMap fun item => .mark (ascii ',') :: item).flatMap Token.bytes := by
  induction items with
  | nil => rfl
  | cons item items ih =>
    have first := (each item (List.mem_cons_self ..)).compact
    have others := ih fun other mem => each other (List.mem_cons_of_mem _ mem)
    simp only [List.map_cons, List.flatMap_cons, List.flatMap_append, first, others]
    rfl

theorem spells_bracketed (items : List (Written × List Token)) (opening closing : UInt8)
    (each : ∀ item ∈ items, item.1.Spells item.2) :
    (bracketed opening closing (items.map Prod.fst)).Spells
      (Token.bracketed opening closing (items.map Prod.snd)) where
  compact := by
    cases items with
    | nil => rfl
    | cons item items =>
      have first := (each item (List.mem_cons_self ..)).compact
      have others := packed_others fun other mem => each other (List.mem_cons_of_mem _ mem)
      simp only [List.map_cons, bracketed, Token.bracketed, List.flatMap_cons, List.flatMap_append,
        ← others, ← first, Layout.inner, Layout.newline, List.nil_append, List.append_nil]
      rfl
  indented depth := by
    cases items with
    | nil => exact .mark opening blank_nil (.last (.mark closing))
    | cons item items =>
      obtain ⟨blank, bytes, skipped, same, others⟩ :=
        spaced_others (fun other mem => each other (List.mem_cons_of_mem _ mem)) depth closing
      have first := (each item (List.mem_cons_self ..)).indented (depth + 1)
      simp only [List.map_cons, bracketed, Token.bracketed, List.append_assoc]
      rw [same]
      exact .mark opening (Layout.indented (depth + 1)).blank_newline (first.append skipped others)

theorem spells_ofConfig (c : Config) : (ofConfig c).Spells (Token.ofConfig c) := by
  refine spells_bracketed [(member "right" (natural c.right.toNat), _),
    (member "failed" (natural c.failed.toNat), _)] _ _ ?_
  simp only [List.forall_mem_cons]
  exact ⟨(spells_natural _).member _, (spells_natural _).member _, List.forall_mem_nil _⟩

theorem spells_ofValues (values : List UInt64) :
    (ofValues values).Spells (Token.ofValues values) := by
  have each : ∀ item ∈ values.map fun value =>
      (natural value.toNat, [Token.natural value.toNat]), item.1.Spells item.2 := by
    intro item mem
    obtain ⟨value, -, rfl⟩ := List.mem_map.mp mem
    exact spells_natural _
  have spells := spells_bracketed _ (ascii '[') (ascii ']') each
  rw [List.map_map, List.map_map] at spells
  exact spells

theorem spells_ofImage (m : Image) : (ofImage m).Spells (Token.ofImage m) := by
  refine spells_bracketed [(member "config" (ofConfig m.config), _),
    (member "table" (ofValues m.table.values.toList), _)] _ _ ?_
  simp only [List.forall_mem_cons]
  exact ⟨(spells_ofConfig _).member _, (spells_ofValues _).member _, List.forall_mem_nil _⟩

end Written

end TableSearch.Json
