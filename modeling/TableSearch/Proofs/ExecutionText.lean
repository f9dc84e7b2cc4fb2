import Mathlib.Data.List.Basic
import TableSearch.Json.Execution
import TableSearch.Proofs.JsonTokens

/-!
# The text of an execution

`Execution.jsonText` is what an execution takes in compact JSON, written out: the members in their
order, numbers in decimal digits, truth values as words, and the probes as a list of objects.
Nothing is escaped in it, so it is meant for executions whose two texts are plain.

`Written.Prints` says that the compact form of a value is a text. It passes through members and
brackets, which gives `prints_ofExecution`. `OneLine` says that a text has no line end in it, and
passes through whatever is put behind one another.
-/

namespace TableSearch

/-- The text of a probe in compact JSON. -/
def Probe.jsonText (p : Probe) : String :=
  "\x7b\"low\":" ++ toString p.low ++ ",\"high\":" ++ toString p.high ++
    ",\"mid\":" ++ toString p.mid ++ ",\"value\":" ++ toString p.value ++
    ",\"went_right\":" ++ toString p.wentRight ++ "\x7d"

/-- The text of an execution in compact JSON. -/
def Execution.jsonText (e : Execution) : String :=
  "\x7b\"export\":\"" ++ e.entry ++ "\",\"image_digest\":\"" ++ e.imageDigest ++
    "\",\"target\":" ++ toString e.target ++ ",\"result\":" ++ toString e.result ++
    ",\"found\":" ++ toString e.found ++
    ",\"probes\":[" ++ ",".intercalate (e.probes.map Probe.jsonText) ++
    "],\"public_consumed\":" ++ toString e.publicConsumed ++
    ",\"private_consumed\":" ++ toString e.privateConsumed ++ "\x7d"

namespace Json

/-- Texts with commas between them: the first, and the others behind a comma each. -/
theorem asciiBytes_intercalate (first : String) (others : List String) :
    asciiBytes (",".intercalate (first :: others)) =
      asciiBytes first ++ others.flatMap fun s => ascii ',' :: asciiBytes s := by
  induction others generalizing first with
  | nil => rw [String.intercalate_singleton, List.flatMap_nil, List.append_nil]
  | cons other others ih =>
    rw [String.intercalate_cons_cons, asciiBytes_append, asciiBytes_append, ih, List.flatMap_cons,
      List.append_assoc]
    rfl

/-! ## The bytes of written values -/

namespace Written

/-- The compact form of a value is a text. -/
def Prints (w : Written) (s : String) : Prop := w .compact = asciiBytes s

theorem Prints.of_toList {w : Written} {s t : String} (prints : w.Prints s)
    (same : t.toList = s.toList) : w.Prints t := by
  rwa [Prints, asciiBytes, same]

theorem prints_natural (n : Nat) : (natural n).Prints (toString n) :=
  congrArg (List.map ascii) Nat.toList_repr.symm

theorem prints_boolean (b : Bool) : (boolean b).Prints (toString b) := by
  cases b <;> rfl

theorem prints_text {s : String} (plain : Plain s) : (text s).Prints ("\"" ++ s ++ "\"") := by
  rw [Prints, written_text_plain plain, asciiBytes_append, asciiBytes_append]
  rfl

theorem Prints.member {value : Written} {s : String} (prints : value.Prints s) {key : String}
    (plain : Plain key) : (member key value).Prints ("\"" ++ key ++ "\":" ++ s) := by
  have quoted := prints_text plain
  have colon : asciiBytes "\":" = asciiBytes "\"" ++ [ascii ':'] := rfl
  rw [Prints, asciiBytes_append, asciiBytes_append] at quoted
  rw [Prints, Written.member, quoted, prints, asciiBytes_append, asciiBytes_append,
    asciiBytes_append, colon]
  simp only [Layout.behindColon, List.nil_append, List.append_assoc, List.singleton_append]

theorem prints_bracketed (items : List (Written × String)) (opening closing : Char)
    (each : ∀ item ∈ items, item.1.Prints item.2) :
    (bracketed (ascii opening) (ascii closing) (items.map Prod.fst)).Prints
      (String.singleton opening ++ ",".intercalate (items.map Prod.snd) ++
        String.singleton closing) := by
  have bracket (c : Char) : asciiBytes (String.singleton c) = [ascii c] := by
    rw [asciiBytes, String.toList_singleton]
    rfl
  rw [Prints, asciiBytes_append, asciiBytes_append, bracket, bracket]
  cases items with
  | nil => rfl
  | cons item items =>
    have first : item.1 .compact = asciiBytes item.2 := each item (List.mem_cons_self ..)
    have others : (items.map Prod.fst).flatMap (fun w => ascii ',' :: w .compact) =
        (items.map Prod.snd).flatMap fun s => ascii ',' :: asciiBytes s := by
      rw [List.flatMap_map, List.flatMap_map]
      apply List.flatMap_congr
      intro other mem
      exact congrArg (ascii ',' :: ·) (each other (List.mem_cons_of_mem _ mem))
    rw [List.map_cons, List.map_cons, asciiBytes_intercalate, ← first, ← others]
    simp only [bracketed, Layout.inner, Layout.newline, List.nil_append, List.append_nil,
      List.cons_append]

theorem prints_list (items : List (Written × String))
    (each : ∀ item ∈ items, item.1.Prints item.2) :
    (list (items.map Prod.fst)).Prints ("[" ++ ",".intercalate (items.map Prod.snd) ++ "]") :=
  prints_bracketed items '[' ']' each

/-- An object prints its members in their order, each behind its key. -/
theorem prints_object (members : List (String × Written × String))
    (each : ∀ m ∈ members, Plain m.1 ∧ m.2.1.Prints m.2.2) :
    (object (members.map fun m => (m.1, m.2.1))).Prints
      ("\x7b" ++ ",".intercalate (members.map fun m => "\"" ++ m.1 ++ "\":" ++ m.2.2) ++
        "\x7d") := by
  have items := prints_bracketed
    (members.map fun m => (member m.1 m.2.1, "\"" ++ m.1 ++ "\":" ++ m.2.2)) '\x7b' '\x7d' ?_
  · rw [List.map_map, List.map_map] at items
    rw [object, List.map_map]
    exact items
  · intro item mem
    obtain ⟨m, inside, rfl⟩ := List.mem_map.mp mem
    exact (each m inside).2.member (each m inside).1

theorem prints_ofProbe (p : Probe) : (ofProbe p).Prints p.jsonText := by
  refine (prints_object
    [("low", natural p.low.toNat, toString p.low), ("high", natural p.high.toNat, toString p.high),
      ("mid", natural p.mid.toNat, toString p.mid),
      ("value", natural p.value.toNat, toString p.value),
      ("went_right", boolean p.wentRight, toString p.wentRight)] ?_).of_toList ?_
  · simp only [List.forall_mem_cons]
    refine ⟨⟨?_, prints_natural _⟩, ⟨?_, prints_natural _⟩, ⟨?_, prints_natural _⟩,
      ⟨?_, prints_natural _⟩, ⟨?_, prints_boolean _⟩, List.forall_mem_nil _⟩
    -- the keys are plain
    all_goals decide
  · -- character by character, so that it does not matter how the literals are cut
    unfold Probe.jsonText
    simp only [List.map_cons, List.map_nil, String.toList_append, String.intercalate_cons_cons,
      String.intercalate_singleton, String.reduceToList, List.append_assoc, List.cons_append,
      List.nil_append]

theorem prints_probes (probes : List Probe) :
    (list (probes.map ofProbe)).Prints
      ("[" ++ ",".intercalate (probes.map Probe.jsonText) ++ "]") := by
  have items := prints_list (probes.map fun p => (ofProbe p, p.jsonText)) ?_
  · rw [List.map_map, List.map_map] at items
    exact items
  · intro item mem
    obtain ⟨p, -, rfl⟩ := List.mem_map.mp mem
    exact prints_ofProbe p

/-- An execution with plain texts prints its text. -/
theorem prints_ofExecution {e : Execution} (entry : Plain e.entry)
    (digest : Plain e.imageDigest) : (ofExecution e).Prints e.jsonText := by
  refine (prints_object
    [("export", text e.entry, "\"" ++ e.entry ++ "\""),
      ("image_digest", text e.imageDigest, "\"" ++ e.imageDigest ++ "\""),
      ("target", natural e.target.toNat, toString e.target),
      ("result", natural e.result.toNat, toString e.result),
      ("found", boolean e.found, toString e.found),
      ("probes", list (e.probes.map ofProbe),
        "[" ++ ",".intercalate (e.probes.map Probe.jsonText) ++ "]"),
      ("public_consumed", natural e.publicConsumed, toString e.publicConsumed),
      ("private_consumed", natural e.privateConsumed, toString e.privateConsumed)] ?_).of_toList ?_
  · simp only [List.forall_mem_cons]
    refine ⟨⟨?_, prints_text entry⟩, ⟨?_, prints_text digest⟩, ⟨?_, prints_natural _⟩,
      ⟨?_, prints_natural _⟩, ⟨?_, prints_boolean _⟩, ⟨?_, prints_probes _⟩,
      ⟨?_, prints_natural _⟩, ⟨?_, prints_natural _⟩, List.forall_mem_nil _⟩
    all_goals decide
  · unfold Execution.jsonText
    simp only [List.map_cons, List.map_nil, String.toList_append, String.intercalate_cons_cons,
      String.intercalate_singleton, String.reduceToList, List.append_assoc, List.cons_append,
      List.nil_append]

example : (⟨⟨4, 1, true, [⟨0, 2, 1, 4, false⟩]⟩, "bsearch", "0a", 1, 0⟩ : Execution).jsonText =
    "\x7b\"export\":\"bsearch\",\"image_digest\":\"0a\",\"target\":4,\"result\":1," ++
      "\"found\":true,\"probes\":[" ++
      "\x7b\"low\":0,\"high\":2,\"mid\":1,\"value\":4,\"went_right\":false\x7d]," ++
      "\"public_consumed\":1,\"private_consumed\":0\x7d" := rfl

end Written

/-! ## Line ends -/

/-- A text has no line end in it. -/
def OneLine (s : String) : Prop := ascii '\n' ∉ asciiBytes s

instance (s : String) : Decidable (OneLine s) :=
  inferInstanceAs (Decidable (ascii '\n' ∉ asciiBytes s))

theorem oneLine_append {s t : String} : OneLine (s ++ t) ↔ OneLine s ∧ OneLine t := by
  rw [OneLine, asciiBytes_append, List.mem_append, not_or]
  rfl

theorem oneLine_natural (n : Nat) : OneLine (toString n) := by
  intro mem
  rw [← Written.prints_natural n] at mem
  obtain ⟨c, digit, same⟩ := List.mem_map.mp mem
  have digits := (isDigit_ascii (Nat.isDigit_of_mem_toDigits (by decide) (by decide) digit)).1
  rw [same] at digits
  cases digits

theorem oneLine_boolean (b : Bool) : OneLine (toString b) := by
  cases b <;> decide

theorem oneLine_plain {s : String} (plain : Plain s) : OneLine s :=
  fun mem => absurd (isPlain_of_mem_key plain _ mem) (by decide)

theorem oneLine_intercalate {texts : List String} (each : ∀ s ∈ texts, OneLine s) :
    OneLine (",".intercalate texts) := by
  cases texts with
  | nil => decide
  | cons first others =>
    intro mem
    rw [asciiBytes_intercalate, List.mem_append, List.mem_flatMap] at mem
    rcases mem with inside | ⟨other, later, inside⟩
    · exact each first (List.mem_cons_self ..) inside
    · rcases List.mem_cons.mp inside with comma | inside
      · exact absurd comma (by decide)
      · exact each other (List.mem_cons_of_mem _ later) inside

theorem oneLine_probe (p : Probe) : OneLine p.jsonText := by
  unfold Probe.jsonText
  simp only [oneLine_append, and_assoc]
  refine ⟨?_, oneLine_natural p.low.toNat, ?_, oneLine_natural p.high.toNat, ?_,
    oneLine_natural p.mid.toNat, ?_, oneLine_natural p.value.toNat, ?_,
    oneLine_boolean p.wentRight, ?_⟩
  -- what stands between the values
  all_goals decide

/-- The text of an execution is on one line if the texts in it are plain. -/
theorem oneLine_execution {e : Execution} (entry : Plain e.entry) (digest : Plain e.imageDigest) :
    OneLine e.jsonText := by
  have probes : OneLine (",".intercalate (e.probes.map Probe.jsonText)) := by
    apply oneLine_intercalate
    intro s mem
    obtain ⟨p, -, rfl⟩ := List.mem_map.mp mem
    exact oneLine_probe p
  unfold Execution.jsonText
  simp only [oneLine_append, and_assoc]
  refine ⟨?_, oneLine_plain entry, ?_, oneLine_plain digest, ?_, oneLine_natural e.target.toNat,
    ?_, oneLine_natural e.result.toNat, ?_, oneLine_boolean e.found, ?_, probes, ?_,
    oneLine_natural e.publicConsumed, ?_, oneLine_natural e.privateConsumed, ?_⟩
  all_goals decide

end Json

theorem Json.plain_hex {bytes : List UInt8} : Json.Plain (String.ofList (Hex.encode bytes)) := by
  have digits : ∀ n < 16,
      (Hex.digit n).toNat < 128 ∧ Json.isPlain (ascii (Hex.digit n)) = true := by
    decide
  intro c mem
  rw [String.toList_ofList] at mem
  obtain ⟨n, small, rfl⟩ := Hex.exists_digit_of_mem_encode mem
  exact digits n small

end TableSearch
