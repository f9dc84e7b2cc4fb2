import TableSearch.CommandLine.Perform
import TableSearch.Proofs.ExecutionText
import TableSearch.Proofs.Persistence
import TableSearch.Proofs.Requests

/-!
# Searching an image for a list of values

The command that searches an image registers all its values and then invokes the image once for
each public one, so no invocation finds the channel empty and the command cannot fail once the
image is loaded. What it prints for a value is the execution that a fresh environment comes to with
this value alone, so neither the other public values nor any private one changes a line.
-/

namespace TableSearch

/-- As many invocations as public values wait at the front all succeed, each with its own value. -/
theorem Environment.invokeTimes_of_waiting {env : Environment} {values rest : List UInt64}
    (waits : env.waiting .publicInput = values ++ rest) :
    (env.invokeTimes values.length).2 = .ok (values.map env.image.execution) := by
  induction values generalizing env with
  | nil => rfl
  | cons target values ih =>
    have answered := invoke_of_waiting waits
    have succeeds : (env.invoke entryPoint).outcome = .ok (env.image.execution target) := by
      rw [answered]
    have image : (env.invoke entryPoint).environment.image = env.image := by
      rw [answered]
    have after : (env.invoke entryPoint).environment.waiting .publicInput = values ++ rest := by
      rw [answered]
      rfl
    have others := ih after
    rw [image] at others
    rw [List.length_cons, invokeTimes]
    simp only [succeeds, others]
    rfl

/-- A fresh environment with one public value comes to the execution for it. -/
theorem Environment.outcome_of_alone (m : Image) (value : UInt64) :
    (((ofImage m).register [value] []).2.invoke entryPoint).outcome = .ok (m.execution value) := by
  have waits : ((ofImage m).register [value] []).2.waiting .publicInput = [value] := rfl
  rw [invoke_of_waiting waits]
  rfl

namespace CommandLine

/-- The line that is printed for a public value. -/
def printed (m : Image) (trace : Bool) (value : UInt64) : List UInt8 :=
  Json.Written.ofExecution (shown trace (m.execution value)) .compact

theorem plain_shown (m : Image) (trace : Bool) (value : UInt64) :
    Json.Plain (shown trace (m.execution value)).entry ∧
      Json.Plain (shown trace (m.execution value)).imageDigest := by
  have entry : Json.Plain entryPoint := by decide
  cases trace with
  | true => exact ⟨entry, Json.plain_hex⟩
  | false => exact ⟨entry, Json.plain_hex⟩

theorem printed_eq (m : Image) (trace : Bool) (value : UInt64) :
    printed m trace value = asciiBytes (shown trace (m.execution value)).jsonText :=
  Json.Written.prints_ofExecution (plain_shown m trace value).1 (plain_shown m trace value).2

theorem newline_not_mem_printed (m : Image) (trace : Bool) (value : UInt64) :
    ascii '\n' ∉ printed m trace value := by
  rw [printed_eq]
  exact Json.oneLine_execution (plain_shown m trace value).1 (plain_shown m trace value).2

section Outcomes

variable (path : String) (m : Image) (publicValues privateValues : List UInt64) (trace : Bool)

theorem lines_searchAll :
    (searchAll path m publicValues privateValues trace).lines =
        publicValues.map (printed m trace) ∧
      (searchAll path m publicValues privateValues trace).complaint? = none := by
  have waits : ((Environment.ofImage m).register publicValues privateValues).2.waiting
      .publicInput = publicValues ++ [] := (List.append_nil publicValues).symm
  have executions := Environment.invokeTimes_of_waiting waits
  rw [searchAll]
  simp only [executions]
  exact ⟨List.map_map, trivial⟩

variable {σ : Type} [Files (StateM σ)] (state : σ)

/-- What the command that searches the image at a path comes to. -/
def searched : Outcome :=
  (((Command.run path publicValues privateValues trace).perform : StateM σ Outcome).run state).1

/-- The command ends where the image does not load, and else searches it. -/
theorem searched_eq :
    searched path publicValues privateValues trace state =
      match ((Image.load path : StateM σ (Except Error Image)).run state).1 with
      | .ok m => searchAll path m publicValues privateValues trace
      | .error e => .failed [] s!"loading image from {path}" e.chain := by
  unfold searched Command.perform performRun
  simp only [StateT.run, bind, StateT.bind]
  cases (Image.load path : StateM σ (Except Error Image)) state with
  | mk found after => cases found <;> rfl

variable {path m state}

theorem searched_of_error {e : Error}
    (refused : ((Image.load path : StateM σ (Except Error Image)).run state).1 = .error e) :
    searched path publicValues privateValues trace state =
      .failed [] s!"loading image from {path}" e.chain := by
  rw [searched_eq, refused]

theorem lines_searched
    (loaded : ((Image.load path : StateM σ (Except Error Image)).run state).1 = .ok m) :
    (searched path publicValues privateValues trace state).lines =
        publicValues.map (printed m trace) ∧
      (searched path publicValues privateValues trace state).complaint? = none := by
  rw [searched_eq, loaded]
  exact lines_searchAll path m publicValues privateValues trace

end Outcomes

/-- Lines without line ends of their own are told apart by the ends that are put behind them. -/
theorem count_output {o : Outcome} (each : ∀ line ∈ o.lines, ascii '\n' ∉ line) :
    o.output.count (ascii '\n') = o.lines.length := by
  rw [Outcome.output]
  generalize o.lines = lines at each ⊢
  induction lines with
  | nil => rfl
  | cons line lines ih =>
    have first := List.count_eq_zero_of_not_mem (each line (List.mem_cons_self ..))
    have others := ih fun other mem => each other (List.mem_cons_of_mem _ mem)
    rw [List.flatMap_cons, List.count_append, List.count_append, first, others,
      List.count_singleton_self, List.length_cons]
    omega

/-- Where the image at a path loads, searching it for public values succeeds and prints one line for
each of them: the text of the execution that a fresh environment comes to with this value alone,
with its probes or with an empty list of them. So the values of two lists in a row print what each
list prints. Where the image does not load, nothing is printed and the exit code is 1. -/
theorem run_prints_each {σ : Type} [Files (StateM σ)] (path : String) (state : σ)
    (privateValues : List UInt64) :
    (∀ m, ((Image.load path : StateM σ (Except Error Image)).run state).1 = .ok m →
      (∀ publicValues trace,
        (∃ executions, (((Environment.ofImage m).register publicValues privateValues).2.invokeTimes
          publicValues.length).2 = .ok executions) ∧
          (searched path publicValues privateValues trace state).exitCode = 0 ∧
          (searched path publicValues privateValues trace state).output =
            (searched path publicValues privateValues trace state).lines.flatMap
              (fun line => line ++ [ascii '\n']) ∧
          (searched path publicValues privateValues trace state).lines.length =
            publicValues.length ∧
          (searched path publicValues privateValues trace state).output.count (ascii '\n') =
            publicValues.length) ∧
      (∀ (publicValues : List UInt64) (i : Nat) (inside : i < publicValues.length),
        ∃ e, (((Environment.ofImage m).register [publicValues[i]] []).2.invoke "bsearch").outcome =
            .ok e ∧
          e.entry = "bsearch" ∧ e.imageDigest = m.digestHex ∧ e.toRun = m.run publicValues[i] ∧
          e.target = publicValues[i] ∧ e.publicConsumed = 1 ∧ e.privateConsumed = 0 ∧
          (searched path publicValues privateValues true state).lines[i]? =
            some (asciiBytes e.jsonText) ∧
          (searched path publicValues privateValues false state).lines[i]? =
            some (asciiBytes { e with probes := [] }.jsonText)) ∧
      ∀ publicValues others trace,
        (searched path (publicValues ++ others) privateValues trace state).output =
          (searched path publicValues privateValues trace state).output ++
            (searched path others privateValues trace state).output) ∧
    ∀ e, ((Image.load path : StateM σ (Except Error Image)).run state).1 = .error e →
      ∀ publicValues trace,
        (searched path publicValues privateValues trace state).output = [] ∧
          (searched path publicValues privateValues trace state).exitCode = 1 := by
  refine ⟨fun m loaded => ⟨?_, ?_, ?_⟩, ?_⟩
  · intro publicValues trace
    have waits : ((Environment.ofImage m).register publicValues privateValues).2.waiting
        .publicInput = publicValues ++ [] := (List.append_nil publicValues).symm
    obtain ⟨lines, fine⟩ := lines_searched publicValues privateValues trace loaded
    have count : (searched path publicValues privateValues trace state).lines.length =
        publicValues.length := by
      rw [lines, List.length_map]
    refine ⟨⟨_, Environment.invokeTimes_of_waiting waits⟩, ?_, rfl, count, ?_⟩
    · rw [Outcome.exitCode, fine]
      rfl
    · rw [← count]
      apply count_output
      rw [lines]
      intro line mem
      obtain ⟨value, -, rfl⟩ := List.mem_map.mp mem
      exact newline_not_mem_printed m trace value
  · intro publicValues i inside
    have line (trace : Bool) :
        (searched path publicValues privateValues trace state).lines[i]? =
          some (asciiBytes (shown trace (m.execution publicValues[i])).jsonText) := by
      rw [(lines_searched _ _ _ loaded).1, List.getElem?_map, List.getElem?_eq_getElem inside,
        ← printed_eq]
      rfl
    exact ⟨m.execution publicValues[i], Environment.outcome_of_alone m _, rfl, rfl, rfl, rfl, rfl,
      rfl, line true, line false⟩
  · intro publicValues others trace
    simp only [Outcome.output, (lines_searched _ _ _ loaded).1, List.map_append,
      List.flatMap_append]
  · intro e refused publicValues trace
    rw [searched_of_error _ _ _ refused]
    exact ⟨rfl, rfl⟩

/-- An image of five values, in the binary form, searched for a value that it has and one that it
does not have. -/
theorem run_prints_each_present_and_absent :
    ∃ (m : Image) (d : Directory), m.table.values = #[2, 4, 6, 8, 10] ∧
      ((Image.load "image.bin" : StateM Directory (Except Error Image)).run d).1 = .ok m ∧
      (searched "image.bin" [8, 7] [1] false d).exitCode = 0 ∧
      (searched "image.bin" [8, 7] [1] false d).output.count (ascii '\n') = 2 ∧
      (searched "image.bin" [8, 7] [1] false d).lines[0]? =
        some (asciiBytes
          (Execution.jsonText ⟨⟨8, 3, true, []⟩, "bsearch", m.digestHex, 1, 0⟩)) ∧
      (∃ e, (((Environment.ofImage m).register [7] []).2.invoke "bsearch").outcome = .ok e ∧
        e.found = false ∧
        (searched "image.bin" [8, 7] [1] true d).lines[1]? = some (asciiBytes e.jsonText)) ∧
      (searched "none.json" [8] [] false d).exitCode = 1 := by
  let t : Table := ⟨#[2, 4, 6, 8, 10], by decide, by decide, by decide⟩
  let m : Image := ⟨⟨5, 4294967295⟩, t, by decide, by decide⟩
  let d := Directory.empty.put ["image.bin"] (.file (m.content "image.bin"))
  have read :
      ((Files.read "image.bin" : StateM Directory (Except FileError (List UInt8))).run d).1 =
        .ok (m.content "image.bin") := rfl
  have loaded : ((Image.load "image.bin" : StateM Directory (Except Error Image)).run d).1 =
      .ok m := (Image.load_of_read read).trans (Image.ofContent_content m "image.bin")
  have missing : ((Image.load "none.json" : StateM Directory (Except Error Image)).run d).1 =
      .error (.file .notFound) := rfl
  have position : scan [2, 4, 6, 8, 10] 4294967295 8 = 3 := by decide
  have result : (m.run 8).result = 3 :=
    (m.run_result 8).trans ((m.answer_eq_scan 8).trans position)
  have present : (m.run 8).found = true := (m.run_found_iff 8).mpr (by decide)
  have absent : (m.run 7).found = false :=
    Bool.eq_false_iff.mpr fun found => absurd ((m.run_found_iff 7).mp found) (by decide)
  obtain ⟨succeeds, -⟩ := run_prints_each "image.bin" d [1]
  obtain ⟨whole, each, -⟩ := succeeds m loaded
  obtain ⟨-, fine, -, -, count⟩ := whole [8, 7] false
  obtain ⟨first, -, entry, digest, run, target, publicly, privately, -, untraced⟩ :=
    each [8, 7] 0 (by decide)
  obtain ⟨second, alone, -, -, other, -, -, -, traced, -⟩ := each [8, 7] 1 (by decide)
  obtain ⟨-, fails⟩ := run_prints_each "none.json" d []
  have stripped : { first with probes := [] } =
      (⟨⟨8, 3, true, []⟩, "bsearch", m.digestHex, 1, 0⟩ : Execution) := by
    rw [Execution.mk.injEq, Run.mk.injEq]
    exact ⟨⟨target, (congrArg Run.result run).trans result, (congrArg Run.found run).trans present,
      rfl⟩, entry, digest, publicly, privately⟩
  rw [stripped] at untraced
  exact ⟨m, d, rfl, loaded, fine, count, untraced,
    ⟨second, alone, (congrArg Run.found other).trans absent, traced⟩, (fails _ missing [8] false).2⟩

end CommandLine

end TableSearch
