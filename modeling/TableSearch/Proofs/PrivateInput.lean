import Mathlib.Data.List.Forall2
import TableSearch.Proofs.SearchCommand

/-!
# Private values leave no trace

Two hosts send the same requests, but register different private values. Their environments keep
the same image and the same public channel, which is all that an invocation looks at, so the
answers differ in nothing but the counts of private values. Where equally many private values are
registered each time, the answers do not differ at all. A command that searches an image prints
the same and exits with the same code whatever private values it is given.
-/

namespace TableSearch

/-! ## What is compared -/

/-- The requests differ at most in the private values that they register. -/
inductive Request.Alike : Request → Request → Prop
  | register (publicValues privateValues others : List UInt64) :
    Alike (.register publicValues privateValues) (.register publicValues others)
  | invoke (name : String) : Alike (.invoke name) (.invoke name)

/-- The events differ at most in the number of private values that were registered. -/
inductive Event.Alike : Event → Event → Prop
  | registered (publicCount privateCount other : Nat) :
    Alike (.registered publicCount privateCount) (.registered publicCount other)
  | same (e : Event) : Alike e e

/-- The answers differ at most in numbers of private values. -/
structure Answer.Alike (a b : Answer) : Prop where
  outcome_eq : a.outcome? = b.outcome?
  event : Option.Rel Event.Alike a.event? b.event?
  image_eq : a.environment.image = b.environment.image
  remaining_eq : a.environment.remaining .publicInput = b.environment.remaining .publicInput

/-- A host sees no difference between the answers. -/
structure Answer.Same (a b : Answer) : Prop where
  outcome_eq : a.outcome? = b.outcome?
  event_eq : a.event? = b.event?
  image_eq : a.environment.image = b.environment.image
  remaining_eq (channel : Channel) :
    a.environment.remaining channel = b.environment.remaining channel

/-- The requests register equally many private values. -/
def Request.Counts (request other : Request) : Prop :=
  request.Alike other ∧
    (request.values .privateInput).length = (other.values .privateInput).length

/-- What the searches among the answers report, whether or not they succeed. -/
def searchEvents (answers : List Answer) : List Event :=
  (answers.filterMap Answer.event?).filter fun e => e.level = .info ∨ e.level = .warn

namespace Environment

/-- The environments have the same image and the same public channel. -/
structure Alike (env other : Environment) : Prop where
  image_eq : env.image = other.image
  lane_eq : env.queue.publicLane = other.queue.publicLane

variable {env other : Environment} {request counterpart : Request}

theorem Alike.digest_eq (alike : env.Alike other) : env.digest = other.digest := by
  rw [env.digest_eq, other.digest_eq, alike.image_eq]

theorem Alike.remaining_eq (alike : env.Alike other) :
    env.remaining .publicInput = other.remaining .publicInput :=
  congrArg (fun lane : Lane => lane.waiting.length) alike.lane_eq

/-! ## One request -/

/-- An invocation looks at the image and the public channel only. -/
theorem Alike.invoke (alike : env.Alike other) (name : String) :
    (env.invoke name).outcome = (other.invoke name).outcome ∧
      (env.invoke name).event? = (other.invoke name).event? ∧
      (env.invoke name).environment.Alike (other.invoke name).environment := by
  by_cases same : name = entryPoint
  · subst same
    have waiting : env.waiting .publicInput = other.waiting .publicInput :=
      congrArg Lane.waiting alike.lane_eq
    have drawn : env.queue.publicLane.drawn = other.queue.publicLane.drawn :=
      congrArg Lane.drawn alike.lane_eq
    cases waits : env.waiting .publicInput with
    | nil =>
      rw [invoke_of_exhausted waits, invoke_of_exhausted (waiting.symm.trans waits)]
      simp only [alike.digest_eq]
      exact ⟨trivial, trivial, alike⟩
    | cons target rest =>
      rw [invoke_of_waiting waits, invoke_of_waiting (waiting.symm.trans waits)]
      simp only [alike.digest_eq, alike.image_eq, drawn]
      exact ⟨trivial, trivial, rfl, rfl⟩
  · rw [invoke_of_ne same, invoke_of_ne same]
    exact ⟨rfl, rfl, alike⟩

theorem Alike.answer (alike : env.Alike other) (same : request.Alike counterpart) :
    (env.answer request).Alike (other.answer counterpart) ∧
      (env.answer request).environment.Alike (other.answer counterpart).environment := by
  cases same with
  | register publicValues privateValues others =>
    have after : (env.answer (.register publicValues privateValues)).environment.Alike
        (other.answer (.register publicValues others)).environment :=
      ⟨alike.image_eq, congrArg (Lane.append · publicValues) alike.lane_eq⟩
    exact ⟨⟨rfl, .some (.registered ..), after.image_eq, after.remaining_eq⟩, after⟩
  | invoke name =>
    obtain ⟨outcome, event, after⟩ := alike.invoke name
    refine ⟨⟨congrArg some outcome, ?_, after.image_eq, after.remaining_eq⟩, after⟩
    change Option.Rel Event.Alike (env.invoke name).event? (other.invoke name).event?
    rw [event]
    cases (other.invoke name).event? with
    | none => exact .none
    | some e => exact .some (.same e)

theorem waiting_private_answer (env : Environment) (request : Request) :
    (env.answer request).environment.waiting .privateInput =
      env.waiting .privateInput ++ request.values .privateInput := by
  obtain ⟨targets, served⟩ := env.exists_serves [request]
  have kept := served.untouched
  rw [supplied, List.flatMap_cons, List.flatMap_nil, List.append_nil] at kept
  exact kept.symm

/-- The environments agree in the number of private values as well. -/
def Counts (env other : Environment) : Prop :=
  env.Alike other ∧ env.remaining .privateInput = other.remaining .privateInput

theorem Counts.answer (counts : env.Counts other) (same : request.Counts counterpart) :
    (env.answer request).Same (other.answer counterpart) ∧
      (env.answer request).environment.Counts (other.answer counterpart).environment := by
  obtain ⟨answered, after⟩ := counts.1.answer same.1
  have remaining : (env.answer request).environment.remaining .privateInput =
      (other.answer counterpart).environment.remaining .privateInput := by
    have left := congrArg List.length (env.waiting_private_answer request)
    have right := congrArg List.length (other.waiting_private_answer counterpart)
    rw [List.length_append] at left right
    have before : (env.waiting .privateInput).length = (other.waiting .privateInput).length :=
      counts.2
    exact left.trans ((congrArg₂ (· + ·) before same.2).trans right.symm)
  refine ⟨⟨answered.outcome_eq, ?_, answered.image_eq, ?_⟩, after, remaining⟩
  · rcases same with ⟨kind, count⟩
    cases kind with
    | register publicValues privateValues others =>
      exact congrArg (fun count => some (Event.registered publicValues.length count)) count
    | invoke name => exact (counts.1.invoke name).2.1
  · intro channel
    cases channel with
    | privateInput => exact remaining
    | publicInput => exact answered.remaining_eq

/-! ## Two runs -/

/-- What holds between the answers to two requests from related environments, which the requests
leave related, holds between the answers to two sequences of such requests. -/
theorem forall₂_answers {E : Environment → Environment → Prop} {R : Request → Request → Prop}
    {A : Answer → Answer → Prop}
    (step : ∀ {env other request counterpart}, E env other → R request counterpart →
      A (env.answer request) (other.answer counterpart) ∧
        E (env.answer request).environment (other.answer counterpart).environment)
    (related : E env other) {requests others : List Request}
    (same : List.Forall₂ R requests others) :
    List.Forall₂ A (env.answers requests) (other.answers others) := by
  induction same generalizing env other with
  | nil => exact .nil
  | cons first _ ih =>
    obtain ⟨answered, after⟩ := step related first
    exact .cons answered (ih after)

end Environment

theorem searchEvents_cons (a : Answer) (answers : List Answer) :
    searchEvents (a :: answers) = searchEvents [a] ++ searchEvents answers := by
  rw [searchEvents, searchEvents, searchEvents, ← List.filter_append, ← List.filterMap_append,
    List.singleton_append]

/-- Searches report the same where the answers differ at most in numbers of private values. -/
theorem searchEvents_eq {answers others : List Answer}
    (alike : List.Forall₂ Answer.Alike answers others) :
    searchEvents answers = searchEvents others := by
  induction alike with
  | nil => rfl
  | @cons a b _ _ first _ ih =>
    have one : searchEvents [a] = searchEvents [b] := by
      have event := first.event
      rw [searchEvents, searchEvents, List.filterMap_cons, List.filterMap_cons]
      generalize a.event? = reported, b.event? = counterpart at event ⊢
      cases event with
      | none => rfl
      | some same =>
        -- registrations are reported at a level of their own
        cases same with
        | registered publicCount privateCount other => rfl
        | same e => rfl
    rw [searchEvents_cons, one, ih, ← searchEvents_cons]

/-- The output and the exit code of a search do not depend on private values. -/
theorem CommandLine.searched_private {σ : Type} [Files (StateM σ)] (path : String)
    (publicValues privateValues others : List UInt64) (trace : Bool) (state : σ) :
    (searched path publicValues privateValues trace state).output =
        (searched path publicValues others trace state).output ∧
      (searched path publicValues privateValues trace state).exitCode =
        (searched path publicValues others trace state).exitCode := by
  cases loaded : ((Image.load path : StateM σ (Except Error Image)).run state).1 with
  | error e =>
    rw [searched_of_error _ _ _ loaded, searched_of_error _ _ _ loaded]
    exact ⟨rfl, rfl⟩
  | ok m =>
    have one := lines_searched publicValues privateValues trace loaded
    have two := lines_searched publicValues others trace loaded
    rw [Outcome.output, Outcome.output, Outcome.exitCode, Outcome.exitCode, one.1, two.1, one.2,
      two.2]
    exact ⟨rfl, rfl⟩

/-- Private values do not interfere. In two runs of an environment whose requests differ only in
their private values, each answer has the same outcome, the same image and as many public values
left, and the searches report the same events; the reports of registrations differ at most in their
private count. What counts there are depends on how many private values each request registers, and
on nothing else of them. The command that searches an image prints the same and exits with the same
code whatever private values it is given. -/
theorem private_values_unseen (m : Image) :
    (∀ requests others : List Request, List.Forall₂ Request.Alike requests others →
      List.Forall₂ Answer.Alike ((Environment.ofImage m).answers requests)
        ((Environment.ofImage m).answers others) ∧
      searchEvents ((Environment.ofImage m).answers requests) =
        searchEvents ((Environment.ofImage m).answers others)) ∧
      (∀ requests others : List Request, List.Forall₂ Request.Counts requests others →
        List.Forall₂ Answer.Same ((Environment.ofImage m).answers requests)
          ((Environment.ofImage m).answers others)) ∧
      ∀ (σ : Type) [Files (StateM σ)] (path : String)
        (publicValues privateValues others : List UInt64) (trace : Bool) (state : σ),
        (CommandLine.searched path publicValues privateValues trace state).output =
            (CommandLine.searched path publicValues others trace state).output ∧
          (CommandLine.searched path publicValues privateValues trace state).exitCode =
            (CommandLine.searched path publicValues others trace state).exitCode := by
  refine ⟨?_, ?_, ?_⟩
  · intro requests others same
    have fresh : (Environment.ofImage m).Alike (Environment.ofImage m) := ⟨rfl, rfl⟩
    have alike := Environment.forall₂_answers Environment.Alike.answer fresh same
    exact ⟨alike, searchEvents_eq alike⟩
  · intro requests others same
    exact Environment.forall₂_answers Environment.Counts.answer ⟨⟨rfl, rfl⟩, rfl⟩ same
  · intro σ _ path publicValues privateValues others trace state
    exact CommandLine.searched_private path publicValues privateValues others trace state

/-- Private values that differ in number, and private values that differ in nothing else. -/
theorem private_values_unseen_registered :
    ∃ m : Image, m.table.values = #[2, 4, 6] ∧
      List.Forall₂ Answer.Alike
        ((Environment.ofImage m).answers [.register [6] [1, 2], .invoke "bsearch", .invoke "none"])
        ((Environment.ofImage m).answers [.register [6] [], .invoke "bsearch", .invoke "none"]) ∧
      List.Forall₂ Answer.Same
        ((Environment.ofImage m).answers [.register [6] [1, 2], .invoke "bsearch"])
        ((Environment.ofImage m).answers [.register [6] [7, 6], .invoke "bsearch"]) := by
  let t : Table := ⟨#[2, 4, 6], by decide, by decide, by decide⟩
  let m : Image := ⟨⟨3, 4294967295⟩, t, by decide, by decide⟩
  obtain ⟨alike, same, -⟩ := private_values_unseen m
  refine ⟨m, rfl, (alike _ _ ?_).1, same _ _ ?_⟩
  · exact .cons (.register ..) (.cons (.invoke _) (.cons (.invoke _) .nil))
  · exact .cons ⟨.register .., rfl⟩ (.cons ⟨.invoke _, rfl⟩ .nil)

end TableSearch
