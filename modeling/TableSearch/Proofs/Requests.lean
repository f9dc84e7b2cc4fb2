import TableSearch.Environment
import TableSearch.Proofs.Scan

/-!
# Requests to an environment

A host sends requests one after the other: to register input, or to invoke an entry point. On every
channel, what waited before the requests and what they registered is what they drew and then what
waits after them, in this order; that is `Environment.Serves`, which a single request meets and
which passes through a sequence of them. So the place of a value among all public values that have
been registered decides which execution searches for it, whatever came in between.
-/

namespace TableSearch

/-- What a host asks of an environment. -/
inductive Request where
  /-- Registers values for both channels. -/
  | register (publicValues privateValues : List UInt64)
  /-- Invokes the entry point of a name. -/
  | invoke (name : String)

/-- The values that a request registers on a channel. -/
def Request.values (channel : Channel) : Request → List UInt64
  | register publicValues privateValues =>
    match channel with
    | .publicInput => publicValues
    | .privateInput => privateValues
  | invoke _ => []

/-- The values that requests register on a channel, in order. -/
def supplied (channel : Channel) (requests : List Request) : List UInt64 :=
  requests.flatMap (Request.values channel)

/-- What comes of a request. -/
structure Answer where
  /-- What an invocation came to. A registration comes to nothing. -/
  outcome? : Option (Except InvocationError Execution)
  event? : Option Event
  /-- The environment afterwards. -/
  environment : Environment

/-- The execution, if the request was an invocation that succeeded. -/
def Answer.execution? (a : Answer) : Option Execution := a.outcome?.bind (·.toOption)

/-- The execution that a search for a target comes to: it draws the target and nothing else. -/
def Image.execution (m : Image) (target : UInt64) : Execution where
  toRun := m.run target
  entry := entryPoint
  imageDigest := m.digestHex
  publicConsumed := 1
  privateConsumed := 0

namespace Environment

/-- Answers a request. -/
def answer (env : Environment) : Request → Answer
  | .register publicValues privateValues =>
    let (event, after) := env.register publicValues privateValues
    ⟨none, some event, after⟩
  | .invoke name =>
    let invocation := env.invoke name
    ⟨some invocation.outcome, invocation.event?, invocation.environment⟩

/-- The answers to requests, each given by the environment that the one before it left. -/
def answers (env : Environment) : List Request → List Answer
  | [] => []
  | request :: requests =>
    env.answer request :: (env.answer request).environment.answers requests

/-- The environment that requests leave. -/
def after (env : Environment) : List Request → Environment
  | [] => env
  | request :: requests => (env.answer request).environment.after requests

/-- The executions that requests come to, in order. -/
def executions (env : Environment) (requests : List Request) : List Execution :=
  (env.answers requests).filterMap Answer.execution?

/-- The values that wait on a channel. -/
def waiting (env : Environment) (channel : Channel) : List UInt64 :=
  (env.queue.lane channel).waiting

variable {env : Environment} {target : UInt64} {rest : List UInt64}

/-! ## One request -/

theorem nextPublic_of_waiting (waits : env.waiting .publicInput = target :: rest) :
    (Source.nextPublic : Draw Queue InputError UInt64).run.run env.queue =
      (.ok target, env.queue.setLane .publicInput ⟨rest, env.queue.publicLane.drawn + 1⟩) :=
  Queue.next_of_waiting waits

theorem nextPublic_of_exhausted (waits : env.waiting .publicInput = []) :
    (Source.nextPublic : Draw Queue InputError UInt64).run.run env.queue =
      (.error (.exhausted .publicInput), env.queue) :=
  Queue.next_of_exhausted waits

/-- While a public value waits, the entry point takes it away and searches for it. -/
theorem invoke_of_waiting (waits : env.waiting .publicInput = target :: rest) :
    env.invoke entryPoint =
      ⟨.ok (env.image.execution target),
        some (.finished entryPoint env.digest target (env.image.run target).result
          (env.image.run target).found (env.image.run target).probes.length),
        { env with
          queue := env.queue.setLane .publicInput ⟨rest, env.queue.publicLane.drawn + 1⟩ }⟩ := by
  have searched : env.image.searchRecorded env.queue = _ :=
    env.image.searchRecorded_of_draw (nextPublic_of_waiting waits)
  have one : env.queue.publicLane.drawn + 1 - env.queue.publicLane.drawn = 1 :=
    Nat.add_sub_cancel_left ..
  have none : env.queue.privateLane.drawn - env.queue.privateLane.drawn = 0 := Nat.sub_self _
  rw [invoke, if_pos rfl, searched]
  simp only [execution, Image.execution, Queue.consumed, Queue.lane, Queue.setLane, one, none,
    env.digest_eq]
  rfl

/-- Where no public value waits, the entry point fails and leaves everything as it was. -/
theorem invoke_of_exhausted (waits : env.waiting .publicInput = []) :
    env.invoke entryPoint =
      ⟨.error (.failed (.input (.exhausted .publicInput))),
        some (.failed entryPoint env.digest "No public input left"), env⟩ := by
  have drawn := nextPublic_of_exhausted waits
  have searched : env.image.searchRecorded env.queue =
      (.error (.exhausted .publicInput), env.queue) := by
    change (env.image.searchRecorded : Draw Queue InputError Run).run.run env.queue = _
    simp only [Image.searchRecorded, Source.next, ExceptT.run_bind, StateT.run_bind, drawn]
    rfl
  rw [invoke, if_pos rfl, searched]
  rfl

/-- Every other name is refused, without an event. -/
theorem invoke_of_ne {name : String} (other : name ≠ entryPoint) :
    env.invoke name = ⟨.error (.unknownEntry name), none, env⟩ :=
  if_neg other

/-! ## A sequence of requests -/

/-- Requests are served by searches for `targets`: on the public channel what waited and what came
is what was drawn and what waits, and on the private one nothing is drawn. -/
structure Serves (env : Environment) (requests : List Request) (targets : List UInt64) :
    Prop where
  image_eq : (env.after requests).image = env.image
  executions_eq : env.executions requests = targets.map env.image.execution
  conserved : env.waiting .publicInput ++ supplied .publicInput requests =
    targets ++ (env.after requests).waiting .publicInput
  untouched : env.waiting .privateInput ++ supplied .privateInput requests =
    (env.after requests).waiting .privateInput

variable {request : Request} {requests : List Request} {first others : List UInt64}

theorem Serves.nil (env : Environment) : env.Serves [] [] where
  image_eq := rfl
  executions_eq := rfl
  conserved := List.append_nil _
  untouched := List.append_nil _

theorem Serves.cons (one : env.Serves [request] first)
    (more : (env.answer request).environment.Serves requests others) :
    env.Serves (request :: requests) (first ++ others) := by
  have supply (channel : Channel) : supplied channel (request :: requests) =
      supplied channel [request] ++ supplied channel requests := by
    rw [← List.singleton_append, supplied, List.flatMap_append, supplied, supplied]
  have image : (env.answer request).environment.image = env.image := one.image_eq
  refine ⟨more.image_eq.trans image, ?_, ?_, ?_⟩
  · have split : env.executions (request :: requests) =
        env.executions [request] ++ (env.answer request).environment.executions requests :=
      List.filterMap_append (l := [env.answer request])
    rw [split, one.executions_eq, more.executions_eq, image, List.map_append]
  · rw [supply, ← List.append_assoc, one.conserved, List.append_assoc, List.append_assoc]
    exact congrArg (first ++ ·) more.conserved
  · rw [supply, ← List.append_assoc, one.untouched]
    exact more.untouched

theorem serves_register (publicValues privateValues : List UInt64) :
    env.Serves [.register publicValues privateValues] [] where
  image_eq := rfl
  executions_eq := rfl
  conserved := congrArg (_ ++ ·) (List.append_nil publicValues)
  untouched := congrArg (_ ++ ·) (List.append_nil privateValues)

/-- A request that leaves the environment as it was and comes to no execution. -/
theorem serves_unchanged {name : String} {error : InvocationError} {event? : Option Event}
    (refused : env.invoke name = ⟨.error error, event?, env⟩) : env.Serves [.invoke name] [] := by
  have answered : env.answer (.invoke name) = ⟨some (.error error), event?, env⟩ := by
    rw [answer, refused]
  have after : env.after [.invoke name] = env := by
    rw [Environment.after, answered]
    rfl
  refine ⟨by rw [after], ?_, ?_, ?_⟩
  · rw [executions, answers, answered]
    rfl
  · rw [after]
    exact List.append_nil _
  · rw [after]
    exact List.append_nil _

theorem serves_invoke (name : String) : ∃ targets, env.Serves [.invoke name] targets := by
  by_cases same : name = entryPoint
  · subst same
    cases waits : env.waiting .publicInput with
    | nil => exact ⟨[], serves_unchanged (invoke_of_exhausted waits)⟩
    | cons target rest =>
      have answered := invoke_of_waiting waits
      refine ⟨[target], ?_, ?_, ?_, ?_⟩
      · rw [after, answer, answered]
        rfl
      · rw [executions, answers, answer, answered]
        rfl
      · rw [after, answer, answered, waits]
        exact List.append_nil _
      · rw [after, answer, answered]
        exact List.append_nil _
  · exact ⟨[], serves_unchanged (invoke_of_ne same)⟩

/-- Requests of any kind, in any order, are served by some searches. -/
theorem exists_serves (env : Environment) (requests : List Request) :
    ∃ targets, env.Serves requests targets := by
  induction requests generalizing env with
  | nil => exact ⟨[], .nil env⟩
  | cons request requests ih =>
    obtain ⟨others, more⟩ := ih (env.answer request).environment
    cases request with
    | register publicValues privateValues =>
      exact ⟨_, (serves_register publicValues privateValues).cons more⟩
    | invoke name =>
      obtain ⟨first, one⟩ := env.serves_invoke name
      exact ⟨_, one.cons more⟩

/-! ## What requests come to -/

/-- An invocation that fails changes nothing. -/
theorem environment_of_error {name : String} {e : InvocationError}
    (failed : (env.invoke name).outcome = .error e) : (env.invoke name).environment = env := by
  by_cases same : name = entryPoint
  · subst same
    cases waits : env.waiting .publicInput with
    | nil => rw [invoke_of_exhausted waits]
    | cons target rest =>
      rw [invoke_of_waiting waits] at failed
      cases failed
  · rw [invoke_of_ne same]

variable (m : Image) (requests : List Request)

/-- From a fresh environment, the executions are the searches for the first public values that were
registered, one for each, and the others wait. -/
theorem executions_ofImage :
    ((ofImage m).after requests).image = m ∧
      (ofImage m).executions requests =
        ((supplied .publicInput requests).take
          ((ofImage m).executions requests).length).map m.execution ∧
      ((ofImage m).executions requests).length ≤ (supplied .publicInput requests).length ∧
      ((ofImage m).after requests).waiting .publicInput =
        (supplied .publicInput requests).drop ((ofImage m).executions requests).length ∧
      ((ofImage m).after requests).waiting .privateInput = supplied .privateInput requests := by
  obtain ⟨targets, served⟩ := exists_serves (ofImage m) requests
  have supply : supplied .publicInput requests =
      targets ++ ((ofImage m).after requests).waiting .publicInput := served.conserved
  have count : ((ofImage m).executions requests).length = targets.length := by
    rw [served.executions_eq, List.length_map]
  rw [count, supply, List.take_left, List.drop_left, List.length_append]
  exact ⟨served.image_eq, served.executions_eq, Nat.le_add_right _ _, rfl,
    served.untouched.symm⟩

/-- The next public value that was registered is the one that is searched for. -/
theorem outcome_of_supplied {target : UInt64}
    (next : (supplied .publicInput requests)[((ofImage m).executions requests).length]? =
      some target) :
    (((ofImage m).after requests).invoke entryPoint).outcome = .ok (m.execution target) := by
  obtain ⟨image, -, -, waits, -⟩ := executions_ofImage m requests
  obtain ⟨inside, here⟩ := List.getElem?_eq_some_iff.mp next
  rw [List.drop_eq_getElem_cons inside, here] at waits
  -- the whole invocation carries the digest of its image, so only its outcome is rewritten
  have succeeds : (((ofImage m).after requests).invoke entryPoint).outcome =
      .ok (((ofImage m).after requests).image.execution target) := by
    rw [invoke_of_waiting waits]
  rw [succeeds, image]

theorem outcome_of_exhausted
    (all : ((ofImage m).executions requests).length = (supplied .publicInput requests).length) :
    (((ofImage m).after requests).invoke entryPoint).outcome =
      .error (.failed (.input (.exhausted .publicInput))) := by
  obtain ⟨-, -, -, waits, -⟩ := executions_ofImage m requests
  rw [all, List.drop_length] at waits
  rw [invoke_of_exhausted waits]

/-- An execution searches for the public value at its own place. -/
theorem exists_supplied_of_execution {i : Nat} {e : Execution}
    (here : ((ofImage m).executions requests)[i]? = some e) :
    ∃ target, (supplied .publicInput requests)[i]? = some target ∧ m.execution target = e := by
  obtain ⟨-, law, -⟩ := executions_ofImage m requests
  rw [law, List.getElem?_map] at here
  obtain ⟨target, place, same⟩ := Option.map_eq_some_iff.mp here
  rw [List.getElem?_take] at place
  split at place
  · exact ⟨target, place, same⟩
  · cases place

/-- After any requests to a fresh environment, the entry point succeeds exactly while there have
been fewer executions than public values, and then searches for the value at the place of their
number; else it reports that no public value is left, and all other names are unknown. A failure
changes nothing. What remains is what has not been drawn on the public channel, and everything on
the private one. So an execution depends on the place of its target among the public values, and not
on how or when they were registered. -/
theorem invoke_after_requests :
    ((ofImage m).executions requests).length ≤ (supplied .publicInput requests).length ∧
      ((∃ e, (((ofImage m).after requests).invoke "bsearch").outcome = .ok e) ↔
        ((ofImage m).executions requests).length < (supplied .publicInput requests).length) ∧
      (∀ target,
        (supplied .publicInput requests)[((ofImage m).executions requests).length]? = some target →
          ∃ e, (((ofImage m).after requests).invoke "bsearch").outcome = .ok e ∧
            e.entry = "bsearch" ∧ e.target = target ∧ e.toRun = m.run target ∧
            e.imageDigest = m.digestHex ∧ e.publicConsumed = 1 ∧ e.privateConsumed = 0) ∧
      (((ofImage m).executions requests).length = (supplied .publicInput requests).length →
        (((ofImage m).after requests).invoke "bsearch").outcome =
          .error (.failed (.input (.exhausted .publicInput)))) ∧
      (∀ name, name ≠ "bsearch" → (((ofImage m).after requests).invoke name).outcome =
        .error (.unknownEntry name)) ∧
      (∀ name e, (((ofImage m).after requests).invoke name).outcome = .error e →
        (((ofImage m).after requests).invoke name).environment = (ofImage m).after requests) ∧
      ((ofImage m).after requests).remaining .publicInput =
        (supplied .publicInput requests).length - ((ofImage m).executions requests).length ∧
      ((ofImage m).after requests).remaining .privateInput =
        (supplied .privateInput requests).length ∧
      (ofImage m).executions requests =
        ((supplied .publicInput requests).take
          ((ofImage m).executions requests).length).map m.execution ∧
      ∀ (others : List Request) (i : Nat) (e other : Execution),
        ((ofImage m).executions requests)[i]? = some e →
          ((ofImage m).executions others)[i]? = some other →
            (supplied .publicInput requests)[i]? = (supplied .publicInput others)[i]? →
              e = other := by
  obtain ⟨-, law, bounded, waits, kept⟩ := executions_ofImage m requests
  have fails := outcome_of_exhausted m requests
  refine ⟨bounded, ⟨?_, ?_⟩, ?_, fails, ?_, ?_, ?_, ?_, law, ?_⟩
  · intro ⟨e, outcome⟩
    apply Nat.lt_of_le_of_ne bounded
    intro all
    cases (fails all).symm.trans outcome
  · intro inside
    exact ⟨_, outcome_of_supplied m requests (List.getElem?_eq_getElem inside)⟩
  · intro target next
    exact ⟨_, outcome_of_supplied m requests next, rfl, rfl, rfl, rfl, rfl, rfl⟩
  · intro name other
    rw [invoke_of_ne other]
  · exact fun name e failed => environment_of_error failed
  · exact (congrArg List.length waits).trans List.length_drop
  · exact congrArg List.length kept
  · intro others i e other here there same
    obtain ⟨target, place, rfl⟩ := exists_supplied_of_execution m requests here
    obtain ⟨otherTarget, otherPlace, rfl⟩ := exists_supplied_of_execution m others there
    rw [place, otherPlace] at same
    exact congrArg m.execution (Option.some.inj same)

theorem invoke_after_requests_interleaved :
    ∃ m : Image, m.table.values = #[2, 4, 6, 8, 10] ∧
      (∃ e, (((ofImage m).after [.register [8] [1, 2, 3], .invoke "main", .invoke "bsearch",
          .register [7] []]).invoke "bsearch").outcome = .ok e ∧ e.target = 7) ∧
      (((ofImage m).after [.register [8] [1, 2, 3], .invoke "bsearch"]).invoke "bsearch").outcome =
        .error (.failed (.input (.exhausted .publicInput))) ∧
      (((ofImage m).after [.register [8] [1]]).invoke "main").outcome =
        .error (.unknownEntry "main") ∧
      ((ofImage m).after [.register [8] [1, 2, 3], .invoke "bsearch"]).remaining .privateInput =
        3 := by
  let t : Table := ⟨#[2, 4, 6, 8, 10], by decide, by decide, by decide⟩
  let m : Image := ⟨⟨5, 4294967295⟩, t, by decide, by decide⟩
  obtain ⟨-, -, searches, -⟩ := invoke_after_requests m [.register [8] [1, 2, 3], .invoke "main",
    .invoke "bsearch", .register [7] []]
  obtain ⟨-, -, -, exhausted, -, -, -, kept, -⟩ :=
    invoke_after_requests m [.register [8] [1, 2, 3], .invoke "bsearch"]
  obtain ⟨-, -, -, -, unknown, -⟩ := invoke_after_requests m [.register [8] [1]]
  obtain ⟨e, succeeds, -, target, -⟩ := searches 7 rfl
  exact ⟨m, rfl, ⟨e, succeeds, target⟩, exhausted rfl, unknown "main" (by decide), kept⟩

end Environment

end TableSearch
