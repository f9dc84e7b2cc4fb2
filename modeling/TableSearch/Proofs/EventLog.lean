import Mathlib.Algebra.GroupWithZero.Nat
import Mathlib.Data.List.Forall2
import TableSearch.Proofs.Requests

/-!
# What the log tells of an environment

The log of an environment says of every request what came of it: a registration is recorded with the
sizes of its lists, a search that succeeds with what its execution returned, a search that fails
with its error, and an unknown name not at all. So the log alone accounts for the input. What waits
on a channel is what the registrations in the log have put there, less one public value for each
success.
-/

namespace TableSearch

/-! ## Counting in a log -/

/-- The number that a record gives under a name, or zero if it gives none. -/
def LogRecord.number (name : String) (r : LogRecord) : Nat :=
  match r.details.lookup name with
  | some (.count n) => n
  | _ => 0

/-- How many values the registrations in a log have put on a channel. -/
def registeredIn (channel : Channel) (log : List LogRecord) : Nat :=
  ((log.filter (·.level = .debug)).map (LogRecord.number channel.name)).sum

/-- How many searches in a log succeeded. -/
def succeededIn (log : List LogRecord) : Nat := log.countP (·.level = .info)

theorem registeredIn_append (channel : Channel) (log more : List LogRecord) :
    registeredIn channel (log ++ more) = registeredIn channel log + registeredIn channel more := by
  rw [registeredIn, List.filter_append, List.map_append, List.sum_append]
  rfl

theorem succeededIn_append (log more : List LogRecord) :
    succeededIn (log ++ more) = succeededIn log + succeededIn more :=
  List.countP_append

/-- The records that come with an answer. -/
def Answer.records (a : Answer) : List LogRecord := a.event?.toList.map Event.record

/-- The log of answers: their records, in order. -/
def logOf (answers : List Answer) : List LogRecord := answers.flatMap Answer.records

/-! ## One request -/

/-- What is logged of a request that came to an outcome, where the image has a given digest. -/
inductive Request.Logged (digest : String) :
    Request → Option (Except InvocationError Execution) → List LogRecord → Prop
  | registration (publicValues privateValues : List UInt64) :
    Logged digest (.register publicValues privateValues) none
      [⟨.debug, "bsearch_host::env", "Registering inputs",
        [("public", .count publicValues.length), ("private", .count privateValues.length)]⟩]
  | success (e : Execution) : e.imageDigest = digest →
    Logged digest (.invoke e.entry) (some (.ok e))
      [⟨.info, "bsearch_host::env", "Invocation finished",
        [("export", .quoted e.entry), ("digest", .plain e.imageDigest),
          ("target", .count e.target.toNat), ("result", .count e.result.toNat),
          ("found", .truth e.found), ("probes", .count e.probes.length)]⟩]
  | failure (name : String) (error : Error) :
    Logged digest (.invoke name) (some (.error (.failed error)))
      [⟨.warn, "bsearch_host::env", "Invocation failed",
        [("export", .quoted name), ("digest", .plain digest), ("error", .plain error.message)]⟩]
  | unknown (name : String) : Logged digest (.invoke name) (some (.error (.unknownEntry name))) []

namespace Request.Logged

variable {digest : String} {request : Request}
  {outcome? : Option (Except InvocationError Execution)} {records : List LogRecord}

theorem registeredIn_eq (logged : request.Logged digest outcome? records) (channel : Channel) :
    registeredIn channel records = (request.values channel).length := by
  cases logged with
  | registration publicValues privateValues => cases channel <;> rfl
  | success => rfl
  | failure => rfl
  | unknown => rfl

theorem succeededIn_eq (logged : request.Logged digest outcome? records) :
    succeededIn records = (outcome?.bind (·.toOption)).toList.length := by
  cases logged with
  | registration => rfl
  | success => rfl
  | failure => rfl
  | unknown => rfl

end Request.Logged

namespace Environment

/-- Whatever a request comes to, the records of its answer say so. -/
theorem logged_answer (env : Environment) (request : Request) :
    request.Logged env.digest (env.answer request).outcome? (env.answer request).records := by
  cases request with
  | register publicValues privateValues => exact .registration publicValues privateValues
  | invoke name =>
    by_cases same : name = entryPoint
    · subst same
      cases waits : env.waiting .publicInput with
      | nil =>
        rw [answer, invoke_of_exhausted waits]
        exact .failure entryPoint (.input (.exhausted .publicInput))
      | cons target rest =>
        have named : (env.image.execution target).imageDigest = env.digest := env.digest_eq.symm
        have logged := Request.Logged.success (env.image.execution target) named
        -- the event carries the digest that the environment keeps, not that of the execution
        rw [named] at logged
        rw [answer, invoke_of_waiting waits]
        exact logged
    · rw [answer, invoke_of_ne same]
      exact .unknown name

theorem digest_answer (env : Environment) (request : Request) :
    (env.answer request).environment.digest = env.digest := by
  rcases env.exists_serves [request] with ⟨targets, served⟩
  have image : (env.answer request).environment.image = env.image := served.image_eq
  rw [digest_eq, image, env.digest_eq]

end Environment

/-! ## A sequence of requests -/

/-- The requests are logged one by one, each by its own answer. -/
def AllLogged (digest : String) (requests : List Request) (answers : List Answer) : Prop :=
  List.Forall₂ (fun request a => request.Logged digest a.outcome? a.records) requests answers

theorem Environment.allLogged (env : Environment) (requests : List Request) :
    AllLogged env.digest requests (env.answers requests) := by
  induction requests generalizing env with
  | nil => exact .nil
  | cons request requests ih =>
    have more := ih (env.answer request).environment
    rw [env.digest_answer request] at more
    exact .cons (env.logged_answer request) more

namespace AllLogged

variable {digest : String} {requests : List Request} {answers : List Answer}

theorem registeredIn_eq (logged : AllLogged digest requests answers) (channel : Channel) :
    registeredIn channel (logOf answers) = (supplied channel requests).length := by
  induction logged with
  | nil => rfl
  | cons first _ ih =>
    rw [logOf, List.flatMap_cons, registeredIn_append, first.registeredIn_eq, supplied,
      List.flatMap_cons, List.length_append]
    exact congrArg (_ + ·) ih

theorem succeededIn_eq (logged : AllLogged digest requests answers) :
    succeededIn (logOf answers) = (answers.filterMap Answer.execution?).length := by
  induction logged with
  | nil => rfl
  | @cons _ a _ others first _ ih =>
    have split : (a :: others).filterMap Answer.execution? =
        a.execution?.toList ++ others.filterMap Answer.execution? := by
      rw [List.filterMap_cons]
      cases a.execution? <;> rfl
    rw [logOf, List.flatMap_cons, succeededIn_append, first.succeededIn_eq, split,
      List.length_append]
    exact congrArg (_ + ·) ih

end AllLogged

namespace Environment

variable (m : Image) (requests : List Request)

/-- The answers to the first requests are the first answers. -/
theorem answers_take (env : Environment) (i : Nat) :
    env.answers (requests.take i) = (env.answers requests).take i := by
  induction requests generalizing env i with
  | nil => rw [List.take_nil, answers, List.take_nil]
  | cons request requests ih =>
    cases i with
    | zero => rfl
    | succ i => exact congrArg (env.answer request :: ·) (ih _ i)

/-- What remains after requests to a fresh environment can be told from their log. -/
theorem remaining_of_log :
    succeededIn (logOf ((ofImage m).answers requests)) ≤
        registeredIn .publicInput (logOf ((ofImage m).answers requests)) ∧
      ((ofImage m).after requests).remaining .publicInput =
        registeredIn .publicInput (logOf ((ofImage m).answers requests)) -
          succeededIn (logOf ((ofImage m).answers requests)) ∧
      ((ofImage m).after requests).remaining .privateInput =
        registeredIn .privateInput (logOf ((ofImage m).answers requests)) := by
  have logged := (ofImage m).allLogged requests
  obtain ⟨-, -, bounded, waits, kept⟩ := executions_ofImage m requests
  rw [logged.registeredIn_eq, logged.registeredIn_eq, logged.succeededIn_eq]
  exact ⟨bounded, (congrArg List.length waits).trans List.length_drop, congrArg List.length kept⟩

/-- The log is a complete account of a fresh environment. Each request is recorded by what came of
it: a registration by one record of the sizes of its lists, a success by one record of what its
execution returned, a failed search by one record of its error, and an unknown name by none. So at
every moment the log so far tells what remains: on the public channel what its registrations put
there less one value for each success, and on the private one all that they put there. -/
theorem log_accounts_for_input :
    List.Forall₂ (fun request a => request.Logged m.digestHex a.outcome? a.records) requests
        ((ofImage m).answers requests) ∧
      ∀ i, succeededIn (logOf (((ofImage m).answers requests).take i)) ≤
          registeredIn .publicInput (logOf (((ofImage m).answers requests).take i)) ∧
        ((ofImage m).after (requests.take i)).remaining .publicInput =
          registeredIn .publicInput (logOf (((ofImage m).answers requests).take i)) -
            succeededIn (logOf (((ofImage m).answers requests).take i)) ∧
        ((ofImage m).after (requests.take i)).remaining .privateInput =
          registeredIn .privateInput (logOf (((ofImage m).answers requests).take i)) := by
  refine ⟨(ofImage m).allLogged requests, fun i => ?_⟩
  rw [← answers_take]
  exact remaining_of_log m (requests.take i)

example (m : Image) :
    ((logOf ((ofImage m).answers [.register [8, 7] [1], .invoke "main", .invoke "bsearch",
      .register [] [2, 3], .invoke "bsearch", .invoke "bsearch"])).map (·.level)) =
    [.debug, .info, .debug, .info, .warn] := rfl

end Environment

end TableSearch
