import TableSearch.Digest
import TableSearch.Error
import TableSearch.Log
import TableSearch.Queue

/-!
# The environment of an image

An environment holds an image and the input supplied for it. Input is registered for both channels
at once and waits behind what was registered before. The image has one entry point, which runs a
search on the next public value; every other name is refused, and a refused or failed invocation
leaves the environment as it was. Each registration and each search, whether or not it succeeds,
is reported by one event.
-/

namespace TableSearch

/-- The name of the entry point. -/
def entryPoint : String := "bsearch"

/-- A successful invocation. -/
structure Execution extends Run where
  /-- The name that was invoked. -/
  entry : String
  /-- The digest of the image, in hexadecimal digits. -/
  imageDigest : String
  /-- How many public values this invocation drew. -/
  publicConsumed : Nat
  /-- How many private values this invocation drew. -/
  privateConsumed : Nat
  deriving DecidableEq

/-- Why an invocation did not succeed. -/
inductive InvocationError where
  /-- The image has no such entry point. -/
  | unknownEntry (name : String)
  /-- The search failed. -/
  | failed (error : Error)

namespace InvocationError

/-- The text that reports why an invocation did not succeed. -/
def message : InvocationError → String
  | unknownEntry name => s!"Unknown export: {name}"
  | failed e => s!"Core error: {e.message}"

/-- The texts of an error and of the causes behind it, the error first. -/
def chain (e : InvocationError) : List String :=
  e.message :: match e with
    | unknownEntry _ => []
    | failed inner => inner.chain

end InvocationError

/-- What an environment reports. -/
inductive Event where
  /-- Input was registered, so many values for each channel. -/
  | registered (publicCount privateCount : Nat)
  /-- A search came to its end. -/
  | finished (entry digest : String) (target : UInt64) (result : UInt32) (found : Bool)
      (probes : Nat)
  /-- A search failed. -/
  | failed (entry digest : String) (error : String)
  deriving DecidableEq

namespace Event

/-- How much an event matters. -/
def level : Event → Level
  | registered .. => .debug
  | finished .. => .info
  | failed .. => .warn

/-- What an event says. -/
def message : Event → String
  | registered .. => "Registering inputs"
  | finished .. => "Invocation finished"
  | failed .. => "Invocation failed"

/-- The details of an event. -/
def details : Event → List (String × Detail)
  | registered publicCount privateCount =>
    [("public", .count publicCount), ("private", .count privateCount)]
  | finished entry digest target result found probes =>
    [("export", .quoted entry), ("digest", .plain digest), ("target", .count target.toNat),
      ("result", .count result.toNat), ("found", .truth found), ("probes", .count probes)]
  | failed entry digest error =>
    [("export", .quoted entry), ("digest", .plain digest), ("error", .plain error)]

/-- The log record of an event. -/
def record (e : Event) : LogRecord := ⟨e.level, "bsearch_host::env", e.message, e.details⟩

end Event

/-- An image with the input supplied for it. -/
structure Environment where
  image : Image
  queue : Queue
  /-- The digest of the image, in hexadecimal digits. -/
  digest : String
  digest_eq : digest = image.digestHex

/-- What comes of an invocation. -/
structure Invocation where
  outcome : Except InvocationError Execution
  event? : Option Event
  /-- The environment afterwards. -/
  environment : Environment

namespace Environment

/-- The environment of an image without input. -/
def ofImage (m : Image) : Environment := ⟨m, {}, m.digestHex, rfl⟩

/-- How many values wait on a channel. -/
def remaining (env : Environment) (channel : Channel) : Nat := env.queue.remaining channel

/-- Puts values behind those that wait on each channel. -/
def register (env : Environment) (publicValues privateValues : List UInt64) :
    Event × Environment :=
  (.registered publicValues.length privateValues.length,
    { env with
      queue := (env.queue.append .publicInput publicValues).append .privateInput privateValues })

/-- The record of a search that took the queue from one state to another. -/
def execution (env : Environment) (name : String) (run : Run) (after : Queue) : Execution where
  toRun := run
  entry := name
  imageDigest := env.digest
  publicConsumed := after.consumed .publicInput - env.queue.consumed .publicInput
  privateConsumed := after.consumed .privateInput - env.queue.consumed .privateInput

/-- Runs the entry point of a name. -/
def invoke (env : Environment) (name : String) : Invocation :=
  if name = entryPoint then
    match env.image.searchRecorded env.queue with
    | (.error e, after) =>
      ⟨.error (.failed (.input e)), some (.failed name env.digest e.message),
        { env with queue := after }⟩
    | (.ok run, after) =>
      ⟨.ok (env.execution name run after),
        some (.finished name env.digest run.target run.result run.found run.probes.length),
        { env with queue := after }⟩
  else ⟨.error (.unknownEntry name), none, env⟩

/-- Runs the entry point a number of times, as long as each run succeeds. The events and the
outcomes come in order. -/
def invokeTimes (env : Environment) : Nat → List Event × Except InvocationError (List Execution)
  | 0 => ([], .ok [])
  | count + 1 =>
    let invocation := env.invoke entryPoint
    match invocation.outcome with
    | .error e => (invocation.event?.toList, .error e)
    | .ok execution =>
      let (events, outcome) := invocation.environment.invokeTimes count
      (invocation.event?.toList ++ events, outcome.map (execution :: ·))

end Environment

end TableSearch
