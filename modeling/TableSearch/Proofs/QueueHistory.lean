import TableSearch.Proofs.AnySource
import TableSearch.Queue

/-!
# The history of a queue

A queue is pushed to and read from, through its own actions, a reference or actions that come with
it, in any order. Whatever a reading is, it either draws from one channel and makes its reply of the
value, or names no channel and fails (`Reading.run_draw_of_channel`, `Reading.run_draw_of_none`); so
an operation on a channel acts on the lane of the channel alone.

A watched queue shows which values were drawn. On each channel, those that have been drawn and then
those that wait are the values that the queue began with and then those pushed since. This is
`Accounts`, which one operation keeps and so does any number of them.
-/

namespace TableSearch

namespace Queue

/-- What can be read from a source of input. -/
inductive Reading where
  | nextPublic
  | nextPrivate
  | next (channel : Channel)
  | nextByFlag (flag : Int32)
  | search (m : Image)
  | searchRecorded (m : Image)

/-- What a reading comes to. -/
inductive Reply where
  | value (value : UInt64)
  | position (result : UInt32)
  | record (run : Run)

/-- The ways in which a reading reaches its source. -/
inductive Access where
  | direct
  | lent
  | dynamic

/-- What can be done with a queue. -/
inductive Operation where
  | push (channel : Channel) (value : UInt64)
  | read (access : Access) (reading : Reading)

/-- The ways in which a queue begins. -/
inductive Start where
  | ofLists (publicValues privateValues : List UInt64)
  | ofPublic (publicValues : List UInt64)
  | empty

variable {σ τ ε : Type}

namespace Reading

/-- Reads from a source. -/
def draw [Source σ InputError] : Reading → Draw σ InputError Reply
  | nextPublic => do return .value (← Source.nextPublic)
  | nextPrivate => do return .value (← Source.nextPrivate)
  | next channel => do return .value (← Source.next channel)
  | nextByFlag flag => do return .value (← Source.nextByFlag flag)
  | search m => do return .position (← m.search)
  | searchRecorded m => do return .record (← m.searchRecorded)

/-- The channel that is read, unless the reading names none. -/
def channel? : Reading → Option Channel
  | nextPublic => some .publicInput
  | nextPrivate => some .privateInput
  | next channel => some channel
  | nextByFlag flag => Channel.ofFlag? flag
  | search _ => some .publicInput
  | searchRecorded _ => some .publicInput

/-- What a reading makes of the value that was drawn. -/
def reply : Reading → UInt64 → Reply
  | nextPublic, value => .value value
  | nextPrivate, value => .value value
  | next _, value => .value value
  | nextByFlag _, value => .value value
  | search m, value => .position (m.answer value)
  | searchRecorded m, value => .record (m.run value)

/-- Reads from a source in one of the ways to reach it. -/
def perform [Source σ InputError] (reading : Reading) :
    Access → σ → Except InputError Reply × σ
  | .direct, before => reading.draw before
  | .lent, before =>
    let (outcome, after) := reading.draw (Lent.mk before)
    (outcome, after.owner)
  | .dynamic, before =>
    let (outcome, after) := reading.draw (⟨inferInstance, before⟩ : Dynamic σ InputError)
    (outcome, after.state)

end Reading

/-- States on which values can be put. -/
class Supply (σ : Type) where
  /-- Puts a value behind those that wait on a channel. -/
  push : σ → Channel → UInt64 → σ

instance : Supply Queue := ⟨Queue.push⟩

instance [Supply σ] : Supply (Watched σ ε) :=
  ⟨fun w channel value => { w with state := Supply.push w.state channel value }⟩

namespace Operation

/-- Performs an operation. A push comes to nothing. -/
def perform [Source σ InputError] [Supply σ] :
    Operation → σ → Option (Except InputError Reply) × σ
  | push channel value, before => (none, Supply.push before channel value)
  | read access reading, before =>
    let (outcome, after) := reading.perform access before
    (some outcome, after)

/-- Performs operations, each on what the one before it left. -/
def performAll [Source σ InputError] [Supply σ] :
    List Operation → σ → List (Option (Except InputError Reply)) × σ
  | [], before => ([], before)
  | operation :: operations, before =>
    let (outcome, after) := operation.perform before
    let (outcomes, last) := performAll operations after
    (outcome :: outcomes, last)

/-- The channel that an operation is on, unless it is a reading that names none. -/
def channel? : Operation → Option Channel
  | push channel _ => some channel
  | read _ reading => reading.channel?

/-- What an operation on a channel makes of the lane of the channel. -/
def onLane (channel : Channel) : Operation → Lane → Option (Except InputError Reply) × Lane
  | push _ value, lane => (none, lane.append [value])
  | read _ reading, lane =>
    match lane.waiting with
    | [] => (some (.error (.exhausted channel)), lane)
    | value :: rest => (some (.ok (reading.reply value)), ⟨rest, lane.drawn + 1⟩)

/-- The values that an operation pushes on a channel. -/
def pushed (channel : Channel) : Operation → List UInt64
  | push other value => if other = channel then [value] else []
  | read _ _ => []

end Operation

namespace Start

/-- The queue at the beginning. -/
def queue : Start → Queue
  | ofLists publicValues privateValues => Queue.ofLists publicValues privateValues
  | ofPublic publicValues => Queue.ofPublic publicValues
  | empty => {}

/-- The values that a queue begins with on a channel. -/
def values (channel : Channel) : Start → List UInt64
  | ofLists publicValues privateValues =>
    match channel with
    | .publicInput => publicValues
    | .privateInput => privateValues
  | ofPublic publicValues =>
    match channel with
    | .publicInput => publicValues
    | .privateInput => []
  | empty => []

/-- The values that have been on a channel after some operations: those of the beginning, and those
that were pushed. -/
def history (start : Start) (operations : List Operation) (channel : Channel) : List UInt64 :=
  start.values channel ++ operations.flatMap (Operation.pushed channel)

/-- The queue after some operations. -/
def after (start : Start) (operations : List Operation) : Queue :=
  (Operation.performAll operations start.queue).2

/-- The queue after some operations, watched from the beginning. -/
def watched (start : Start) (operations : List Operation) : Watched Queue InputError :=
  (Operation.performAll operations ⟨start.queue, []⟩).2

end Start

/-! ## Readings -/

namespace Reading

variable {reading : Reading} {channel : Channel}

/-- A number names the channel whose flag it is, and no other. -/
theorem channel?_nextByFlag {flag : Int32} :
    (nextByFlag flag).channel? = some channel ↔ flag = channel.flag :=
  Channel.ofFlag?_eq_some_iff

/-- A reading that names a channel draws from it, and makes its reply of the value. -/
theorem run_draw_of_channel [Source σ InputError] (names : reading.channel? = some channel)
    (before : σ) :
    (reading.draw : Draw σ InputError Reply).run.run before =
      (((Source.next channel : Draw σ InputError UInt64).run.run before).1.map reading.reply,
        ((Source.next channel : Draw σ InputError UInt64).run.run before).2) := by
  cases reading with
  | nextPublic | nextPrivate =>
    cases names
    exact Draw.run_bind_pure _ _ before
  | next other =>
    cases names
    exact Draw.run_bind_pure _ _ before
  | nextByFlag flag =>
    have same : (Source.nextByFlag flag : Draw σ InputError UInt64) = Source.next channel := by
      have selects : Channel.ofFlag? flag = some channel := names
      rw [Source.nextByFlag, selects]
    rw [draw, same]
    exact Draw.run_bind_pure _ _ before
  | search m =>
    cases names
    rw [draw, Draw.run_bind_pure, m.run_search]
    cases ((Source.next .publicInput : Draw σ InputError UInt64).run.run before).1 <;> rfl
  | searchRecorded m =>
    cases names
    rw [draw, Draw.run_bind_pure, m.run_searchRecorded]
    cases ((Source.next .publicInput : Draw σ InputError UInt64).run.run before).1 <;> rfl

/-- A reading that names no channel fails and changes nothing. -/
theorem run_draw_of_none [Source σ InputError] (names : reading.channel? = none) (before : σ) :
    ∃ flag, reading = .nextByFlag flag ∧
      (reading.draw : Draw σ InputError Reply).run.run before =
        (.error (.unknownFlag flag), before) := by
  cases reading with
  | nextByFlag flag =>
    have selects : Channel.ofFlag? flag = none := names
    refine ⟨flag, rfl, ?_⟩
    rw [draw, Draw.run_bind_pure, Source.nextByFlag, selects]
    rfl
  | nextPublic | nextPrivate | next other | search m | searchRecorded m => cases names

/-- Related sources are read alike. -/
theorem agree_draw [Source σ InputError] [Source τ InputError] {R : σ → τ → Prop}
    (agree : Source.Agree R) (reading : Reading) :
    Draw.Agree R (reading.draw : Draw σ InputError Reply) reading.draw := by
  cases reading with
  | nextPublic => exact agree.nextPublic.bind fun value => .pure (Reply.value value)
  | nextPrivate => exact agree.nextPrivate.bind fun value => .pure (Reply.value value)
  | next channel => exact (agree.next channel).bind fun value => .pure (Reply.value value)
  | nextByFlag flag => exact (agree.nextByFlag flag).bind fun value => .pure (Reply.value value)
  | search m => exact (agree.search m).bind fun result => .pure (Reply.position result)
  | searchRecorded m => exact (agree.searchRecorded m).bind fun run => .pure (Reply.record run)

/-- A reading comes to the same whichever way it reaches its source. -/
theorem perform_eq [Source σ InputError] (reading : Reading) (access : Access) (before : σ) :
    reading.perform access before = reading.draw.run.run before := by
  cases access with
  | direct => rfl
  | lent =>
    rcases agree_draw Lent.agree reading before ⟨before⟩ rfl with ⟨outcome_eq, after⟩
    exact Prod.ext outcome_eq.symm after
  | dynamic =>
    rcases agree_draw Dynamic.agree reading before ⟨inferInstance, before⟩ rfl with
      ⟨outcome_eq, after⟩
    exact Prod.ext outcome_eq.symm (congrArg Dynamic.state after)

end Reading

/-! ## One operation -/

namespace Operation

variable {operation : Operation} {channel : Channel} {access : Access} {reading : Reading}
  {q : Queue} {value : UInt64} {rest : List UInt64}

theorem perform_read [Source σ InputError] [Supply σ] (access : Access) (reading : Reading)
    (before : σ) :
    (read access reading).perform before =
      (some (reading.draw.run.run before).1, (reading.draw.run.run before).2) := by
  rw [perform, reading.perform_eq]
  rfl

/-- While a value waits on its channel, a reading takes it away and replies with it. -/
theorem perform_read_of_waiting (names : reading.channel? = some channel)
    (waits : (q.lane channel).waiting = value :: rest) :
    (read access reading).perform q =
      (some (.ok (reading.reply value)),
        q.setLane channel ⟨rest, (q.lane channel).drawn + 1⟩) := by
  rw [perform_read, Reading.run_draw_of_channel names, next_of_waiting waits]
  rfl

/-- Where nothing waits on its channel, a reading fails and changes nothing. -/
theorem perform_read_of_exhausted (names : reading.channel? = some channel)
    (waits : (q.lane channel).waiting = []) :
    (read access reading).perform q = (some (.error (.exhausted channel)), q) := by
  rw [perform_read, Reading.run_draw_of_channel names, next_of_exhausted waits]
  rfl

theorem perform_read_of_none (names : reading.channel? = none) (access : Access) (q : Queue) :
    ∃ flag, reading = .nextByFlag flag ∧
      (read access reading).perform q = (some (.error (.unknownFlag flag)), q) := by
  rcases Reading.run_draw_of_none names q with ⟨flag, same, fails⟩
  refine ⟨flag, same, ?_⟩
  rw [perform_read, fails]

/-- An operation on a channel looks at the lane of the channel, and changes that lane only. -/
theorem perform_eq_onLane (names : operation.channel? = some channel) (q : Queue) :
    operation.perform q =
      ((operation.onLane channel (q.lane channel)).1,
        q.setLane channel (operation.onLane channel (q.lane channel)).2) := by
  cases operation with
  | push other value =>
    cases names
    rfl
  | read access reading =>
    rw [onLane]
    cases waits : (q.lane channel).waiting with
    | nil => rw [perform_read_of_exhausted names waits, setLane_lane]
    | cons value rest => rw [perform_read_of_waiting names waits]

/-- Readings that name the same channel and make the same of its values come to the same. -/
theorem perform_read_eq {one other : Reading} (names : one.channel? = some channel)
    (otherNames : other.channel? = some channel) (replies : one.reply = other.reply)
    (access : Access) (q : Queue) :
    (read access one).perform q = (read access other).perform q := by
  cases waits : (q.lane channel).waiting with
  | nil => rw [perform_read_of_exhausted names waits, perform_read_of_exhausted otherNames waits]
  | cons value rest =>
    rw [perform_read_of_waiting names waits, perform_read_of_waiting otherNames waits, replies]

/-- A number that is no flag is not read by. -/
theorem perform_read_of_flag {flag : Int32} (notPrivate : flag ≠ 0) (notPublic : flag ≠ 1)
    (access : Access) (q : Queue) :
    (read access (.nextByFlag flag)).perform q = (some (.error (.unknownFlag flag)), q) := by
  have names : (Reading.nextByFlag flag).channel? = none := by
    apply Option.eq_none_iff_forall_ne_some.mpr
    intro channel selects
    have own := Reading.channel?_nextByFlag.mp selects
    cases channel with
    | privateInput => exact notPrivate own
    | publicInput => exact notPublic own
  rcases perform_read_of_none names access q with ⟨other, same, fails⟩
  cases same
  exact fails

/-- An operation leaves every other lane as it was. -/
theorem lane_perform_of_ne (other : operation.channel? ≠ some channel) :
    (operation.perform q).2.lane channel = q.lane channel := by
  cases names : operation.channel? with
  | none =>
    cases operation with
    | push pushed value => cases names
    | read access reading =>
      rcases perform_read_of_none names access q with ⟨flag, -, fails⟩
      rw [fails]
  | some named =>
    have ne : channel ≠ named := fun same => other (names.trans (congrArg some same.symm))
    rw [perform_eq_onLane names, lane_setLane, if_neg ne]

/-- An operation that fails changes nothing. -/
theorem eq_of_perform_error {e : InputError} {after : Queue}
    (fails : operation.perform q = (some (.error e), after)) : after = q := by
  cases operation with
  | push pushed value => cases fails
  | read access reading =>
    cases names : reading.channel? with
    | none =>
      rcases perform_read_of_none names access q with ⟨flag, -, unchanged⟩
      exact (Prod.mk.inj (fails.symm.trans unchanged)).2
    | some channel =>
      cases waits : (q.lane channel).waiting with
      | nil => exact (Prod.mk.inj (fails.symm.trans (perform_read_of_exhausted names waits))).2
      | cons value rest => cases fails.symm.trans (perform_read_of_waiting names waits)

/-- An operation on the public channel and one on the private channel can be exchanged. -/
theorem perform_comm {publicOperation privateOperation : Operation} (q : Queue)
    (onPublic : publicOperation.channel? = some .publicInput)
    (onPrivate : privateOperation.channel? = some .privateInput) :
    (publicOperation.perform (privateOperation.perform q).2).2 =
        (privateOperation.perform (publicOperation.perform q).2).2 ∧
      (publicOperation.perform (privateOperation.perform q).2).1 =
        (publicOperation.perform q).1 ∧
      (privateOperation.perform (publicOperation.perform q).2).1 =
        (privateOperation.perform q).1 := by
  simp only [perform_eq_onLane onPublic, perform_eq_onLane onPrivate]
  exact ⟨rfl, rfl, rfl⟩

end Operation

/-! ## Any number of operations -/

/-- On every channel, the values that were drawn and then those that wait are the history of the
channel, and the draws have been counted. -/
structure Accounts (history : Channel → List UInt64) (w : Watched Queue InputError) : Prop where
  conserved (channel : Channel) :
    history channel = w.drawn channel ++ (w.state.lane channel).waiting
  counted (channel : Channel) : (w.state.lane channel).drawn = (w.drawn channel).length

variable {history : Channel → List UInt64} {w : Watched Queue InputError}

/-- Watching changes neither what an operation comes to nor the queue it leaves. -/
theorem perform_watched (operation : Operation) (w : Watched Queue InputError) :
    (operation.perform w).1 = (operation.perform w.state).1 ∧
      (operation.perform w).2.state = (operation.perform w.state).2 := by
  cases operation with
  | push channel value => exact ⟨rfl, rfl⟩
  | read access reading =>
    rcases reading.agree_draw Watched.agree w.state w rfl with ⟨outcome_eq, after⟩
    rw [Operation.perform_read, Operation.perform_read]
    exact ⟨congrArg some outcome_eq.symm, after⟩

theorem performAll_watched (operations : List Operation) (w : Watched Queue InputError) :
    (Operation.performAll operations w).1 = (Operation.performAll operations w.state).1 ∧
      (Operation.performAll operations w).2.state =
        (Operation.performAll operations w.state).2 := by
  induction operations generalizing w with
  | nil => exact ⟨rfl, rfl⟩
  | cons operation operations ih =>
    rcases perform_watched operation w with ⟨outcome_eq, state_eq⟩
    rcases ih (operation.perform w).2 with ⟨outcomes_eq, last_eq⟩
    rw [state_eq] at outcomes_eq last_eq
    refine ⟨?_, last_eq⟩
    simp only [Operation.performAll, outcome_eq, outcomes_eq]

/-- A reading adds one attempt, on the channel that it names. -/
theorem perform_read_watched {reading : Reading} {channel : Channel}
    (names : reading.channel? = some channel) (access : Access) (w : Watched Queue InputError) :
    ((Operation.read access reading).perform w).2 =
      ⟨((Source.next channel : Draw Queue InputError UInt64).run.run w.state).2,
        w.attempts ++
          [⟨channel,
            ((Source.next channel : Draw Queue InputError UInt64).run.run w.state).1⟩]⟩ := by
  rw [Operation.perform_read, Reading.run_draw_of_channel names, Watched.run_next]

theorem Accounts.push (accounts : Accounts history w) (channel : Channel) (value : UInt64) :
    Accounts (fun c => history c ++ (Operation.push channel value).pushed c)
      ((Operation.push channel value).perform w).2 := by
  have lane (c : Channel) : (((Operation.push channel value).perform w).2.state.lane c) =
      if c = channel then (w.state.lane channel).append [value] else w.state.lane c :=
    lane_setLane ..
  refine ⟨fun c => ?_, fun c => ?_⟩
  · rw [lane, Operation.pushed]
    by_cases same : c = channel
    · subst same
      rw [if_pos rfl, if_pos rfl, accounts.conserved, List.append_assoc]
      rfl
    · rw [if_neg same, if_neg fun other => same other.symm, List.append_nil]
      exact accounts.conserved c
  · rw [lane]
    by_cases same : c = channel
    · subst same
      rw [if_pos rfl]
      exact accounts.counted c
    · rw [if_neg same]
      exact accounts.counted c

/-- An attempt that failed is not a value that was drawn. -/
theorem Accounts.attempt_error (accounts : Accounts history w) (channel : Channel)
    (e : InputError) : Accounts history ⟨w.state, w.attempts ++ [⟨channel, .error e⟩]⟩ := by
  have drawn (c : Channel) : (Watched.mk w.state (w.attempts ++ [⟨channel, .error e⟩])).drawn c =
      w.drawn c := by
    rw [Watched.drawn_attempt w]
    simp [Except.toOption]
  refine ⟨fun c => ?_, fun c => ?_⟩
  · rw [drawn]
    exact accounts.conserved c
  · rw [drawn]
    exact accounts.counted c

/-- A value that is drawn goes from the front of those that wait to the end of those drawn. -/
theorem Accounts.attempt_ok {channel : Channel} {value : UInt64} {rest : List UInt64}
    (accounts : Accounts history w) (waits : (w.state.lane channel).waiting = value :: rest) :
    Accounts history
      ⟨w.state.setLane channel ⟨rest, (w.state.lane channel).drawn + 1⟩,
        w.attempts ++ [⟨channel, .ok value⟩]⟩ := by
  refine ⟨fun c => ?_, fun c => ?_⟩
  · rw [Watched.drawn_attempt w, lane_setLane, accounts.conserved c]
    by_cases same : c = channel
    · subst same
      simp [Except.toOption, waits]
    · rw [if_neg same, if_neg fun other => same other.symm, List.append_nil]
  · rw [Watched.drawn_attempt w, lane_setLane]
    by_cases same : c = channel
    · subst same
      simp [Except.toOption, accounts.counted c]
    · rw [if_neg same, if_neg fun other => same other.symm, List.append_nil]
      exact accounts.counted c

theorem Accounts.read (accounts : Accounts history w) (access : Access) (reading : Reading) :
    Accounts (fun c => history c ++ (Operation.read access reading).pushed c)
      ((Operation.read access reading).perform w).2 := by
  have nothing (c : Channel) : history c ++ (Operation.read access reading).pushed c =
      history c := List.append_nil _
  simp only [nothing]
  cases names : reading.channel? with
  | none =>
    rcases Reading.run_draw_of_none names w with ⟨flag, -, fails⟩
    rw [Operation.perform_read, fails]
    exact accounts
  | some channel =>
    rw [perform_read_watched names]
    cases waits : (w.state.lane channel).waiting with
    | nil =>
      rw [next_of_exhausted waits]
      exact accounts.attempt_error channel (.exhausted channel)
    | cons value rest =>
      rw [next_of_waiting waits]
      exact accounts.attempt_ok waits

/-- One operation adds to the history what it pushes. -/
theorem Accounts.perform (accounts : Accounts history w) (operation : Operation) :
    Accounts (fun c => history c ++ operation.pushed c) (operation.perform w).2 := by
  cases operation with
  | push channel value => exact accounts.push channel value
  | read access reading => exact accounts.read access reading

theorem Accounts.performAll (accounts : Accounts history w) (operations : List Operation) :
    Accounts (fun c => history c ++ operations.flatMap (Operation.pushed c))
      (Operation.performAll operations w).2 := by
  induction operations generalizing history w with
  | nil =>
    simp only [List.flatMap_nil, List.append_nil]
    exact accounts
  | cons operation operations ih =>
    simp only [List.flatMap_cons, ← List.append_assoc]
    exact ih (accounts.perform operation)

/-! ## From the beginning -/

namespace Start

variable (start : Start) (operations : List Operation) (channel : Channel)

theorem accounts : Accounts start.values ⟨start.queue, []⟩ where
  conserved channel := by
    cases start <;> cases channel <;> rfl
  counted channel := by
    cases start <;> cases channel <;> rfl

theorem state_watched : (start.watched operations).state = start.after operations :=
  (performAll_watched operations ⟨start.queue, []⟩).2

/-- The history of a channel is what was drawn from it, as often as it counts, and what waits. -/
theorem history_eq :
    start.history operations channel =
        (start.watched operations).drawn channel ++
          ((start.after operations).lane channel).waiting ∧
      (start.after operations).consumed channel =
        ((start.watched operations).drawn channel).length := by
  have kept := start.accounts.performAll operations
  rw [← state_watched]
  exact ⟨kept.conserved channel, kept.counted channel⟩

theorem drawn_eq_take :
    (start.watched operations).drawn channel =
      (start.history operations channel).take ((start.after operations).consumed channel) := by
  rcases start.history_eq operations channel with ⟨split, counted⟩
  rw [split, counted, List.take_left]

theorem waiting_eq_drop :
    ((start.after operations).lane channel).waiting =
      (start.history operations channel).drop ((start.after operations).consumed channel) := by
  rcases start.history_eq operations channel with ⟨split, counted⟩
  rw [split, counted, List.drop_left]

theorem consumed_add_remaining :
    (start.after operations).consumed channel + (start.after operations).remaining channel =
      (start.history operations channel).length := by
  rcases start.history_eq operations channel with ⟨split, counted⟩
  rw [split, counted, List.length_append, remaining]

end Start

/-- After any operations, on each channel the values that were drawn are the first of its history,
as many as the queue counts, and the others wait; watching shows this, and does not change what the
operations come to. The next reading replies with the value of the history that comes next, and
fails if there is none. A number selects the channel whose flag it is: 1 reads as the public channel
does and 0 as the private one, and any other number fails. On any queue, what fails changes nothing,
what is on one channel leaves the other as it was, and what is on different channels can be
exchanged. -/
theorem operations_follow_histories (start : Start) (operations : List Operation) :
    (∀ channel : Channel,
        (start.watched operations).drawn channel =
            (start.history operations channel).take
              ((start.after operations).consumed channel) ∧
          (start.after operations).consumed channel +
              (start.after operations).remaining channel =
            (start.history operations channel).length) ∧
      (Operation.performAll operations (⟨start.queue, []⟩ : Watched Queue InputError)).1 =
        (Operation.performAll operations start.queue).1 ∧
      (start.watched operations).state = start.after operations ∧
      (∀ (access : Access) (reading : Reading) (channel : Channel),
        reading.channel? = some channel →
          (∀ value, (start.history operations channel)[(start.after operations).consumed channel]? =
              some value →
            ((Operation.read access reading).perform (start.after operations)).1 =
              some (.ok (reading.reply value))) ∧
          ((start.after operations).remaining channel = 0 →
            (Operation.read access reading).perform (start.after operations) =
              (some (.error (.exhausted channel)), start.after operations))) ∧
      (∀ (flag : Int32) (channel : Channel),
        (Reading.nextByFlag flag).channel? = some channel ↔ flag = channel.flag) ∧
      (∀ (access : Access) (q : Queue),
        (Operation.read access (.nextByFlag 1)).perform q =
            (Operation.read access .nextPublic).perform q ∧
          (Operation.read access (.nextByFlag 0)).perform q =
            (Operation.read access .nextPrivate).perform q) ∧
      (∀ (access : Access) (flag : Int32) (q : Queue), flag ≠ 0 → flag ≠ 1 →
        (Operation.read access (.nextByFlag flag)).perform q =
          (some (.error (.unknownFlag flag)), q)) ∧
      (∀ (operation : Operation) (e : InputError) (q after : Queue),
        operation.perform q = (some (.error e), after) → after = q) ∧
      (∀ (operation : Operation) (channel : Channel) (q : Queue),
        operation.channel? ≠ some channel →
          (operation.perform q).2.lane channel = q.lane channel) ∧
      ∀ (publicOperation privateOperation : Operation) (q : Queue),
        publicOperation.channel? = some .publicInput →
        privateOperation.channel? = some .privateInput →
          (publicOperation.perform (privateOperation.perform q).2).2 =
              (privateOperation.perform (publicOperation.perform q).2).2 ∧
            (publicOperation.perform (privateOperation.perform q).2).1 =
              (publicOperation.perform q).1 ∧
            (privateOperation.perform (publicOperation.perform q).2).1 =
              (privateOperation.perform q).1 := by
  refine ⟨fun channel => ⟨start.drawn_eq_take .., start.consumed_add_remaining ..⟩,
    (performAll_watched operations ⟨start.queue, []⟩).1, start.state_watched operations, ?_,
    fun flag channel => Reading.channel?_nextByFlag, fun access q => ⟨?_, ?_⟩,
    fun access flag q notPrivate notPublic =>
      Operation.perform_read_of_flag notPrivate notPublic access q,
    fun operation e q after fails => Operation.eq_of_perform_error fails,
    fun operation channel q other => Operation.lane_perform_of_ne other,
    fun publicOperation privateOperation q onPublic onPrivate =>
      Operation.perform_comm q onPublic onPrivate⟩
  · intro access reading channel names
    have waiting := start.waiting_eq_drop operations channel
    constructor
    · intro value comes
      rw [← List.head?_drop, ← waiting] at comes
      rcases List.head?_eq_some_iff.mp comes with ⟨rest, waits⟩
      rw [Operation.perform_read_of_waiting names waits]
    · intro empty
      exact Operation.perform_read_of_exhausted names (List.length_eq_zero_iff.mp empty)
  · have names : (Reading.nextByFlag 1).channel? = some .publicInput :=
      Reading.channel?_nextByFlag.mpr rfl
    exact Operation.perform_read_eq names rfl rfl access q
  · have names : (Reading.nextByFlag 0).channel? = some .privateInput :=
      Reading.channel?_nextByFlag.mpr rfl
    exact Operation.perform_read_eq names rfl rfl access q

/-- A queue of two public values, after readings of every kind and a push: a search is for the value
that was pushed, which flag 1 reads as well, and nothing is private, as flag 0 shows. -/
theorem operations_follow_histories_mixed :
    ∃ (m : Image) (q : Queue), m.table.values = #[2, 4, 6] ∧
      q = Start.after (.ofPublic [6, 9])
        [.read .direct .nextPublic, .push .publicInput 4, .read .lent (.nextByFlag 7),
          .read .dynamic .nextPrivate, .read .lent (.next .publicInput)] ∧
      ((Operation.read .dynamic (.search m)).perform q).1 = some (.ok (.position 1)) ∧
      ((Operation.read .lent (.nextByFlag 1)).perform q).1 = some (.ok (.value 4)) ∧
      (Operation.read .lent .nextPrivate).perform q =
        (some (.error (.exhausted .privateInput)), q) ∧
      (Operation.read .lent (.nextByFlag 0)).perform q =
        (some (.error (.exhausted .privateInput)), q) ∧
      (Operation.read .direct (.nextByFlag 7)).perform q =
        (some (.error (.unknownFlag 7)), q) := by
  let t : Table := ⟨#[2, 4, 6], by decide, by decide, by decide⟩
  let m : Image := ⟨⟨2, 3⟩, t, by decide, by decide⟩
  rcases operations_follow_histories (.ofPublic [6, 9])
      [.read .direct .nextPublic, .push .publicInput 4, .read .lent (.nextByFlag 7),
        .read .dynamic .nextPrivate, .read .lent (.next .publicInput)] with
    ⟨-, -, -, readings, -, selected, flags, -⟩
  have position : scan [2, 4, 6] 3 4 = 1 := by decide
  have found : m.answer 4 = 1 := (m.answer_eq_scan 4).trans position
  have privately := (readings .lent .nextPrivate .privateInput rfl).2 rfl
  refine ⟨m, _, rfl, rfl, ?_, (readings .lent (.nextByFlag 1) .publicInput rfl).1 4 rfl, privately,
    (selected .lent _).2.trans privately, flags .direct 7 _ (by decide) (by decide)⟩
  rw [← found]
  exact (readings .dynamic (.search m) .publicInput rfl).1 4 rfl

end Queue

end TableSearch
