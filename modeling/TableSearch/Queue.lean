import TableSearch.Source

/-!
# Queued input

A queue holds the values that a host has supplied in advance: for each channel those that still
wait, in the order in which they came, and the number of those already drawn. The two channels
are separate lanes, so that no operation on one can touch the other. A draw from an empty lane
fails and changes nothing.
-/

namespace TableSearch

/-- The values of one channel. -/
structure Lane where
  /-- The values that wait, the next one first. -/
  waiting : List UInt64 := []
  /-- How many values have been drawn. -/
  drawn : Nat := 0
  deriving DecidableEq

/-- Puts values behind those that wait. -/
def Lane.append (lane : Lane) (values : List UInt64) : Lane :=
  { lane with waiting := lane.waiting ++ values }

/-- Takes the next value out of the lane. -/
def Lane.draw? (lane : Lane) : Option (UInt64 × Lane) :=
  match lane.waiting with
  | [] => none
  | value :: rest => some (value, ⟨rest, lane.drawn + 1⟩)

/-- Supplied input, one lane for each channel. -/
structure Queue where
  publicLane : Lane := {}
  privateLane : Lane := {}
  deriving DecidableEq

namespace Queue

/-- A queue from which nothing has been drawn. -/
def ofLists (publicValues privateValues : List UInt64) : Queue :=
  ⟨{ waiting := publicValues }, { waiting := privateValues }⟩

/-- A queue of public values alone. -/
def ofPublic (publicValues : List UInt64) : Queue := ofLists publicValues []

/-- The lane of a channel. -/
def lane (q : Queue) : Channel → Lane
  | .publicInput => q.publicLane
  | .privateInput => q.privateLane

/-- Replaces the lane of a channel. -/
def setLane (q : Queue) (channel : Channel) (lane : Lane) : Queue :=
  match channel with
  | .publicInput => { q with publicLane := lane }
  | .privateInput => { q with privateLane := lane }

/-- Puts values behind those that wait on a channel. -/
def append (q : Queue) (channel : Channel) (values : List UInt64) : Queue :=
  q.setLane channel ((q.lane channel).append values)

/-- Puts one value behind those that wait on a channel. -/
def push (q : Queue) (channel : Channel) (value : UInt64) : Queue := q.append channel [value]

/-- How many values wait on a channel. -/
def remaining (q : Queue) (channel : Channel) : Nat := (q.lane channel).waiting.length

/-- How many values of a channel have been drawn. -/
def consumed (q : Queue) (channel : Channel) : Nat := (q.lane channel).drawn

/-- Draws the next value of a channel. -/
def draw (channel : Channel) : Draw Queue InputError UInt64 := fun q =>
  match (q.lane channel).draw? with
  | some (value, lane) => (.ok value, q.setLane channel lane)
  | none => (.error (.exhausted channel), q)

instance : Source Queue InputError where
  nextPublic := draw .publicInput
  nextPrivate := draw .privateInput

@[simp] theorem lane_setLane (q : Queue) (c d : Channel) (lane : Lane) :
    (q.setLane c lane).lane d = if d = c then lane else q.lane d := by
  cases c <;> cases d <;> rfl

@[simp] theorem setLane_lane (q : Queue) (c : Channel) : q.setLane c (q.lane c) = q := by
  cases c <;> rfl

theorem next_eq_draw (c : Channel) : (Source.next c : Draw Queue InputError UInt64) = draw c := by
  cases c <;> rfl

variable {q : Queue} {c : Channel} {value : UInt64} {rest : List UInt64}

/-- A draw takes away the first value that waits on its channel. -/
theorem next_of_waiting (waits : (q.lane c).waiting = value :: rest) :
    (Source.next c : Draw Queue InputError UInt64).run.run q =
      (.ok value, q.setLane c ⟨rest, (q.lane c).drawn + 1⟩) := by
  have drawn : (q.lane c).draw? = some (value, ⟨rest, (q.lane c).drawn + 1⟩) := by
    rw [Lane.draw?, waits]
  rw [next_eq_draw]
  change draw c q = _
  rw [draw, drawn]

/-- Where nothing waits on its channel, a draw fails and changes nothing. -/
theorem next_of_exhausted (waits : (q.lane c).waiting = []) :
    (Source.next c : Draw Queue InputError UInt64).run.run q = (.error (.exhausted c), q) := by
  have drawn : (q.lane c).draw? = none := by
    rw [Lane.draw?, waits]
  rw [next_eq_draw]
  change draw c q = _
  rw [draw, drawn]

end Queue

end TableSearch
