/-!
# Input channels

A host supplies values on two channels, and names a channel by a number. The main statement,
`Channel.ofFlag?_eq_some_iff`, says that a number names a channel exactly when it is that
channel's own flag, so no third number is accepted and no two channels share one.
-/

namespace TableSearch

/-- The channel that a supplied value comes from. -/
inductive Channel where
  /-- Values known only to the party that supplies them. -/
  | privateInput
  /-- Values known to every observer of the computation. -/
  | publicInput
  deriving DecidableEq

namespace Channel

/-- The number by which a host selects the channel. -/
def flag : Channel → Int32
  | publicInput => 1
  | privateInput => 0

/-- The channel that a number selects, if it selects one. -/
def ofFlag? (flag : Int32) : Option Channel :=
  if flag = 1 then some publicInput else if flag = 0 then some privateInput else none

/-- The word for the channel in messages and in stored data. -/
def name : Channel → String
  | privateInput => "private"
  | publicInput => "public"

@[simp] theorem ofFlag?_flag (c : Channel) : ofFlag? c.flag = some c := by
  cases c <;> rfl

/-- A number selects a channel exactly when it is the channel's flag. -/
theorem ofFlag?_eq_some_iff {flag : Int32} {c : Channel} :
    ofFlag? flag = some c ↔ flag = c.flag := by
  constructor
  · intro h
    unfold ofFlag? at h
    split at h
    · next one => cases h; exact one
    · split at h
      · next zero => cases h; exact zero
      · cases h
  · rintro rfl
    exact ofFlag?_flag c

end Channel

end TableSearch
