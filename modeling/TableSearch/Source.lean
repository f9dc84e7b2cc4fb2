import TableSearch.Channel
import TableSearch.Search

/-!
# Sources of input

A `Source` is any state from which the next public and the next private value can be drawn. A
draw may fail, and it leaves a state in either case. A source can be lent, or carry its own actions;
draws then go through to it. A search draws exactly one value, from the public channel, and computes
the rest.
-/

namespace TableSearch

/-- An action that draws on a source: it fails or yields a value, and leaves a state either
way. -/
abbrev Draw (σ ε α : Type) : Type := ExceptT ε (StateM σ) α

/-- States from which the next value of each channel can be drawn. -/
class Source (σ : Type) (ε : outParam Type) where
  /-- Draws the next public value. -/
  nextPublic : Draw σ ε UInt64
  /-- Draws the next private value. -/
  nextPrivate : Draw σ ε UInt64

/-- Why no value was drawn. -/
inductive InputError where
  /-- The number selects no channel. -/
  | unknownFlag (flag : Int32)
  /-- Every value of the channel has been drawn. -/
  | exhausted (channel : Channel)
  deriving DecidableEq

/-- The text that reports why no value was drawn. -/
def InputError.message : InputError → String
  | unknownFlag flag =>
    s!"Invalid input flag: {flag.toInt} (expected 1 = public, 0 = private)"
  | exhausted channel => s!"No {channel.name} input left"

namespace Source

variable {σ : Type}

/-- Draws the next value of a channel. -/
def next {ε : Type} [Source σ ε] : Channel → Draw σ ε UInt64
  | .publicInput => nextPublic
  | .privateInput => nextPrivate

/-- Draws the next value of the channel that a number selects. A number that selects none draws
nothing. -/
def nextByFlag [Source σ InputError] (flag : Int32) : Draw σ InputError UInt64 :=
  match Channel.ofFlag? flag with
  | some channel => next channel
  | none => throw (.unknownFlag flag)

end Source

/-! ## Sources behind others -/

/-- Draws from a part of a state, and leaves the rest of it as it was. -/
def Draw.within {σ τ ε α : Type} (part : τ → σ) (put : τ → σ → τ) (draw : Draw σ ε α) :
    Draw τ ε α := fun whole =>
  let (outcome, after) := draw (part whole)
  (outcome, put whole after)

/-- A source that its owner has lent. Every draw from it is one from the owner. -/
structure Lent (σ : Type) where
  owner : σ

instance {σ ε : Type} [Source σ ε] : Source (Lent σ) ε where
  nextPublic := Draw.within Lent.owner (fun _ owner => ⟨owner⟩) Source.nextPublic
  nextPrivate := Draw.within Lent.owner (fun _ owner => ⟨owner⟩) Source.nextPrivate

/-- A source that carries the actions which draw from it, where its type does not tell them. -/
structure Dynamic (σ ε : Type) where
  actions : Source σ ε
  state : σ

instance {σ ε : Type} : Source (Dynamic σ ε) ε where
  nextPublic := fun d =>
    Draw.within Dynamic.state (fun d after => { d with state := after }) d.actions.nextPublic d
  nextPrivate := fun d =>
    Draw.within Dynamic.state (fun d after => { d with state := after }) d.actions.nextPrivate d

namespace Image

variable {σ ε : Type}

/-- Draws one public value and searches the image for it. -/
def search [Source σ ε] (m : Image) : Draw σ ε UInt32 := do
  let target ← Source.next .publicInput
  return m.answer target

/-- Draws one public value, searches the image for it and records the search. -/
def searchRecorded [Source σ ε] (m : Image) : Draw σ ε Run := do
  let target ← Source.next .publicInput
  return m.run target

end Image

end TableSearch
