import TableSearch.Proofs.Scan

/-!
# Searches of any source

All that a search knows of its source are the two draws. Where the draws from related states agree,
so do the searches: `Draw.Agree` is kept by the steps of which a search consists. In particular a
source can be watched, which adds a list of the draws that were attempted and changes nothing else.

Both searches are one search before different observers, of which one keeps nothing and the other
every probe. So they draw once, from the public channel; if that draw fails they fail like it and
no observer is shown a probe, and otherwise they close on the same position and leave the source in
the same state.
-/

namespace TableSearch

variable {σ τ ε α β : Type}

/-! ## Related sources -/

/-- From related states the draws come to the same, and leave related states. -/
def Draw.Agree (R : σ → τ → Prop) (draw : Draw σ ε α) (other : Draw τ ε α) : Prop :=
  ∀ s t, R s t → (draw.run.run s).1 = (other.run.run t).1 ∧
    R (draw.run.run s).2 (other.run.run t).2

/-- Both draws of a source agree with those of another one. -/
structure Source.Agree [Source σ ε] [Source τ ε] (R : σ → τ → Prop) : Prop where
  nextPublic : Draw.Agree R (Source.nextPublic : Draw σ ε UInt64) Source.nextPublic
  nextPrivate : Draw.Agree R (Source.nextPrivate : Draw σ ε UInt64) Source.nextPrivate

variable {R : σ → τ → Prop}

namespace Draw

theorem Agree.pure (a : α) :
    Agree R (Pure.pure a : Draw σ ε α) (Pure.pure a : Draw τ ε α) :=
  fun _ _ related => ⟨rfl, related⟩

theorem Agree.throw (e : ε) :
    Agree R (MonadExcept.throw e : Draw σ ε α) (MonadExcept.throw e : Draw τ ε α) :=
  fun _ _ related => ⟨rfl, related⟩

theorem Agree.bind {draw : Draw σ ε α} {other : Draw τ ε α} (agree : Agree R draw other)
    {next : α → Draw σ ε β} {otherNext : α → Draw τ ε β}
    (agreeNext : ∀ a, Agree R (next a) (otherNext a)) :
    Agree R (draw >>= next) (other >>= otherNext) := by
  intro s t related
  rcases agree s t related with ⟨outcome_eq, after⟩
  simp only [ExceptT.run_bind, StateT.run_bind]
  generalize draw.run.run s = drawn, other.run.run t = otherDrawn at outcome_eq after ⊢
  rcases drawn with ⟨outcome, s'⟩
  rcases otherDrawn with ⟨otherOutcome, t'⟩
  simp only at outcome_eq after
  subst outcome_eq
  cases outcome with
  | error e => exact ⟨rfl, after⟩
  | ok a => exact agreeNext a s' t' after

/-- What is made of a drawn value leaves the state as the draw left it. -/
theorem run_bind_pure (draw : Draw σ ε α) (f : α → β) (s : σ) :
    (draw >>= fun a => Pure.pure (f a)).run.run s =
      ((draw.run.run s).1.map f, (draw.run.run s).2) := by
  simp only [ExceptT.run_bind, StateT.run_bind]
  generalize draw.run.run s = drawn
  rcases drawn with ⟨outcome, after⟩
  cases outcome with
  | error e => rfl
  | ok a => rfl

end Draw

namespace Source

variable [Source σ ε] [Source τ ε]

theorem Agree.next (agree : Source.Agree R) (channel : Channel) :
    Draw.Agree R (Source.next channel : Draw σ ε UInt64) (Source.next channel) := by
  cases channel with
  | publicInput => exact agree.nextPublic
  | privateInput => exact agree.nextPrivate

theorem Agree.nextByFlag [Source σ InputError] [Source τ InputError] (agree : Source.Agree R)
    (flag : Int32) :
    Draw.Agree R (Source.nextByFlag flag : Draw σ InputError UInt64) (Source.nextByFlag flag) := by
  rw [Source.nextByFlag, Source.nextByFlag]
  cases Channel.ofFlag? flag with
  | none => exact .throw _
  | some channel => exact agree.next channel

theorem Agree.search (agree : Source.Agree R) (m : Image) :
    Draw.Agree R (m.search : Draw σ ε UInt32) m.search :=
  (agree.next .publicInput).bind fun target => .pure (m.answer target)

theorem Agree.searchRecorded (agree : Source.Agree R) (m : Image) :
    Draw.Agree R (m.searchRecorded : Draw σ ε Run) m.searchRecorded :=
  (agree.next .publicInput).bind fun target => .pure (m.run target)

end Source

/-- What is lent is read as its owner would be. -/
theorem Lent.agree [Source σ ε] :
    Source.Agree fun (s : σ) (lent : Lent σ) => lent.owner = s where
  nextPublic := by
    intro s lent same
    subst same
    exact ⟨rfl, rfl⟩
  nextPrivate := by
    intro s lent same
    subst same
    exact ⟨rfl, rfl⟩

/-- A source that carries its own actions is read as if they were those of its type. -/
theorem Dynamic.agree [actions : Source σ ε] :
    Source.Agree fun (s : σ) (d : Dynamic σ ε) => d = ⟨actions, s⟩ where
  nextPublic := by
    intro s d same
    subst same
    exact ⟨rfl, rfl⟩
  nextPrivate := by
    intro s d same
    subst same
    exact ⟨rfl, rfl⟩

/-! ## Watched sources -/

/-- A draw that was attempted, and what it came to. -/
structure Attempt (ε : Type) where
  channel : Channel
  outcome : Except ε UInt64

/-- A source together with the draws that were attempted, in order. -/
structure Watched (σ ε : Type) where
  state : σ
  attempts : List (Attempt ε)

namespace Watched

/-- Draws from the source and notes what the draw came to. -/
def note (channel : Channel) (draw : Draw σ ε UInt64) : Draw (Watched σ ε) ε UInt64 := fun w =>
  let (outcome, after) := draw w.state
  (outcome, ⟨after, w.attempts ++ [⟨channel, outcome⟩]⟩)

instance [Source σ ε] : Source (Watched σ ε) ε where
  nextPublic := note .publicInput Source.nextPublic
  nextPrivate := note .privateInput Source.nextPrivate

/-- The values that were drawn from a channel, in order. -/
def drawn (w : Watched σ ε) (channel : Channel) : List UInt64 :=
  w.attempts.filterMap fun attempt =>
    if attempt.channel = channel then attempt.outcome.toOption else none

theorem drawn_attempt (w : Watched σ ε) (state : σ) (attempt : Attempt ε) (channel : Channel) :
    (Watched.mk state (w.attempts ++ [attempt])).drawn channel =
      w.drawn channel ++
        if attempt.channel = channel then attempt.outcome.toOption.toList else [] := by
  rw [drawn, drawn, List.filterMap_append, List.filterMap_cons]
  by_cases same : attempt.channel = channel
  · rw [if_pos same, if_pos same]
    cases attempt.outcome.toOption <;> rfl
  · rw [if_neg same, if_neg same]
    rfl

variable [Source σ ε]

theorem run_next (w : Watched σ ε) (channel : Channel) :
    (Source.next channel : Draw (Watched σ ε) ε UInt64).run.run w =
      (((Source.next channel : Draw σ ε UInt64).run.run w.state).1,
        ⟨((Source.next channel : Draw σ ε UInt64).run.run w.state).2,
          w.attempts ++
            [⟨channel, ((Source.next channel : Draw σ ε UInt64).run.run w.state).1⟩]⟩) := by
  cases channel with
  | publicInput => rfl
  | privateInput => rfl

/-- Watching a source changes nothing in it. -/
theorem agree : Source.Agree fun (s : σ) (w : Watched σ ε) => w.state = s where
  nextPublic := by
    intro s w same
    subst same
    exact ⟨rfl, rfl⟩
  nextPrivate := by
    intro s w same
    subst same
    exact ⟨rfl, rfl⟩

end Watched

/-! ## Searches before an observer -/

/-- Every observer is shown the probes that the recorded descent keeps. -/
theorem Window.exists_shown {t : Table} (w : Window t) (target : UInt64) (kept : List Probe) :
    ∃ probes, (w.converge target (fun seen probe => seen ++ [probe]) kept).2 = kept ++ probes ∧
      ∀ (τ : Type) (observe : τ → Probe → τ) (seen : τ),
        (w.converge target observe seen).2 = probes.foldl observe seen := by
  fun_induction Window.converge target (fun seen probe => seen ++ [probe]) w kept with
  | case1 w kept closed =>
    refine ⟨[], (List.append_nil kept).symm, fun τ observe seen => ?_⟩
    rw [Window.converge, dif_pos closed]
    rfl
  | case2 w kept opened ih =>
    rcases ih with ⟨probes, recorded, shown⟩
    refine ⟨w.probe target opened :: probes, ?_, fun τ observe seen => ?_⟩
    · rw [recorded, List.append_assoc, List.singleton_append]
    · rw [Window.converge, dif_neg opened, shown]
      rfl

namespace Image

/-- Draws one public value, and searches for it before an observer who is shown each probe. It comes
to the value and the position on which the search for it closed. -/
def searchShown [Source σ ε] (m : Image) (observe : τ → Probe → τ) :
    Draw (σ × τ) ε (UInt64 × UInt32) := fun (before, seen) =>
  match (Source.next .publicInput : Draw σ ε UInt64) before with
  | (.error e, after) => (.error e, after, seen)
  | (.ok target, after) =>
    let (low, shown) :=
      (Window.before m.table m.right m.right_le_size).converge target observe seen
    (.ok (target, low), after, shown)

/-- The result for a value and the position on which the search for it closed. -/
def resultAt (m : Image) (closed : UInt64 × UInt32) : UInt32 :=
  m.table.settle m.failed closed.2 closed.1

/-- The record for a value and the position on which the search for it closed, with its probes. -/
def recordAt (m : Image) (probes : List Probe) (closed : UInt64 × UInt32) : Run :=
  ⟨closed.1, m.resultAt closed, m.resultAt closed ≠ m.failed, probes⟩

variable [Source σ ε] (m : Image) (observe : τ → Probe → τ) {before after : σ} {seen : τ}
  {e : ε} {target : UInt64}

/-- An observer is shown the probes of the recorded search. -/
theorem converge_eq (target : UInt64) (seen : τ) :
    (Window.before m.table m.right m.right_le_size).converge target observe seen =
      (m.lowerBound target, (m.run target).probes.foldl observe seen) := by
  rcases (Window.before m.table m.right m.right_le_size).exists_shown target [] with
    ⟨probes, recorded, shown⟩
  have same : (m.run target).probes = probes := recorded
  have closes : ((Window.before m.table m.right m.right_le_size).converge target observe seen).1 =
      m.lowerBound target := Window.converge_fst_eq _ _ _ _ _
  exact Prod.ext closes ((shown τ observe seen).trans (congrArg _ same.symm))

theorem run_eq_recordAt (target : UInt64) :
    m.run target = m.recordAt (m.run target).probes (target, m.lowerBound target) := by
  have result : (m.run target).result = m.resultAt (target, m.lowerBound target) :=
    m.run_result target
  have found : (m.run target).found = decide ((m.run target).result ≠ m.failed) := rfl
  rw [recordAt, ← result, ← found]
  rfl

/-- A search draws once, and goes on with what the draw came to. -/
theorem run_search (before : σ) :
    m.search.run.run before =
      (((Source.next .publicInput : Draw σ ε UInt64).run.run before).1.map m.answer,
        ((Source.next .publicInput : Draw σ ε UInt64).run.run before).2) :=
  Draw.run_bind_pure _ m.answer before

theorem run_searchRecorded (before : σ) :
    m.searchRecorded.run.run before =
      (((Source.next .publicInput : Draw σ ε UInt64).run.run before).1.map m.run,
        ((Source.next .publicInput : Draw σ ε UInt64).run.run before).2) :=
  Draw.run_bind_pure _ m.run before

/-- Where the draw fails, nobody is shown a probe. -/
theorem searchShown_of_error
    (failed : (Source.nextPublic : Draw σ ε UInt64).run.run before = (.error e, after)) :
    (m.searchShown observe).run.run (before, seen) = (.error e, after, seen) := by
  change m.searchShown observe (before, seen) = _
  have drawn : (Source.next .publicInput : Draw σ ε UInt64) before = (.error e, after) := failed
  simp only [searchShown, drawn]

theorem searchShown_of_draw
    (drawn : (Source.nextPublic : Draw σ ε UInt64).run.run before = (.ok target, after)) :
    (m.searchShown observe).run.run (before, seen) =
      (.ok (target, m.lowerBound target), after, (m.run target).probes.foldl observe seen) := by
  change m.searchShown observe (before, seen) = _
  have next : (Source.next .publicInput : Draw σ ε UInt64) before = (.ok target, after) := drawn
  simp only [searchShown, next, converge_eq]

/-- The plain search is the one before an observer who keeps nothing, and the recorded search the
one before an observer who keeps every probe. -/
theorem searches_shown (before : σ) :
    m.search.run.run before =
        (((m.searchShown fun (_ : Unit) _ => ()).run.run (before, ())).1.map m.resultAt,
          ((m.searchShown fun (_ : Unit) _ => ()).run.run (before, ())).2.1) ∧
      m.searchRecorded.run.run before =
        (((m.searchShown fun kept probe => kept ++ [probe]).run.run (before, [])).1.map
            (m.recordAt
              ((m.searchShown fun kept probe => kept ++ [probe]).run.run (before, [])).2.2),
          ((m.searchShown fun kept probe => kept ++ [probe]).run.run (before, [])).2.1) := by
  rw [run_search, run_searchRecorded]
  cases drawn : (Source.next .publicInput : Draw σ ε UInt64).run.run before with
  | mk outcome after =>
    cases outcome with
    | error e =>
      rw [m.searchShown_of_error _ drawn, m.searchShown_of_error _ drawn]
      exact ⟨rfl, rfl⟩
    | ok target =>
      have recorded : (m.run target).probes.foldl (fun kept probe => kept ++ [probe]) [] =
          (m.run target).probes := by
        rw [List.foldl_append_eq_append, ← List.flatMap_def, List.flatMap_singleton',
          List.nil_append]
      rw [m.searchShown_of_draw _ drawn, m.searchShown_of_draw _ drawn]
      simp only [Except.map, recorded, ← m.run_eq_recordAt target]
      exact ⟨rfl, trivial⟩

/-- On any source, and from any state of it, both searches make one draw, from the public channel.
If it fails, they fail with its error, and no observer is shown a probe. If it yields a target,
both come to the result for the position on which the search for the target closes, which the
recorded search reports with the target and the probes that an observer is shown. Either way both
leave the source as the draw left it. They are one search, before an observer who keeps nothing and
before one who keeps every probe. -/
theorem searches_agree (before : σ) :
    (∀ attempts : List (Attempt ε), ∃ outcome after,
        (Source.nextPublic : Draw σ ε UInt64).run.run before = (outcome, after) ∧
        (m.search : Draw (Watched σ ε) ε UInt32).run.run ⟨before, attempts⟩ =
          (outcome.map m.answer, ⟨after, attempts ++ [⟨.publicInput, outcome⟩]⟩) ∧
        (m.searchRecorded : Draw (Watched σ ε) ε Run).run.run ⟨before, attempts⟩ =
          (outcome.map m.run, ⟨after, attempts ++ [⟨.publicInput, outcome⟩]⟩)) ∧
      (∀ (e : ε) (after : σ),
        (Source.nextPublic : Draw σ ε UInt64).run.run before = (.error e, after) →
          m.search.run.run before = (.error e, after) ∧
          m.searchRecorded.run.run before = (.error e, after) ∧
          ∀ (τ : Type) (observe : τ → Probe → τ) (seen : τ),
            (m.searchShown observe).run.run (before, seen) = (.error e, after, seen)) ∧
      (∀ (target : UInt64) (after : σ),
        (Source.nextPublic : Draw σ ε UInt64).run.run before = (.ok target, after) →
          ∃ run, m.search.run.run before = (.ok run.result, after) ∧
            m.searchRecorded.run.run before = (.ok run, after) ∧
            run.target = target ∧ run.result = m.resultAt (target, m.lowerBound target) ∧
            ∀ (τ : Type) (observe : τ → Probe → τ) (seen : τ),
              (m.searchShown observe).run.run (before, seen) =
                (.ok (target, m.lowerBound target), after, run.probes.foldl observe seen)) ∧
      m.search.run.run before =
        (((m.searchShown fun (_ : Unit) _ => ()).run.run (before, ())).1.map m.resultAt,
          ((m.searchShown fun (_ : Unit) _ => ()).run.run (before, ())).2.1) ∧
      m.searchRecorded.run.run before =
        (((m.searchShown fun kept probe => kept ++ [probe]).run.run (before, [])).1.map
            (m.recordAt
              ((m.searchShown fun kept probe => kept ++ [probe]).run.run (before, [])).2.2),
          ((m.searchShown fun kept probe => kept ++ [probe]).run.run (before, [])).2.1) := by
  refine ⟨?_, ?_, ?_, m.searches_shown before⟩
  · intro attempts
    refine ⟨_, _, rfl, ?_, ?_⟩
    · rw [run_search, Watched.run_next]
      rfl
    · rw [run_searchRecorded, Watched.run_next]
      rfl
  · intro e after failed
    have next : (Source.next .publicInput : Draw σ ε UInt64).run.run before =
        (.error e, after) := failed
    refine ⟨?_, ?_, fun τ observe seen => m.searchShown_of_error observe failed⟩
    · rw [run_search, next]
      rfl
    · rw [run_searchRecorded, next]
      rfl
  · intro target after drawn
    have result : (m.run target).result = m.answer target := m.run_result target
    refine ⟨m.run target, ?_, m.searchRecorded_of_draw drawn, rfl, result,
      fun τ observe seen => m.searchShown_of_draw observe drawn⟩
    rw [result]
    exact m.search_of_draw drawn

/-- A lent queue with one public value, and the same queue when that value is gone. -/
theorem searches_agree_lent_queue :
    ∃ m : Image, m.table.values = #[2, 4, 6] ∧
      (∃ run, m.search.run.run (Lent.mk (Queue.ofLists [4] [9])) =
          (.ok run.result, ⟨⟨⟨[], 1⟩, ⟨[9], 0⟩⟩⟩) ∧
        m.searchRecorded.run.run (Lent.mk (Queue.ofLists [4] [9])) =
          (.ok run, ⟨⟨⟨[], 1⟩, ⟨[9], 0⟩⟩⟩) ∧ run.target = 4) ∧
      m.search.run.run (Lent.mk (Queue.ofLists [] [9])) =
        (.error (.exhausted .publicInput), ⟨Queue.ofLists [] [9]⟩) := by
  let t : Table := ⟨#[2, 4, 6], by decide, by decide, by decide⟩
  let m : Image := ⟨⟨3, 4294967295⟩, t, by decide, by decide⟩
  rcases searches_agree m (Lent.mk (Queue.ofLists [4] [9])) with ⟨-, -, succeeds, -⟩
  rcases searches_agree m (Lent.mk (Queue.ofLists [] [9])) with ⟨-, fails, -⟩
  rcases succeeds 4 ⟨⟨⟨[], 1⟩, ⟨[9], 0⟩⟩⟩ rfl with ⟨run, plain, recorded, target, -⟩
  exact ⟨m, rfl, ⟨run, plain, recorded, target⟩, (fails _ _ rfl).1⟩

end Image

end TableSearch
