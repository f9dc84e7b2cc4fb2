import TableSearch.Proofs.Rank
import TableSearch.Proofs.Trace

/-!
# What recorded probes disclose

A probe goes right exactly if it looks at a position before the one on which the search closes
(`Image.wentRight_iff`). So the searches for two targets that close on the same position make the
same probes, whatever else tells the targets apart. Conversely the probes lead from the whole window
to the span that the last one leaves, and that span is the closing position. Two searches therefore
record the same probes if and only if they close on the same position.
-/

namespace TableSearch

variable {values : Array UInt64} {target other : UInt64} {s start last otherLast : Span} {p : Probe}
  {probes : List Probe}

/-! ## Chains for two targets -/

/-- Each probe of a chain inspects some span. -/
theorem Chain.exists_inspects (chain : Chain values target start probes last) :
    ∀ p ∈ probes, ∃ s, p.Inspects values target s := by
  induction chain with
  | nil => exact fun p mem => absurd mem List.not_mem_nil
  | cons inspects _ ih =>
    intro p mem
    rcases List.mem_cons.mp mem with rfl | later
    · exact ⟨_, inspects⟩
    · exact ih p later

/-- A probe is one for every target on the same side of its value. -/
theorem Probe.Inspects.retarget (inspects : p.Inspects values target s)
    (same_side : p.wentRight = true ↔ p.value < other) : p.Inspects values other s :=
  { inspects with wentRight_iff := same_side }

theorem Chain.retarget (chain : Chain values target start probes last)
    (same_side : ∀ p ∈ probes, (p.wentRight = true ↔ p.value < other)) :
    Chain values other start probes last := by
  induction chain with
  | nil s => exact .nil s
  | cons inspects _ ih =>
    refine .cons (inspects.retarget (same_side _ (List.mem_cons_self ..))) (ih fun q later => ?_)
    exact same_side q (List.mem_cons_of_mem _ later)

/-- Probes lead from a span to one other only, for whichever targets they were made. -/
theorem Chain.last_unique (one : Chain values target start probes last)
    (two : Chain values other start probes otherLast) : last = otherLast := by
  induction one with
  | nil s =>
    cases two with
    | nil => rfl
  | cons _ _ ih =>
    cases two with
    | cons _ rest => exact ih rest

/-! ## Two searches -/

namespace Image

variable (m : Image)

/-- Where the probes of a search read, the values below any target are those before the position on
which the search for that target closes. -/
theorem value_lt_iff
    (chain : Chain m.table.values target ⟨0, m.right.toNat⟩ probes last) (mem : p ∈ probes)
    (other : UInt64) : p.value < other ↔ p.mid.toNat < (m.lowerBound other).toNat := by
  have before_right : p.mid.toNat < m.right.toNat := (chain.mid_within p mem).2
  have within : p.mid.toNat < m.table.values.size :=
    Nat.lt_of_lt_of_le before_right m.right_le_size
  obtain ⟨s, inspects⟩ := chain.exists_inspects p mem
  have read : m.table.values[p.mid.toNat] = p.value := by
    have read_some := inspects.value_eq
    rw [Array.getElem?_eq_getElem within] at read_some
    exact Option.some.inj read_some
  rw [← read]
  exact (m.table.lt_lowerBound_iff m.right_le_size other within before_right).symm

/-- A probe goes right exactly if it looks at a position before the one on which the search
closes. -/
theorem wentRight_iff (chain : Chain m.table.values target ⟨0, m.right.toNat⟩ probes last)
    (mem : p ∈ probes) : p.wentRight = true ↔ p.mid.toNat < (m.lowerBound target).toNat := by
  obtain ⟨s, inspects⟩ := chain.exists_inspects p mem
  rw [inspects.wentRight_iff, m.value_lt_iff chain mem]

theorem probes_eq_iff (target other : UInt64) :
    (m.run target).probes = (m.run other).probes ↔ m.lowerBound target = m.lowerBound other := by
  have chain := m.chain_run target
  have otherChain := m.chain_run other
  constructor
  · intro same
    rw [← same] at otherChain
    exact UInt32.toNat_inj.mp (congrArg Span.low (chain.last_unique otherChain))
  · intro same
    have same_side : ∀ p ∈ (m.run target).probes, (p.wentRight = true ↔ p.value < other) := by
      intro p mem
      rw [m.wentRight_iff chain mem, m.value_lt_iff chain mem, same]
    exact ((chain.retarget same_side).unique otherChain rfl rfl).1

/-- Two recorded searches of an image, on any sources that yield their targets, record the same
probes if and only if they close on the same position. So targets of the same rank cannot be told
apart by the probes. -/
theorem probes_disclose_position {σ ε τ δ : Type} [Source σ ε] [Source τ δ] {before after : σ}
    {otherBefore otherAfter : τ}
    (drawn : (Source.nextPublic : Draw σ ε UInt64).run.run before = (.ok target, after))
    (otherDrawn : (Source.nextPublic : Draw τ δ UInt64).run.run otherBefore =
      (.ok other, otherAfter)) :
    ∃ run otherRun, m.searchRecorded.run.run before = (.ok run, after) ∧
      m.searchRecorded.run.run otherBefore = (.ok otherRun, otherAfter) ∧
      (run.probes = otherRun.probes ↔ m.lowerBound target = m.lowerBound other) ∧
      (m.table.rank target = m.table.rank other → run.probes = otherRun.probes) := by
  refine ⟨m.run target, m.run other, m.searchRecorded_of_draw drawn,
    m.searchRecorded_of_draw otherDrawn, m.probes_eq_iff target other, fun same_rank => ?_⟩
  apply (m.probes_eq_iff target other).mpr
  rw [← UInt32.toNat_inj, toNat_lowerBound, toNat_lowerBound, same_rank]

/-- Among five values, the probes for 5 are those for 6, and not those for 7. -/
theorem probes_disclose_position_between :
    ∃ (m : Image) (five six seven : Run), m.table.values = #[2, 4, 6, 8, 10] ∧
      m.searchRecorded.run.run (Queue.ofPublic [5]) = (.ok five, ⟨⟨[], 1⟩, {}⟩) ∧
      m.searchRecorded.run.run (Queue.ofPublic [6]) = (.ok six, ⟨⟨[], 1⟩, {}⟩) ∧
      m.searchRecorded.run.run (Queue.ofPublic [7]) = (.ok seven, ⟨⟨[], 1⟩, {}⟩) ∧
      five.probes = six.probes ∧ five.probes ≠ seven.probes := by
  let t : Table := ⟨#[2, 4, 6, 8, 10], by decide, by decide, by decide⟩
  let m : Image := ⟨⟨5, 4294967295⟩, t, by decide, by decide⟩
  have drawn (target : UInt64) :
      (Source.nextPublic : Draw Queue InputError UInt64).run.run (Queue.ofPublic [target]) =
        (.ok target, ⟨⟨[], 1⟩, {}⟩) := rfl
  obtain ⟨five, six, searched, searchedSix, -, alike⟩ :=
    probes_disclose_position m (drawn 5) (drawn 6)
  obtain ⟨five', seven, searched', searchedSeven, disclosed, -⟩ :=
    probes_disclose_position m (drawn 5) (drawn 7)
  have same : five' = five :=
    Except.ok.inj (Prod.mk.inj (searched'.symm.trans searched)).1
  subst same
  have apart : m.lowerBound 5 ≠ m.lowerBound 7 := by
    rw [ne_eq, ← UInt32.toNat_inj, toNat_lowerBound, toNat_lowerBound]
    decide
  exact ⟨m, five', six, seven, rfl, searched, searchedSix, searchedSeven, alike (by decide),
    fun same => apart (disclosed.mp same)⟩

end Image

end TableSearch
