import TableSearch.Proofs.Scan

/-!
# Recorded probes as a certificate

A list of probes can be checked against the values without a search: each probe has to look at the
middle of the span that the one before it left, and the last one has to leave an empty span. This
is a `Chain`. The windows of a search are such spans, and a span that is not empty has one probe
only. So the recorded probes are the one chain that ends where the search closes; what is known of
its windows is known of every list that passes the check, and no such list looks at a position
twice.
-/

namespace TableSearch

/-- The positions from `low` on that are before `high`. -/
structure Span where
  low : Nat
  high : Nat
  deriving DecidableEq

/-- The span in which a search goes on behind a probe. -/
def Probe.rest (p : Probe) : Span :=
  if p.wentRight then ⟨p.mid.toNat + 1, p.high.toNat⟩ else ⟨p.low.toNat, p.mid.toNat⟩

/-- The probe looks at the middle of a span that is not empty, and compares the value there. -/
structure Probe.Inspects (values : Array UInt64) (target : UInt64) (s : Span) (p : Probe) :
    Prop where
  low_eq : p.low.toNat = s.low
  high_eq : p.high.toNat = s.high
  nonempty : s.low < s.high
  mid_eq : p.mid.toNat = (s.low + s.high) / 2
  value_eq : values[p.mid.toNat]? = some p.value
  wentRight_iff : p.wentRight = true ↔ p.value < target

/-- Probes of which each inspects the span that the one before it left, from the first span to the
one behind the last probe. -/
inductive Chain (values : Array UInt64) (target : UInt64) : Span → List Probe → Span → Prop
  | nil (s : Span) : Chain values target s [] s
  | cons {s last : Span} {p : Probe} {probes : List Probe} :
    p.Inspects values target s → Chain values target p.rest probes last →
    Chain values target s (p :: probes) last

/-- The values before the span are below the target, and those from its end up to `right` are
not. -/
structure Span.Splits (values : Array UInt64) (right : UInt32) (target : UInt64) (s : Span) :
    Prop where
  below (i : Nat) (inside : i < values.size) : i < s.low → values[i] < target
  above (i : Nat) (inside : i < values.size) : s.high ≤ i → i < right.toNat → target ≤ values[i]

variable {values : Array UInt64} {target : UInt64} {s start last otherLast : Span}
  {p q : Probe} {probes others : List Probe}

/-! ## Chains of probes -/

/-- A span has one probe only. -/
theorem Probe.Inspects.unique (one : p.Inspects values target s)
    (other : q.Inspects values target s) : p = q := by
  have low : p.low = q.low := UInt32.toNat_inj.mp (one.low_eq.trans other.low_eq.symm)
  have high : p.high = q.high := UInt32.toNat_inj.mp (one.high_eq.trans other.high_eq.symm)
  have mid : p.mid = q.mid := UInt32.toNat_inj.mp (one.mid_eq.trans other.mid_eq.symm)
  have value : p.value = q.value := by
    have read := one.value_eq
    rw [mid, other.value_eq] at read
    exact (Option.some.inj read).symm
  have wentRight : p.wentRight = q.wentRight := by
    rw [Bool.eq_iff_iff, one.wentRight_iff, other.wentRight_iff, value]
  cases p
  cases q
  simp only [Probe.mk.injEq]
  exact ⟨low, high, mid, value, wentRight⟩

theorem Probe.Inspects.mid_within (inspects : p.Inspects values target s) :
    s.low ≤ p.mid.toNat ∧ p.mid.toNat < s.high := by
  have nonempty := inspects.nonempty
  rw [inspects.mid_eq]
  omega

/-- What is left of a span lies in it, on one side of the position that was inspected. -/
theorem Probe.Inspects.rest_within (inspects : p.Inspects values target s) :
    s.low ≤ p.rest.low ∧ p.rest.high ≤ s.high ∧
      (p.mid.toNat < p.rest.low ∨ p.rest.high ≤ p.mid.toNat) := by
  obtain ⟨low_le, lt_high⟩ := inspects.mid_within
  rw [Probe.rest]
  split
  · exact ⟨Nat.le_succ_of_le low_le, Nat.le_of_eq inspects.high_eq, .inl (Nat.lt_succ_self _)⟩
  · exact ⟨Nat.le_of_eq inspects.low_eq.symm, Nat.le_of_lt lt_high, .inr (Nat.le_refl _)⟩

/-- All probes of a chain look at positions of its first span. -/
theorem Chain.mid_within (chain : Chain values target start probes last) :
    ∀ p ∈ probes, start.low ≤ p.mid.toNat ∧ p.mid.toNat < start.high := by
  induction chain with
  | nil => exact fun p mem => absurd mem List.not_mem_nil
  | cons inspects _ ih =>
    intro p mem
    rcases List.mem_cons.mp mem with rfl | later
    · exact inspects.mid_within
    · obtain ⟨low_le, high_le, -⟩ := inspects.rest_within
      obtain ⟨from_rest, before_rest⟩ := ih p later
      exact ⟨Nat.le_trans low_le from_rest, Nat.lt_of_lt_of_le before_rest high_le⟩

/-- No position is looked at twice: what is left of a span leaves out the one that was inspected. -/
theorem Chain.nodup (chain : Chain values target start probes last) :
    (probes.map Probe.mid).Nodup := by
  induction chain with
  | nil => exact List.nodup_nil
  | @cons s last p probes inspects rest ih =>
    rw [List.map_cons, List.nodup_cons]
    refine ⟨fun again => ?_, ih⟩
    obtain ⟨later, mem, same⟩ := List.mem_map.mp again
    obtain ⟨from_rest, before_rest⟩ := rest.mid_within later mem
    rw [same] at from_rest before_rest
    rcases inspects.rest_within.2.2 with behind | before
    · exact absurd from_rest (Nat.not_le_of_lt behind)
    · exact absurd before_rest (Nat.not_lt_of_le before)

/-- The chain from a span to an empty one is determined. -/
theorem Chain.unique (one : Chain values target start probes last)
    (other : Chain values target start others otherLast) (closed : last.low = last.high)
    (otherClosed : otherLast.low = otherLast.high) : probes = others ∧ last = otherLast := by
  induction one generalizing others with
  | nil s =>
    cases other with
    | nil => exact ⟨rfl, rfl⟩
    | cons inspects _ => exact absurd closed (Nat.ne_of_lt inspects.nonempty)
  | cons inspects _ ih =>
    cases other with
    | nil => exact absurd otherClosed (Nat.ne_of_lt inspects.nonempty)
    | cons otherInspects otherRest =>
      have same := inspects.unique otherInspects
      subst same
      obtain ⟨probes_eq, last_eq⟩ := ih otherRest closed
      exact ⟨congrArg _ probes_eq, last_eq⟩

/-! ## Windows of a search -/

namespace Window

variable {t : Table} {right : UInt32}

/-- The positions that a window holds. -/
def span (w : Window t) : Span := ⟨w.low.toNat, w.high.toNat⟩

theorem inspects_probe (w : Window t) (opened : w.low ≠ w.high) :
    (w.probe target opened).Inspects t.values target w.span where
  low_eq := rfl
  high_eq := rfl
  nonempty := w.low_lt_high opened
  mid_eq := w.toNat_mid
  value_eq := Array.getElem?_eq_getElem (w.mid_lt_size opened)
  wentRight_iff := decide_eq_true_iff

theorem rest_probe (w : Window t) (opened : w.low ≠ w.high) :
    (w.probe target opened).rest = (w.next target opened).span := by
  by_cases smaller : w.midValue opened < target
  · have wentRight : (w.probe target opened).wentRight = true := decide_eq_true smaller
    rw [Probe.rest, if_pos wentRight, next, if_pos smaller, span, w.toNat_mid_add_one opened]
    rfl
  · have stayed : ¬ (w.probe target opened).wentRight = true :=
      fun wentRight => smaller (of_decide_eq_true wentRight)
    rw [Probe.rest, if_neg stayed, next, if_neg smaller]
    rfl

/-- The recorded descent from a window is a chain, which ends where the descent closes. -/
theorem chain_converge (w : Window t) (target : UInt64) (seen : List Probe) :
    ∃ probes, (w.converge target (fun seen probe => seen ++ [probe]) seen).2 = seen ++ probes ∧
      Chain t.values target w.span probes
        ⟨(w.converge target (fun seen probe => seen ++ [probe]) seen).1.toNat,
          (w.converge target (fun seen probe => seen ++ [probe]) seen).1.toNat⟩ := by
  fun_induction Window.converge target (fun seen probe => seen ++ [probe]) w seen with
  | case1 w seen closed =>
    have empty : w.span = ⟨w.low.toNat, w.low.toNat⟩ := by rw [span, closed]
    refine ⟨[], (List.append_nil seen).symm, ?_⟩
    rw [empty]
    exact .nil _
  | case2 w seen opened ih =>
    obtain ⟨probes, recorded, rest⟩ := ih
    refine ⟨w.probe target opened :: probes, ?_, .cons (w.inspects_probe opened) ?_⟩
    · rw [recorded, List.append_assoc, List.singleton_append]
    · rw [w.rest_probe opened]
      exact rest

theorem Brackets.splits {w : Window t} (brackets : w.Brackets right target) :
    w.span.Splits t.values right target :=
  ⟨brackets.below, brackets.above⟩

/-- Every span of a chain that starts from a window is a window of the search, and the invariant
of the descent holds of it. -/
theorem Brackets.splits_of_chain {w : Window t} (brackets : w.Brackets right target)
    (chain : Chain t.values target w.span probes last) :
    ∀ s ∈ w.span :: probes.map Probe.rest, s.Splits t.values right target := by
  induction probes generalizing w with
  | nil =>
    intro s mem
    rw [List.mem_singleton.mp mem]
    exact brackets.splits
  | cons p probes ih =>
    cases chain with
    | cons inspects rest =>
      have opened : w.low ≠ w.high :=
        fun closed => Nat.ne_of_lt inspects.nonempty (congrArg UInt32.toNat closed)
      have same := inspects.unique (w.inspects_probe opened)
      subst same
      rw [w.rest_probe opened] at rest
      intro s mem
      rcases List.mem_cons.mp mem with rfl | later
      · exact brackets.splits
      · rw [List.map_cons, w.rest_probe opened] at later
        exact ih (brackets.next opened) rest s later

end Window

/-! ## The record of a search -/

namespace Image

/-- The probes of a search from the whole window to the position on which it closes. -/
theorem chain_run (m : Image) (target : UInt64) :
    Chain m.table.values target ⟨0, m.right.toNat⟩ (m.run target).probes
      ⟨(m.lowerBound target).toNat, (m.lowerBound target).toNat⟩ := by
  obtain ⟨probes, recorded, chain⟩ :=
    (Window.before m.table m.right m.right_le_size).chain_converge target []
  have same : (m.run target).probes = probes := recorded
  have closes : (m.table.descend m.right m.right_le_size target).1 = m.lowerBound target :=
    Table.descend_fst ..
  rw [same, ← closes]
  exact chain

variable {σ ε : Type} [Source σ ε] {before after : σ} {target : UInt64}

/-- A list is the record of the probes of a search if and only if it is a chain from the whole
window to the position on which the search closes. All windows of such a chain split the values
before the bound into those below the target and those that are not, and no position is probed
twice. -/
theorem record_iff_chain (m : Image)
    (drawn : (Source.nextPublic : Draw σ ε UInt64).run.run before = (.ok target, after))
    (probes : List Probe) :
    ((∃ run, m.searchRecorded.run.run before = (.ok run, after) ∧ run.probes = probes) ↔
        Chain m.table.values target ⟨0, m.right.toNat⟩ probes
          ⟨(m.lowerBound target).toNat, (m.lowerBound target).toNat⟩) ∧
      (Chain m.table.values target ⟨0, m.right.toNat⟩ probes
          ⟨(m.lowerBound target).toNat, (m.lowerBound target).toNat⟩ →
        (∀ s ∈ ⟨0, m.right.toNat⟩ :: probes.map Probe.rest,
          s.Splits m.table.values m.right target) ∧
        (probes.map Probe.mid).Nodup) := by
  have searched := m.searchRecorded_of_draw drawn
  have chain := m.chain_run target
  refine ⟨⟨?_, ?_⟩, ?_⟩
  · intro ⟨run, same, recorded⟩
    have run_eq := Except.ok.inj (Prod.mk.inj (searched.symm.trans same)).1
    rw [← recorded, ← run_eq]
    exact chain
  · intro checked
    exact ⟨m.run target, searched, (chain.unique checked rfl rfl).1⟩
  · intro checked
    have whole : (Window.before m.table m.right m.right_le_size).Brackets m.right target :=
      .before target m.right_le_size
    exact ⟨whole.splits_of_chain checked, checked.nodup⟩

/-- The probes of a search for 6 among five values, as a check of the list alone. -/
theorem record_iff_chain_two_probes :
    ∃ (m : Image) (run : Run), m.table.values = #[2, 4, 6, 8, 10] ∧
      m.searchRecorded.run.run (Queue.ofPublic [6]) = (.ok run, ⟨⟨[], 1⟩, {}⟩) ∧
      run.probes = [⟨0, 5, 2, 6, false⟩, ⟨0, 2, 1, 4, true⟩] := by
  let t : Table := ⟨#[2, 4, 6, 8, 10], by decide, by decide, by decide⟩
  let m : Image := ⟨⟨5, 4294967295⟩, t, by decide, by decide⟩
  have drawn : (Source.nextPublic : Draw Queue InputError UInt64).run.run (Queue.ofPublic [6]) =
      (.ok 6, ⟨⟨[], 1⟩, {}⟩) := rfl
  have closes : (m.lowerBound 6).toNat = 2 :=
    Table.lowerBound_eq_of_first m.size_le_right_add_one (by decide : 2 < t.values.size) rfl
      (by decide)
  have chain : Chain m.table.values 6 ⟨0, 5⟩ [⟨0, 5, 2, 6, false⟩, ⟨0, 2, 1, 4, true⟩] ⟨2, 2⟩ := by
    refine .cons ⟨rfl, rfl, ?_, rfl, rfl, ?_⟩ (.cons ⟨rfl, rfl, ?_, rfl, rfl, ?_⟩ (.nil _))
    all_goals decide
  have checked := (record_iff_chain m drawn [⟨0, 5, 2, 6, false⟩, ⟨0, 2, 1, 4, true⟩]).1
  rw [closes] at checked
  obtain ⟨run, searched, recorded⟩ := checked.mpr chain
  exact ⟨m, run, rfl, searched, recorded⟩

end Image

end TableSearch
