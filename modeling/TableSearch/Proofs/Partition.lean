import TableSearch.Search

/-!
# The position on which a search closes

`Window.Brackets` is the invariant of the descent: every value before the window is below the
target, and none from its end up to the bound is. `Window.converge_closes` carries any property
of windows that a step keeps to the window in which the descent ends, whoever observes it.
-/

namespace TableSearch

/-- Sortedness between any two positions. -/
theorem Table.values_le (t : Table) {i j : Nat} (ordered : i ≤ j) (inside : j < t.values.size) :
    t.values[i] ≤ t.values[j] := by
  rcases Nat.lt_or_eq_of_le ordered with before | rfl
  · exact List.pairwise_iff_getElem.mp t.sorted i j (Nat.lt_trans before inside) inside before
  · exact UInt64.le_refl _

namespace Window

variable {t : Table} {right : UInt32} {target : UInt64}

/-- The values before the window are below the target, and those from its end up to `right` are
not. -/
structure Brackets (right : UInt32) (target : UInt64) (w : Window t) : Prop where
  high_le_right : w.high.toNat ≤ right.toNat
  below : ∀ (i : Nat) (inside : i < t.values.size), i < w.low.toNat → t.values[i] < target
  above : ∀ (i : Nat) (inside : i < t.values.size), w.high.toNat ≤ i → i < right.toNat →
    target ≤ t.values[i]

theorem Brackets.before (target : UInt64) (inside : right.toNat ≤ t.size) :
    (Window.before t right inside).Brackets right target := by
  refine ⟨Nat.le_refl _, fun i _ early => ?_, fun i _ late within => ?_⟩
  · exact absurd early (Nat.not_lt_zero i)
  · exact absurd within (Nat.not_lt_of_le late)

/-- A step keeps the invariant: sortedness spreads the one comparison over the half that is left
behind. -/
theorem Brackets.next {w : Window t} (brackets : w.Brackets right target)
    (opened : w.low ≠ w.high) : (w.next target opened).Brackets right target := by
  have midInside := w.mid_lt_size opened
  have midBefore := w.mid_lt_high opened
  rw [Window.next]
  split
  · next behind =>
    refine ⟨brackets.high_le_right, fun i inside early => ?_, brackets.above⟩
    rw [w.toNat_mid_add_one opened] at early
    have ordered : t.values[i] ≤ t.values[w.mid.toNat] :=
      t.values_le (Nat.le_of_lt_succ early) midInside
    exact UInt64.lt_of_le_of_lt ordered behind
  · next notBehind =>
    refine ⟨?_, brackets.below, fun i inside late _ => ?_⟩
    · exact Nat.le_trans (Nat.le_of_lt midBefore) brackets.high_le_right
    · have ordered : t.values[w.mid.toNat] ≤ t.values[i] := t.values_le late inside
      exact UInt64.le_trans (UInt64.not_lt.mp notBehind) ordered

/-- What holds of a window and is kept by every step holds of the window in which the descent
ends. -/
theorem converge_closes {σ : Type} {P : Window t → Prop} (observe : σ → Probe → σ)
    (kept : ∀ (w : Window t) (opened : w.low ≠ w.high), P w → P (w.next target opened))
    {w : Window t} (holds : P w) (seen : σ) :
    ∃ last : Window t, P last ∧ last.low = last.high ∧
      (w.converge target observe seen).1 = last.low := by
  fun_induction Window.converge target observe w seen with
  | case1 w seen closed => exact ⟨w, holds, closed, rfl⟩
  | case2 w seen opened ih => exact ih (kept w opened holds)

end Window

namespace Table

variable (t : Table) (right : UInt32) (inside : right.toNat ≤ t.size) (target : UInt64)

/-- The closing position splits the values before `right` into those below the target and those
that are not. -/
theorem lowerBound_partitions :
    (t.lowerBound right inside target).toNat ≤ right.toNat ∧
      (∀ (i : Nat) (_ : i < t.values.size), i < (t.lowerBound right inside target).toNat →
        t.values[i] < target) ∧
      (∀ (i : Nat) (_ : i < t.values.size), (t.lowerBound right inside target).toNat ≤ i →
        i < right.toNat → target ≤ t.values[i]) := by
  obtain ⟨last, brackets, closed, ends⟩ :=
    Window.converge_closes (fun _ _ => ()) (fun _ opened brackets => brackets.next opened)
      (Window.Brackets.before target inside) ()
  rw [lowerBound, ends]
  refine ⟨?_, brackets.below, ?_⟩
  · rw [closed]
    exact brackets.high_le_right
  · rw [closed]
    exact brackets.above

end Table

end TableSearch
