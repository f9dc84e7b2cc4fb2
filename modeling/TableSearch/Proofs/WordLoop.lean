import Mathlib.Logic.Relation
import TableSearch.Proofs.Making
import TableSearch.Proofs.Partition

/-!
# The descent on bare words

A window of a table cannot be built out of order or out of bounds. Here the same loop runs on two
words about which nothing is known, in arithmetic that refuses to wrap and with reads that refuse
to leave the values. `Window.turn?_bounds` is one step of the simulation: from the bounds of a
window no turn is refused, and it makes the probe and reaches the bounds of the next window.
-/

namespace TableSearch

/-- A difference of words, refused where it would wrap. -/
def subtract? (a b : UInt32) : Option UInt32 := if b ≤ a then some (a - b) else none

/-- A sum of words, refused where it would wrap. -/
def add? (a b : UInt32) : Option UInt32 :=
  if a.toNat + b.toNat < UInt32.size then some (a + b) else none

/-- Two words between which a loop searches. -/
structure Bounds where
  low : UInt32
  high : UInt32

namespace Bounds

def width (b : Bounds) : Nat := b.high.toNat - b.low.toNat

def mid (b : Bounds) : UInt32 := b.low + (b.high - b.low) / 2

/-- One turn of the loop: its probe and the next bounds, unless arithmetic or a read is refused. -/
def turn? (values : Array UInt64) (target : UInt64) (b : Bounds) : Option (Probe × Bounds) := do
  let difference ← subtract? b.high b.low
  let mid ← add? b.low (difference / 2)
  let value ← values[mid.toNat]?
  if value < target then
    let behind ← add? mid 1
    return (⟨b.low, b.high, mid, value, true⟩, ⟨behind, b.high⟩)
  else
    return (⟨b.low, b.high, mid, value, false⟩, ⟨b.low, mid⟩)

/-- The loop goes on from `b`, and `next` is where a turn leads that is not refused. -/
def Step (values : Array UInt64) (target : UInt64) (b next : Bounds) : Prop :=
  b.low ≠ b.high ∧ ∃ probe, b.turn? values target = some (probe, next)

/-- The bounds that the loop comes to. -/
abbrev Reaches (values : Array UInt64) (target : UInt64) : Bounds → Bounds → Prop :=
  Relation.ReflTransGen (Step values target)

/-- The loop from `b` ends, with these probes and at this position. A turn that is refused leads
nowhere, so a loop that meets one does not complete. -/
inductive Completes (values : Array UInt64) (target : UInt64) :
    Bounds → List Probe → UInt32 → Prop
  | met {b : Bounds} : b.low = b.high → Completes values target b [] b.low
  | turn {b next : Bounds} {probe : Probe} {probes : List Probe} {last : UInt32} :
    b.low ≠ b.high → b.turn? values target = some (probe, next) →
    Completes values target next probes last → Completes values target b (probe :: probes) last

/-- What the arithmetic and the read of a turn rely on, and that the turn makes progress. -/
structure Safe (values : Array UInt64) (target : UInt64) (right : UInt32) (b : Bounds) : Prop where
  low_lt_high : b.low.toNat < b.high.toNat
  high_le_right : b.high.toNat ≤ right.toNat
  toNat_difference : (b.high - b.low).toNat = b.high.toNat - b.low.toNat
  sum_fits : b.low.toNat + ((b.high - b.low) / 2).toNat < UInt32.size
  toNat_mid : b.mid.toNat = (b.low.toNat + b.high.toNat) / 2
  mid_lt_size : b.mid.toNat < values.size
  mid_add_one_fits : b.mid.toNat + 1 < UInt32.size
  progress : ∃ probe next, b.turn? values target = some (probe, next) ∧ next.width < b.width

end Bounds

theorem subtract?_eq_some {a b : UInt32} (ordered : b.toNat ≤ a.toNat) :
    subtract? a b = some (a - b) :=
  if_pos (UInt32.le_iff_toNat_le.mpr ordered)

theorem add?_eq_some {a b : UInt32} (fits : a.toNat + b.toNat < UInt32.size) :
    add? a b = some (a + b) :=
  if_pos fits

namespace Window

variable {t : Table} {right : UInt32} {target : UInt64}

def bounds (w : Window t) : Bounds := ⟨w.low, w.high⟩

theorem toNat_difference (w : Window t) :
    (w.high - w.low).toNat = w.high.toNat - w.low.toNat :=
  UInt32.toNat_sub_of_le _ _ (UInt32.le_iff_toNat_le.mpr w.low_le_high)

theorem toNat_half (w : Window t) :
    ((w.high - w.low) / 2).toNat = (w.high.toNat - w.low.toNat) / 2 := by
  have two : (2 : UInt32).toNat = 2 := rfl
  rw [UInt32.toNat_div, toNat_difference, two]

theorem half_fits (w : Window t) :
    w.low.toNat + ((w.high - w.low) / 2).toNat < UInt32.size := by
  have ordered := w.low_le_high
  have highFits := w.high.toNat_lt_size
  rw [toNat_half]
  omega

theorem mid_add_one_fits (w : Window t) (opened : w.low ≠ w.high) :
    w.mid.toNat + 1 < UInt32.size := by
  have before := w.mid_lt_high opened
  have highFits := w.high.toNat_lt_size
  omega

/-- From the bounds of an open window no turn is refused. -/
theorem turn?_bounds (w : Window t) (opened : w.low ≠ w.high) :
    w.bounds.turn? t.values target =
      some (w.probe target opened, (w.next target opened).bounds) := by
  have inside := w.mid_lt_size opened
  have one : (1 : UInt32).toNat = 1 := rfl
  have difference : subtract? w.bounds.high w.bounds.low = some (w.high - w.low) :=
    subtract?_eq_some w.low_le_high
  have middle : add? w.bounds.low ((w.high - w.low) / 2) = some w.mid :=
    add?_eq_some w.half_fits
  have read : t.values[w.mid.toNat]? = some (w.midValue opened) :=
    Array.getElem?_eq_getElem inside
  have behind : add? w.mid 1 = some (w.mid + 1) := by
    apply add?_eq_some
    rw [one]
    exact w.mid_add_one_fits opened
  rw [Bounds.turn?, difference]
  simp only [Option.bind_eq_bind, Option.bind_some, middle, read, behind]
  by_cases smaller : w.midValue opened < target
  · simp [smaller, probe, next, bounds]
  · simp [smaller, probe, next, bounds]

/-- Bounds that the loop comes to are those of a window inside the first one. -/
theorem exists_of_reaches {w : Window t} (within : w.high.toNat ≤ right.toNat) {b : Bounds}
    (reached : Bounds.Reaches t.values target w.bounds b) :
    ∃ v : Window t, v.bounds = b ∧ v.high.toNat ≤ right.toNat := by
  induction reached with
  | refl => exact ⟨w, rfl, within⟩
  | tail _ step ih =>
    rcases ih with ⟨v, rfl, vWithin⟩
    rcases step with ⟨differ, probe, turned⟩
    have opened : v.low ≠ v.high := differ
    rw [v.turn?_bounds opened] at turned
    have same := (Prod.mk.inj (Option.some.inj turned)).2
    refine ⟨v.next target opened, same, ?_⟩
    have before := v.mid_lt_high opened
    rw [Window.next]
    split
    · exact vWithin
    · exact Nat.le_trans (Nat.le_of_lt before) vWithin

theorem safe (w : Window t) (within : w.high.toNat ≤ right.toNat) (opened : w.low ≠ w.high) :
    w.bounds.Safe t.values target right where
  low_lt_high := w.low_lt_high opened
  high_le_right := within
  toNat_difference := w.toNat_difference
  sum_fits := w.half_fits
  toNat_mid := w.toNat_mid
  mid_lt_size := w.mid_lt_size opened
  mid_add_one_fits := w.mid_add_one_fits opened
  progress := ⟨_, _, w.turn?_bounds opened, w.width_next_lt target opened⟩

/-- The recorded descent from a window is the loop from its bounds, and the loop completes. -/
theorem completes (w : Window t) (target : UInt64) (seen : List Probe) :
    ∃ probes, (w.converge target (fun seen probe => seen ++ [probe]) seen).2 = seen ++ probes ∧
      Bounds.Completes t.values target w.bounds probes
        (w.converge target (fun seen probe => seen ++ [probe]) seen).1 := by
  fun_induction Window.converge target (fun seen probe => seen ++ [probe]) w seen with
  | case1 w seen closed => exact ⟨[], (List.append_nil seen).symm, .met closed⟩
  | case2 w seen opened ih =>
    rcases ih with ⟨probes, recorded, rest⟩
    refine ⟨w.probe target opened :: probes, ?_, .turn opened (w.turn?_bounds opened) rest⟩
    rw [recorded, List.append_assoc, List.singleton_append]

end Window

/-- The recorded search of an image is the loop on bare words from the whole window. -/
theorem Image.completes (m : Image) (target : UInt64) :
    Bounds.Completes m.table.values target ⟨0, m.right⟩ (m.run target).probes
      (m.lowerBound target) := by
  obtain ⟨probes, recorded, completed⟩ :=
    (Window.before m.table m.right m.right_le_size).completes target []
  have same : (m.run target).probes = probes := recorded
  have closes : (m.table.descend m.right m.right_le_size target).1 = m.lowerBound target :=
    Table.descend_fst ..
  rw [same, ← closes]
  exact completed

/-- A read at any position up to the size of a table hits the table or is answered by nothing. -/
theorem Table.get?_of_le (t : Table) {index : UInt32} (within : index.toNat ≤ t.size) :
    (∃ inside : index.toNat < t.values.size, t.get? index = some t.values[index.toNat]) ∨
      index.toNat = t.size ∧ t.get? index = none := by
  rcases Nat.lt_or_eq_of_le within with inside | atEnd
  · exact Or.inl ⟨inside, Array.getElem?_eq_getElem inside⟩
  · exact Or.inr ⟨atEnd, Array.getElem?_eq_none (Nat.le_of_eq atEnd.symm)⟩

/-- For an image made in any way, the loop on bare words never meets arithmetic that wraps or a read
outside the values, each turn leaves a smaller width, and the loop completes: with the probes of
the recorded search, at a position that is at most the bound. -/
theorem Image.search_safe {m : Image} (made : m.Made) (target : UInt64) :
    m.right.toNat ≤ m.table.size ∧ m.table.size < UInt32.size ∧
      (∀ b, Bounds.Reaches m.table.values target ⟨0, m.right⟩ b → b.low ≠ b.high →
        b.Safe m.table.values target m.right) ∧
      Bounds.Completes m.table.values target ⟨0, m.right⟩ (m.run target).probes
        (m.lowerBound target) ∧
      (m.lowerBound target).toNat ≤ m.right.toNat ∧
      ((∃ inside : (m.lowerBound target).toNat < m.table.values.size,
          m.table.get? (m.lowerBound target) =
            some m.table.values[(m.lowerBound target).toNat]) ∨
        (m.lowerBound target).toNat = m.table.size ∧
          m.table.get? (m.lowerBound target) = none) := by
  obtain ⟨c, values, assembled⟩ := made.assembled
  obtain ⟨t, checked, built⟩ := Image.assemble_eq_ok_iff.mp assembled
  obtain ⟨-, small, -, sameValues⟩ := Table.ofArray_eq_ok_iff.mp checked
  obtain ⟨fits, -, sameConfig, rfl⟩ := Image.build_eq_ok_iff.mp built
  rw [← sameValues] at small
  rw [← sameConfig] at fits
  have inside : m.right.toNat ≤ m.table.size := by
    unfold Image.right
    omega
  have bounded : (m.lowerBound target).toNat ≤ m.right.toNat :=
    (m.table.lowerBound_partitions m.right inside target).1
  refine ⟨inside, small, ?_, m.completes target, bounded, ?_⟩
  · intro b reached differ
    obtain ⟨w, rfl, within⟩ := Window.exists_of_reaches
      (w := Window.before m.table m.right inside) (Nat.le_refl _) reached
    exact w.safe within differ
  · exact m.table.get?_of_le (Nat.le_trans bounded inside)

theorem Image.search_safe_of_bytes :
    ∃ m : Image, Binary.decode Binary.image (Binary.ofImage m ++ [7]) = .ok m ∧
      (⟨0, 2⟩ : Bounds).Safe #[1, 3, 3] 3 2 ∧ (m.lowerBound 3).toNat ≤ 2 := by
  let t : Table := ⟨#[1, 3, 3], by decide, by decide, by decide⟩
  let m : Image := ⟨⟨2, 4294967295⟩, t, by decide, by decide⟩
  have read := Binary.decode_ofImage m [7]
  obtain ⟨-, -, safe, -, bounded, -⟩ := Image.search_safe (.binary read) 3
  exact ⟨m, read, safe ⟨0, 2⟩ .refl (by decide), bounded⟩

end TableSearch
