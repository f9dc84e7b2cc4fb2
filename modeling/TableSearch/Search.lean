import TableSearch.Image

/-!
# Binary search over a window

A search narrows a window `[low, high)` of table positions until it is empty. The value in the
middle decides the side: below the target, the window continues behind it, otherwise it ends at
it. Positions are 32-bit words; the lemmas on `Window.mid` say that the midpoint is the exact
average of the two ends and lies inside the window, so no step can wrap and every read is in
bounds. The position at which the window closes is the lower bound of the target, and one guarded
comparison there turns it into the answer.

`Window.converge` reports each probe to an observer, so that the plain search and the recorded
one are the same descent.
-/

namespace TableSearch

/-- One look at the middle of a window. -/
structure Probe where
  /-- Where the window started. -/
  low : UInt32
  /-- Where the window ended, exclusively. -/
  high : UInt32
  /-- The position that was read. -/
  mid : UInt32
  /-- The value at that position. -/
  value : UInt64
  /-- The value was below the target, so the window continues behind `mid`. -/
  wentRight : Bool
  deriving DecidableEq

/-- A range `[low, high)` of positions of a table. -/
structure Window (t : Table) where
  low : UInt32
  high : UInt32
  low_le_high : low.toNat ≤ high.toNat
  high_le_size : high.toNat ≤ t.size

namespace Window

variable {t : Table}

/-- The window of all positions before `right`. -/
def before (t : Table) (right : UInt32) (inside : right.toNat ≤ t.size) : Window t :=
  ⟨0, right, Nat.zero_le _, inside⟩

/-- How many positions the window holds. -/
def width (w : Window t) : Nat := w.high.toNat - w.low.toNat

/-- The position in the middle, towards the start. The difference of the ends is halved, since
their sum may not fit a word. -/
def mid (w : Window t) : UInt32 := w.low + (w.high - w.low) / 2

/-- The midpoint is the average of the two ends, rounded down. -/
theorem toNat_mid (w : Window t) : w.mid.toNat = (w.low.toNat + w.high.toNat) / 2 := by
  have ordered := w.low_le_high
  have high_lt := w.high.toNat_lt
  have difference : (w.high - w.low).toNat = w.high.toNat - w.low.toNat :=
    UInt32.toNat_sub_of_le _ _ (UInt32.le_iff_toNat_le.mpr ordered)
  have two : (2 : UInt32).toNat = 2 := rfl
  rw [mid, UInt32.toNat_add, UInt32.toNat_div, difference, two]
  omega

theorem low_le_mid (w : Window t) : w.low.toNat ≤ w.mid.toNat := by
  have ordered := w.low_le_high
  rw [toNat_mid]
  omega

theorem low_lt_high (w : Window t) (opened : w.low ≠ w.high) : w.low.toNat < w.high.toNat :=
  Nat.lt_of_le_of_ne w.low_le_high fun same => opened (UInt32.toNat_inj.mp same)

theorem mid_lt_high (w : Window t) (opened : w.low ≠ w.high) : w.mid.toNat < w.high.toNat := by
  have gap := w.low_lt_high opened
  rw [toNat_mid]
  omega

theorem mid_lt_size (w : Window t) (opened : w.low ≠ w.high) :
    w.mid.toNat < t.values.size :=
  Nat.lt_of_lt_of_le (w.mid_lt_high opened) w.high_le_size

/-- The position behind the midpoint is a word. -/
theorem toNat_mid_add_one (w : Window t) (opened : w.low ≠ w.high) :
    (w.mid + 1).toNat = w.mid.toNat + 1 := by
  have inside := w.mid_lt_high opened
  have high_lt := w.high.toNat_lt
  have one : (1 : UInt32).toNat = 1 := rfl
  rw [UInt32.toNat_add, one]
  omega

/-- The value in the middle of a window that is not empty. -/
def midValue (w : Window t) (opened : w.low ≠ w.high) : UInt64 :=
  have := w.mid_lt_size opened
  t.values[w.mid.toNat]

/-- The look at the middle of a window that is not empty. -/
def probe (w : Window t) (target : UInt64) (opened : w.low ≠ w.high) : Probe :=
  ⟨w.low, w.high, w.mid, w.midValue opened, w.midValue opened < target⟩

/-- The half in which the search goes on. -/
def next (w : Window t) (target : UInt64) (opened : w.low ≠ w.high) : Window t :=
  if w.midValue opened < target then
    ⟨w.mid + 1, w.high, by
      have inside := w.mid_lt_high opened
      rw [w.toNat_mid_add_one opened]
      omega, w.high_le_size⟩
  else
    ⟨w.low, w.mid, w.low_le_mid, Nat.le_of_lt (w.mid_lt_size opened)⟩

/-- Each step leaves a smaller window. -/
theorem width_next_lt (w : Window t) (target : UInt64) (opened : w.low ≠ w.high) :
    (w.next target opened).width < w.width := by
  have gap := w.low_lt_high opened
  have low_le := w.low_le_mid
  have inside := w.mid_lt_high opened
  unfold next
  split
  · simp only [width, w.toNat_mid_add_one opened]
    omega
  · simp only [width]
    omega

/-- Narrows the window until it is empty, and shows each probe to `observe`. The result is the
position at which it closed, with what the observer made of the probes. -/
def converge {σ : Type} (target : UInt64) (observe : σ → Probe → σ) (w : Window t) (seen : σ) :
    UInt32 × σ :=
  if closed : w.low = w.high then (w.low, seen)
  else converge target observe (w.next target closed) (observe seen (w.probe target closed))
termination_by w.width
decreasing_by exact w.width_next_lt target closed

/-- Observers see the same descent. -/
theorem converge_fst_eq {σ τ : Type} {target : UInt64} (observe : σ → Probe → σ)
    (other : τ → Probe → τ) (w : Window t) (seen : σ) (otherSeen : τ) :
    (w.converge target observe seen).1 = (w.converge target other otherSeen).1 := by
  fun_induction Window.converge target observe w seen generalizing otherSeen with
  | case1 w seen closed => rw [Window.converge, dif_pos closed]
  | case2 w seen opened ih =>
    rw [ih (other otherSeen (w.probe target opened)), Window.converge.eq_def target other w,
      dif_neg opened]

end Window

/-- The record of one search. -/
structure Run where
  /-- The value that was searched for. -/
  target : UInt64
  /-- Its position, or the answer for an absent target. -/
  result : UInt32
  /-- The result differs from the answer for an absent target. -/
  found : Bool
  /-- Every probe, in order. -/
  probes : List Probe
  deriving DecidableEq

namespace Table

/-- The position at which the window before `right` closes: the first one whose value is not
below the target, or `right` where there is none. -/
def lowerBound (t : Table) (right : UInt32) (inside : right.toNat ≤ t.size) (target : UInt64) :
    UInt32 :=
  ((Window.before t right inside).converge target (fun _ _ => ()) ()).1

/-- The position at which the window before `right` closes, with the probes on the way to it. -/
def descend (t : Table) (right : UInt32) (inside : right.toNat ≤ t.size) (target : UInt64) :
    UInt32 × List Probe :=
  (Window.before t right inside).converge target (fun seen probe => seen ++ [probe]) []

/-- The recorded descent closes where the plain one does. -/
theorem descend_fst (t : Table) (right : UInt32) (inside : right.toNat ≤ t.size)
    (target : UInt64) : (t.descend right inside target).1 = t.lowerBound right inside target :=
  Window.converge_fst_eq _ _ _ _ _

/-- The answer at a closing position: the position itself if it holds the target, and `failed`
otherwise, past the end as well. -/
def settle (t : Table) (failed : UInt32) (low : UInt32) (target : UInt64) : UInt32 :=
  if t.get? low = some target then low else failed

/-- The result of a search with given constants, which need not suit the table. -/
def answer (t : Table) (config : Config) (inside : config.right.toNat ≤ t.size)
    (target : UInt64) : UInt32 :=
  t.settle config.failed (t.lowerBound config.right inside target) target

/-- A search with given constants that records its probes. -/
def run (t : Table) (config : Config) (inside : config.right.toNat ≤ t.size) (target : UInt64) :
    Run :=
  let (low, probes) := t.descend config.right inside target
  let result := t.settle config.failed low target
  ⟨target, result, result ≠ config.failed, probes⟩

/-- Recording the probes does not change the result. -/
theorem run_result (t : Table) (config : Config) (inside : config.right.toNat ≤ t.size)
    (target : UInt64) : (t.run config inside target).result = t.answer config inside target := by
  change t.settle config.failed (t.descend config.right inside target).1 target = _
  rw [descend_fst]
  rfl

end Table

namespace Image

/-- The position on which a search of the image closes. -/
def lowerBound (m : Image) (target : UInt64) : UInt32 :=
  m.table.lowerBound m.right m.right_le_size target

/-- The result of searching an image. -/
def answer (m : Image) (target : UInt64) : UInt32 :=
  m.table.answer m.config m.right_le_size target

/-- A search of the image that records its probes. -/
def run (m : Image) (target : UInt64) : Run :=
  m.table.run m.config m.right_le_size target

theorem run_result (m : Image) (target : UInt64) : (m.run target).result = m.answer target :=
  m.table.run_result m.config m.right_le_size target

end Image

end TableSearch
