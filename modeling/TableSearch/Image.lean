import TableSearch.Table

/-!
# Search images

An image is a table with the two constants that a search needs besides its target: the exclusive
upper bound of the search window and the answer for an absent target. The bound is the size of
the table or one less, and the answer for an absent target is no index of the table; both rules
are part of the type. `Image.build` checks the bound before the answer.
-/

namespace TableSearch

/-- The two constants of a search. -/
structure Config where
  /-- The exclusive upper bound of the search window. -/
  right : UInt32
  /-- The answer for a target that the table does not hold. -/
  failed : UInt32
  deriving DecidableEq

/-- A table with constants that fit it. -/
structure Image where
  config : Config
  table : Table
  right_fits : config.right.toNat = table.size ∨ config.right.toNat + 1 = table.size
  failed_outside : table.size ≤ config.failed.toNat
  deriving DecidableEq

namespace Image

/-- Joins a table with its constants, if they fit it. -/
def build (config : Config) (table : Table) : Except Rejection Image :=
  if fits : config.right.toNat = table.size ∨ config.right.toNat + 1 = table.size then
    if outside : table.size ≤ config.failed.toNat then
      .ok ⟨config, table, fits, outside⟩
    else .error (.sentinelCollision config.failed table.size)
  else .error (.rightOutOfRange config.right table.size)

/-- The image of the table `0, 1, …, size - 1`, with the last index as bound and the size as the
answer for an absent target. -/
def sequential (size : UInt32) : Except Rejection Image := do
  let table ← Table.sequential size
  build ⟨size - 1, size⟩ table

/-- The image that searches a whole table, its size being the bound. -/
def withExclusiveBound (table : Table) (failed : UInt32) : Except Rejection Image :=
  build ⟨UInt32.ofNat table.size, failed⟩ table

/-- The exclusive upper bound of the search window. -/
def right (m : Image) : UInt32 := m.config.right

/-- The answer for a target that the table does not hold. -/
def failed (m : Image) : UInt32 := m.config.failed

/-- The search window stays inside the table. -/
theorem right_le_size (m : Image) : m.right.toNat ≤ m.table.size := by
  have fits := m.right_fits
  unfold right
  omega

@[ext] theorem ext {m n : Image} (config_eq : m.config = n.config) (table_eq : m.table = n.table) :
    m = n := by
  cases m; cases n; cases config_eq; cases table_eq; rfl

/-- Joining the parts of an image gives the image back. -/
@[simp] theorem build_parts (m : Image) : build m.config m.table = .ok m := by
  simp [build, m.right_fits, m.failed_outside]

/-- What is joined is what went in. -/
theorem parts_of_build {config : Config} {table : Table} {m : Image}
    (built : build config table = .ok m) : m.config = config ∧ m.table = table := by
  unfold build at built
  split at built
  · split at built
    · cases built; exact ⟨rfl, rfl⟩
    · cases built
  · cases built

end Image

end TableSearch
