import TableSearch.Environment
import TableSearch.Json.Writer

/-!
# Searches and executions in JSON

The members of a probe and of an execution come in a fixed order, the probes as a list.
-/

namespace TableSearch.Json.Written

/-- One look at the middle of a window. -/
def ofProbe (p : Probe) : Written :=
  object [("low", natural p.low.toNat), ("high", natural p.high.toNat),
    ("mid", natural p.mid.toNat), ("value", natural p.value.toNat),
    ("went_right", boolean p.wentRight)]

/-- A successful invocation. -/
def ofExecution (e : Execution) : Written :=
  object [("export", text e.entry), ("image_digest", text e.imageDigest),
    ("target", natural e.target.toNat), ("result", natural e.result.toNat),
    ("found", boolean e.found), ("probes", list (e.probes.map ofProbe)),
    ("public_consumed", natural e.publicConsumed),
    ("private_consumed", natural e.privateConsumed)]

end TableSearch.Json.Written
