import TableSearch.Search
import TableSearch.Queue
import TableSearch.Digest
import TableSearch.Header
import TableSearch.ImageFile
import TableSearch.Environment
import TableSearch.Main
import TableSearch.Proofs.Acceptance
import TableSearch.Proofs.Partition
import TableSearch.Proofs.Scan
import TableSearch.Proofs.BinaryForm
import TableSearch.Proofs.WordLoop
import TableSearch.Proofs.Making
import TableSearch.Proofs.JsonTokens
import TableSearch.Proofs.JsonForm
import TableSearch.Proofs.Agreement
import TableSearch.Proofs.StoredFiles
import TableSearch.Proofs.JsonLayout
import TableSearch.Proofs.Persistence
import TableSearch.Proofs.JsonCut
import TableSearch.Proofs.Truncation
import TableSearch.Proofs.Utf8Form
import TableSearch.Proofs.JsonGrammar
import TableSearch.Proofs.JsonNumerals
import TableSearch.Proofs.JsonStrings
import TableSearch.Proofs.JsonPassing
import TableSearch.Proofs.JsonReads
import TableSearch.Proofs.JsonAcceptance
import TableSearch.Proofs.FormatsApart
import TableSearch.Proofs.Requests
import TableSearch.Proofs.ExecutionText
import TableSearch.Proofs.SearchCommand
import TableSearch.Proofs.PrivateInput
import TableSearch.Proofs.Absorption
import TableSearch.Proofs.Identity
import TableSearch.Proofs.AnySource
import TableSearch.Proofs.Trace
import TableSearch.Proofs.QueueHistory
import TableSearch.Proofs.Generated
import TableSearch.Proofs.Rank
import TableSearch.Proofs.Disclosure
import TableSearch.Proofs.ProbeCount
import TableSearch.Proofs.Refusal
import TableSearch.Proofs.Necessity
import TableSearch.Proofs.HeaderReading
import TableSearch.Proofs.GeneratedFiles
import TableSearch.Proofs.FirstDefect
import TableSearch.Proofs.GeneratedEffects
import TableSearch.Proofs.EventLog
