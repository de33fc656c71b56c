import FlagGovernance.Api.Service
import FlagGovernance.Query.Codec
import FlagGovernance.Proofs.Store.Steps
import FlagGovernance.Proofs.Workflow.Steps
import FlagGovernance.Proofs.Run
import FlagGovernance.Proofs.Atomicity
import FlagGovernance.Proofs.RequestLife
import FlagGovernance.Proofs.Interleaving
import FlagGovernance.Proofs.Revision.Growth
import FlagGovernance.Proofs.Revision.Identity
import FlagGovernance.Proofs.Persistence
import FlagGovernance.Proofs.Store.Representation
import FlagGovernance.Proofs.Openings
import FlagGovernance.Proofs.Revision.StaleApply
import FlagGovernance.Proofs.Refusal
import FlagGovernance.Proofs.Workflow.Applied
import FlagGovernance.Proofs.Workflow.Provenance
import FlagGovernance.Proofs.Config.WellFormed
import FlagGovernance.Proofs.Query.Terminals
import FlagGovernance.Proofs.Query.Splitting
import FlagGovernance.Proofs.Query.Lexing
import FlagGovernance.Proofs.Query.Literals
import FlagGovernance.Proofs.Query.Derivation
import FlagGovernance.Proofs.Query.Matching
import FlagGovernance.Proofs.Query.Soundness
import FlagGovernance.Proofs.Query.Completeness
import FlagGovernance.Proofs.Query.Exact
import FlagGovernance.Proofs.Time.Rfc3339
import FlagGovernance.Proofs.Json.WellFormed
import FlagGovernance.Proofs.Decode.Laws
import FlagGovernance.Proofs.Config.Stored
import FlagGovernance.Proofs.Config.Lifting
import FlagGovernance.Proofs.Config.Readings
import FlagGovernance.Proofs.Config.Restored
import FlagGovernance.Proofs.Time.Loose
import FlagGovernance.Proofs.Config.Typed
import FlagGovernance.Proofs.Workflow.Snapshot
import FlagGovernance.Proofs.Workflow.InStep
import FlagGovernance.Proofs.Workflow.Listeners
import FlagGovernance.Proofs.Audit.Emission
import FlagGovernance.Proofs.Identifier
import FlagGovernance.Proofs.Audit.Trail
import FlagGovernance.Proofs.Audit.Replay
import FlagGovernance.Proofs.Audit.Effects
import FlagGovernance.Proofs.Workflow.Conflicts
import FlagGovernance.Proofs.Workflow.StalePolicy
import FlagGovernance.Proofs.Audit.FlagEvent
import FlagGovernance.Proofs.Audit.Chain
import FlagGovernance.Proofs.Api.Handling
import FlagGovernance.Proofs.Api.Counters
import FlagGovernance.Proofs.Json.Reading
import FlagGovernance.Proofs.Change.Documents
import FlagGovernance.Proofs.Workflow.Actions
import FlagGovernance.Proofs.Workflow.Outcomes
import FlagGovernance.Proofs.Footprint
import FlagGovernance.Proofs.Workflow.Independence
import FlagGovernance.Proofs.Precedence
import FlagGovernance.Proofs.Config.FirstViolation
import FlagGovernance.Proofs.Config.Definite
import FlagGovernance.Proofs.Config.FirstFault
import FlagGovernance.Proofs.Decode.Shapes
import FlagGovernance.Proofs.Config.Readable
import FlagGovernance.Proofs.Config.Verbatim
import FlagGovernance.Proofs.Branching
import FlagGovernance.Proofs.Text.ByteOrder
import FlagGovernance.Proofs.Json.Equality
import FlagGovernance.Proofs.Diff.Walk
import FlagGovernance.Proofs.Diff.Exact
import FlagGovernance.Proofs.Diff.Places
import FlagGovernance.Proofs.Diff.Paths
import FlagGovernance.Proofs.Diff.Rebuild
import FlagGovernance.Proofs.Diff.PathOrder
import FlagGovernance.Proofs.Diff.Written
import FlagGovernance.Proofs.Text.Lowering
import FlagGovernance.Proofs.Change.Search
import FlagGovernance.Proofs.Query.Parsing
import FlagGovernance.Proofs.Query.Viable
import FlagGovernance.Proofs.Query.Truncation
import FlagGovernance.Proofs.Query.Failing
import FlagGovernance.Proofs.Query.ErrorPlace
import FlagGovernance.Proofs.Query.Quoting
import FlagGovernance.Proofs.Query.Documents
import FlagGovernance.Proofs.Query.Attributes
import FlagGovernance.Proofs.Parting
import FlagGovernance.Proofs.Audit.Retention
import FlagGovernance.Proofs.Json.ControlFree
import FlagGovernance.Proofs.Audit.Lines
import FlagGovernance.Proofs.Store.Listing
