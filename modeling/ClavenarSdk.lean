import ClavenarSdk.Agents
import ClavenarSdk.Body
import ClavenarSdk.Crates
import ClavenarSdk.Decisions
import ClavenarSdk.Error
import ClavenarSdk.Execution.AtMostOnce
import ClavenarSdk.Execution.Background
import ClavenarSdk.Execution.Batch
import ClavenarSdk.Execution.Completion
import ClavenarSdk.Execution.Contract
import ClavenarSdk.Execution.Drain
import ClavenarSdk.Execution.Evidence
import ClavenarSdk.Execution.Fixture
import ClavenarSdk.Execution.Flush
import ClavenarSdk.Execution.Gate
import ClavenarSdk.Execution.Lifecycle
import ClavenarSdk.Execution.Modification
import ClavenarSdk.Execution.Ordering
import ClavenarSdk.Execution.Outbox
import ClavenarSdk.Execution.Pending
import ClavenarSdk.Execution.Provenance
import ClavenarSdk.Execution.Receipt
import ClavenarSdk.Execution.Reconciliation
import ClavenarSdk.Execution.Records
import ClavenarSdk.Execution.Recoverable
import ClavenarSdk.Execution.Recovery
import ClavenarSdk.Execution.Uncertain
import ClavenarSdk.Hil
import ClavenarSdk.Interaction.System
import ClavenarSdk.Json.Value
import ClavenarSdk.JsonRpc
import ClavenarSdk.Ledger.Rows
import ClavenarSdk.Ledger.Windows
import ClavenarSdk.Pack.Document
import ClavenarSdk.Pack.Jwks
import ClavenarSdk.Pack.Manifest
import ClavenarSdk.Routes
import ClavenarSdk.Serde
import ClavenarSdk.Targets
import ClavenarSdk.Transport.Provider
