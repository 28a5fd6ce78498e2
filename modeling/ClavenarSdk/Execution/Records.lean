import ClavenarSdk.Json.Value
import ClavenarSdk.Uuid

/-!
# Records of SDK-governed execution

The data types of `execution.rs`, field by field: prepared requests, the authorization that
the Proxy signs, the durable intent, completion and outbox entry, the receipt, and the
handles for pending and uncertain executions.
-/

namespace ClavenarSdk

/-- `DECISION_CONTRACT`. -/
def decisionContract : String := "clavenar.decision/v1"
/-- `DECISION_CONTRACT_HEADER`. -/
def decisionContractHeader : String := "x-clavenar-decision-contract"
/-- `EXECUTION_CONTRACT`. -/
def executionContract : String := "clavenar.execution/v1"
/-- `IDEMPOTENCY_ID_HEADER`. -/
def idempotencyIdHeader : String := "x-clavenar-idempotency-id"
/-- `PENDING_AUTHORIZATION_CONTRACT`. -/
def pendingAuthorizationContract : String := "clavenar.pending-authorization/v1"
/-- `PENDING_ID_HEADER`. -/
def pendingIdHeader : String := "x-clavenar-pending-id"
/-- `PENDING_PAYLOAD_SHA256_HEADER`. -/
def pendingPayloadSha256Header : String := "x-clavenar-pending-payload-sha256"
/-- `ATOMIC_TOOL_CALL_BATCH_CONTRACT`. -/
def atomicToolCallBatchContract : String := "clavenar.atomic-tool-call-batch/v1"
/-- `ATOMIC_TOOL_CALL_BATCH_METHOD`. -/
def atomicToolCallBatchMethod : String := "clavenar/tools.batch"
/-- `ATOMIC_TOOL_CALL_BATCH_NAME`. -/
def atomicToolCallBatchName : String := "clavenar.atomic-batch"
/-- `DURABLE_EXECUTION_OUTBOX_WIRE_CONTRACT`. -/
def durableExecutionOutboxWireContract : String := "clavenar.sdk-durable-intent-outbox/v1"
/-- `UNCERTAIN_EFFECT_CONTRACT`. -/
def uncertainEffectContract : String := "clavenar.uncertain-effect/v1"
/-- `MAX_OUTBOX_FLUSH`. -/
def maxOutboxFlush : ℕ := 128
/-- `MAX_BATCH_CALLS`. -/
def maxBatchCalls : ℕ := 128

/-! ### Requests -/

/-- One model-produced sibling in an atomically authorized tool-call batch. -/
structure ModelToolCall where
  id : String
  name : String
  arguments : Value
  deriving DecidableEq

/-- A single-tool request whose identity exists before any network attempt. Deserializing
one does not validate it. -/
structure PreparedToolRequest where
  idempotencyId : Uuid
  name : String
  arguments : Value
  deriving DecidableEq

/-- An atomic batch whose identity exists before any network attempt. -/
structure PreparedToolBatch where
  idempotencyId : Uuid
  calls : List ModelToolCall
  deriving DecidableEq

/-- `params.arguments` of the batch envelope. -/
structure AtomicBatchArguments where
  contract : String
  calls : List ModelToolCall

/-- `params` of the batch envelope. -/
structure AtomicBatchParams where
  name : String
  arguments : AtomicBatchArguments

/-- The JSON-RPC envelope of an atomic batch. -/
structure AtomicBatchEnvelope where
  jsonrpc : String
  id : String
  method : String
  params : AtomicBatchParams

/-! ### Authorizations -/

structure IdentitySignature where
  algorithm : String
  keyId : String
  value : String
  deriving DecidableEq

structure PolicyBundleProvenance where
  schemaVersion : UInt8
  version : String
  hashSha256 : String
  policyCount : UInt64
  deriving DecidableEq

/-- The claims of an execution authorization. -/
structure Authorization where
  contract : String
  stage : String
  authorizationId : Uuid
  idempotencyId : Uuid
  correlationId : Uuid
  agentId : String
  agentSpiffe : String
  tenant : String
  credentialFingerprint : String
  method : String
  toolName : String
  executionPayload : Value
  payloadSha256 : String
  decisionPrincipal : Value
  modificationDiff : Option Value
  policyBundle : PolicyBundleProvenance
  brainVersion : String
  brainEvidenceSha256 : String
  deriving DecidableEq

structure SignedAuthorization where
  authorization : Authorization
  identitySignature : IdentitySignature
  deriving DecidableEq

/-! ### Receipts and durable records -/

structure WorkloadSignature where
  algorithm : String
  credentialFingerprint : String
  value : String
  deriving DecidableEq

/-- The terminal receipt that is sent to the Proxy. -/
structure ExecutionReceipt where
  contract : String
  stage : String
  authorizationId : Uuid
  idempotencyId : Uuid
  correlationId : Uuid
  agentId : String
  agentSpiffe : String
  tenant : String
  credentialFingerprint : String
  method : String
  payloadSha256 : String
  authorization : SignedAuthorization
  resultSha256 : String
  effectId : String
  workloadSignature : WorkloadSignature
  deriving DecidableEq

/-- The part of the receipt that is signed. -/
structure UnsignedExecutionReceipt where
  contract : String
  stage : String
  authorizationId : Uuid
  idempotencyId : Uuid
  correlationId : Uuid
  agentId : String
  agentSpiffe : String
  tenant : String
  credentialFingerprint : String
  method : String
  payloadSha256 : String
  authorization : SignedAuthorization
  resultSha256 : String
  effectId : String

/-- What is durably stored before the executor is invoked. -/
structure ExecutionIntent where
  contract : String
  stage : String
  authorizationId : Uuid
  idempotencyId : Uuid
  tenant : String
  workloadId : String
  workloadSpiffe : String
  payloadSha256 : String
  executorId : String
  authorization : SignedAuthorization
  deriving DecidableEq

/-- Whether the in-flight transition consumes a direct decision or a one-use authorization. -/
inductive EffectAuthorizationUse where
  | direct
  | singleUse
  deriving DecidableEq

/-- Result of the store's atomic effect-attempt admission. -/
inductive EffectAttemptClaim where
  | started
  | alreadyInFlight
  | alreadyCompleted
  deriving DecidableEq

/-- Exact input to a registered tool executor. -/
structure ToolExecutionRequest where
  idempotencyId : Uuid
  authorizationId : Uuid
  executorId : String
  executionPayload : Value
  deriving DecidableEq

/-- Exact, non-executing query supplied to a registered effect lookup. -/
structure EffectLookupRequest where
  authorizationId : Uuid
  idempotencyId : Uuid
  executorId : String
  payloadSha256 : String
  deriving DecidableEq

/-- What is durably stored with a known effect. -/
structure ExecutionCompletion where
  contract : String
  stage : String
  authorizationId : Uuid
  idempotencyId : Uuid
  executorId : String
  actualResult : Value
  actualResultSha256 : String
  effectId : String
  receipt : ExecutionReceipt
  deriving DecidableEq

structure ReceiptOutboxEntry where
  outboxId : String
  receipt : ExecutionReceipt
  deriving DecidableEq

/-- The effect that an executor reports. -/
structure ExecutionEffect where
  result : Value
  effectId : String
  deriving DecidableEq

/-- Result of an effect lookup. Only `found` can complete reconciliation. -/
inductive EffectLookupOutcome where
  | found (effect : ExecutionEffect)
  | notFound
  | ambiguous
  deriving DecidableEq

/-- The Proxy's metadata about a recorded receipt. -/
structure ReceiptRecorded where
  status : String
  contract : String
  stage : String
  authorizationId : Uuid
  receiptSha256 : String
  deriving DecidableEq

/-! ### Handles and outcomes -/

/-- Why an exact effect cannot currently be reported complete. -/
inductive UncertainEffectReason where
  | inFlightAfterPriorAttempt
  | executorOutcomeUnknown
  | lookupNotRegistered
  | lookupUnavailable
  | effectNotFound
  | lookupAmbiguous
  | lookupInvalid
  | durableIntentUnavailable
  | reconciledEffectPersistenceFailed
  deriving DecidableEq

/-- Handle for an effect whose attempt crossed the in-flight boundary without a trusted
completion. -/
structure UncertainExecution where
  contract : String
  status : String
  reason : UncertainEffectReason
  authorizationId : Uuid
  idempotencyId : Uuid
  tenant : String
  workloadId : String
  workloadSpiffe : String
  payloadSha256 : String
  executorId : String
  effectLookupRegistered : Bool
  deriving DecidableEq

/-- Handle for a decision that waits for human review. -/
structure PendingAuthorization where
  contract : String
  status : String
  pendingId : Uuid
  idempotencyId : Uuid
  correlationId : Uuid
  payloadSha256 : String
  ttlSeconds : Int64
  pollAfterMs : UInt64
  deriving DecidableEq

/-- What the Proxy decided. -/
inductive AuthorizationState where
  | authorized (authorization : SignedAuthorization)
  | pending (pending : PendingAuthorization)

structure ExecutionOutcome where
  receipt : ReceiptRecorded
  result : Value
  effectId : String
  deriving DecidableEq

inductive ResumableExecutionOutcome where
  | pending (pending : PendingAuthorization)
  | completed (outcome : ExecutionOutcome)
  deriving DecidableEq

inductive ExecutionReconciliationOutcome where
  | completed (outcome : ExecutionOutcome)
  | uncertain (uncertain : UncertainExecution)
  deriving DecidableEq

end ClavenarSdk
