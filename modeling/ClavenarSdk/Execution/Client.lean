import ClavenarSdk.Execution.Validation
import ClavenarSdk.Interaction.Prog

/-!
# The client and the operations it awaits

A client is its configuration. The HTTP client, the registered executor with its effect
lookup and the durable store are reached through operations whose answers are arbitrary.
-/

namespace ClavenarSdk

open Interaction

/-- `Auth`. -/
inductive Auth where
  | none
  | bearer (token : String)

/-- The token of bearer authentication. -/
def Auth.token : Auth → Option String
  | .none => Option.none
  | .bearer token => some token

/-- `RegisteredToolExecutor`: its identity, and whether an effect lookup is registered. -/
structure RegisteredToolExecutor where
  id : String
  effectLookup : Bool

/-- The capabilities that a `DurableExecutionStore` reports. -/
structure DurableExecutionStore where
  supportsSingleUseAuthorization : Bool
  supportsUncertainEffectReconciliation : Bool

/-- `ClavenarClient`. -/
structure ClavenarClient [Crates] where
  baseUrl : String
  auth : Auth
  executionSigningKey : Option SigningKey
  toolExecutor : Option RegisteredToolExecutor
  durableExecutionStore : Option DurableExecutionStore

/-- An awaited operation of a call. -/
inductive Op where
  /-- `POST mcp`, for a decision. -/
  | postDecision (request : PostRequest)
  /-- `POST execution-receipts`. -/
  | postReceipt (request : PostRequest)
  /-- `RegisteredToolExecutor::execute`. -/
  | execute (request : ToolExecutionRequest)
  /-- `RegisteredToolExecutor::lookup_effect`, when a lookup is registered. -/
  | lookupEffect (request : EffectLookupRequest)
  | beginEffectAttempt (intent : ExecutionIntent) (authorizationUse : EffectAuthorizationUse)
  | loadUncertainIntent (authorizationId : Uuid)
  | commitEffectAndEnqueueReceipt (completion : ExecutionCompletion)
  | pendingReceipts (limit : ℕ)
  | markReceiptDelivered (outboxId : String) (recorded : ReceiptRecorded)

/-- The operations that deliver a receipt. -/
def delivers : Op → Bool
  | .postReceipt _ | .markReceiptDelivered _ _ => true
  | _ => false

/-- The answers to an operation. A failed request has the error that `reqwest` displays. -/
@[reducible] def Answer : Op → Type
  | .postDecision _ => Except String Response
  | .postReceipt _ => Except String Response
  | .execute _ => Except ClavenarError ExecutionEffect
  | .lookupEffect _ => Except ClavenarError EffectLookupOutcome
  | .beginEffectAttempt _ _ => Except ClavenarError EffectAttemptClaim
  | .loadUncertainIntent _ => Except ClavenarError (Option ExecutionIntent)
  | .commitEffectAndEnqueueReceipt _ => Except ClavenarError ReceiptOutboxEntry
  | .pendingReceipts _ => Except ClavenarError (List ReceiptOutboxEntry)
  | .markReceiptDelivered _ _ => Except ClavenarError Unit

/-- A call of the SDK. -/
abbrev Call (α : Type) : Type := Prog Op Answer ClavenarError α

/-- `require_single_use_store`. -/
def requireSingleUseStore (store : DurableExecutionStore) : Except ClavenarError Unit :=
  if !store.supportsSingleUseAuthorization then
    .error (.invalidConfig
      "durable execution store must support atomic single-use authorization claims")
  else .ok ()

/-- `require_uncertain_effect_store`. -/
def requireUncertainEffectStore (store : DurableExecutionStore) : Except ClavenarError Unit :=
  if !store.supportsUncertainEffectReconciliation then
    .error (.invalidConfig
      "durable execution store must atomically persist exact intent, authorization use, and an in-flight effect marker before decision network access")
  else .ok ()

variable [Crates]

/-- What governed execution needs of a client. -/
structure ExecutionDependencies where
  executor : RegisteredToolExecutor
  signingKey : SigningKey
  store : DurableExecutionStore

namespace ClavenarClient

/-- `execution_dependencies`. -/
def executionDependencies (client : ClavenarClient) :
    Except ClavenarError ExecutionDependencies := do
  let executor ← client.toolExecutor.elim
    (.error (.invalidConfig "tool_executor is required for SDK-governed execution")) .ok
  validateExecutorId executor.id
  let signingKey ← client.executionSigningKey.elim
    (.error (.invalidConfig "execution_signing_key is required for SDK-governed execution")) .ok
  let store ← client.durableExecutionStore.elim
    (.error (.invalidConfig "durable_execution_store is required for SDK-governed execution")) .ok
  requireUncertainEffectStore store
  return { executor, signingKey, store }

end ClavenarClient

end ClavenarSdk
