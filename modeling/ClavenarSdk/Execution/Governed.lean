import ClavenarSdk.Execution.Client

/-!
# Governed execution

The calls of `ClavenarClient` in `execution.rs`, with every awaited operation, every early
return and every error in the order of the source.
-/

namespace ClavenarSdk

open Interaction

/-- `KnownEffectCompletionError`. -/
inductive KnownEffectCompletionError where
  | persistenceUncertain
  | receiptDelivery (error : ClavenarError)

variable [Crates]

namespace ClavenarClient

/-! ### Receipt delivery -/

/-- `record_receipt`, from the response on. -/
def decodeReceiptRecorded (response : Response) : Except ClavenarError ReceiptRecorded := do
  let raw ← readTextLimited response
  if response.status ≠ 200 ∧ response.status ≠ 201 then
    .error (executionHttpError response.status raw)
  else fromStr raw

/-- `record_receipt`. -/
def recordReceipt (client : ClavenarClient) (receipt : ExecutionReceipt) :
    Call ReceiptRecorded :=
  match joinUrl client.baseUrl "execution-receipts" with
  | .error error => .fail (.invalidConfig ("join /execution-receipts: " ++ error))
  | .ok endpoint => .await (.postReceipt ⟨endpoint, [], client.auth.token, toJson receipt⟩) fun
    | .error error => .fail (.transport error)
    | .ok response => .lift (decodeReceiptRecorded response)

/-- `deliver_outbox_entry`. -/
def deliverOutboxEntry (client : ClavenarClient) (entry : ReceiptOutboxEntry) :
    Call ReceiptRecorded :=
  match validateOutboxEntry entry with
  | .error error => .fail error
  | .ok () => do
    let recorded ← client.recordReceipt entry.receipt
    if recorded.authorizationId ≠ entry.receipt.authorizationId ∨
        recorded.contract ≠ executionContract ∨ recorded.stage ≠ "execution.completed" then
      .fail (.invalidConfig "Proxy returned invalid receipt persistence metadata")
    else .await (.markReceiptDelivered entry.outboxId recorded) fun
      | .error error => .fail error
      | .ok () => pure recorded

/-! ### Completion of a known effect -/

/-- The unsigned receipt of `complete_known_effect`. -/
def unsignedReceipt (authorization : SignedAuthorization) (effect : ExecutionEffect) :
    UnsignedExecutionReceipt :=
  let claims := authorization.authorization
  { contract := executionContract
    stage := "execution.completed"
    authorizationId := claims.authorizationId
    idempotencyId := claims.idempotencyId
    correlationId := claims.correlationId
    agentId := claims.agentId
    agentSpiffe := claims.agentSpiffe
    tenant := claims.tenant
    credentialFingerprint := claims.credentialFingerprint
    method := claims.method
    payloadSha256 := claims.payloadSha256
    authorization := authorization
    resultSha256 := sha256 effect.result.canonical
    effectId := effect.effectId }

/-- The receipt of `complete_known_effect`, with the signature over `canonicalUnsigned`. -/
def signedReceipt (signingKey : SigningKey) (authorization : SignedAuthorization)
    (effect : ExecutionEffect) (canonicalUnsigned : String) : ExecutionReceipt :=
  let claims := authorization.authorization
  { contract := executionContract
    stage := "execution.completed"
    authorizationId := claims.authorizationId
    idempotencyId := claims.idempotencyId
    correlationId := claims.correlationId
    agentId := claims.agentId
    agentSpiffe := claims.agentSpiffe
    tenant := claims.tenant
    credentialFingerprint := claims.credentialFingerprint
    method := claims.method
    payloadSha256 := claims.payloadSha256
    authorization := authorization
    resultSha256 := sha256 effect.result.canonical
    effectId := effect.effectId
    workloadSignature := {
      algorithm := "ES256"
      credentialFingerprint := claims.credentialFingerprint
      value := base64UrlNoPad (sign signingKey canonicalUnsigned) } }

/-- The completion that `complete_known_effect` commits. -/
def completionOf (executorId : String) (authorization : SignedAuthorization)
    (effect : ExecutionEffect) (receipt : ExecutionReceipt) : ExecutionCompletion where
  contract := durableExecutionOutboxWireContract
  stage := "execution.effect-recorded"
  authorizationId := authorization.authorization.authorizationId
  idempotencyId := authorization.authorization.idempotencyId
  executorId := executorId
  actualResult := effect.result
  actualResultSha256 := sha256 effect.result.canonical
  effectId := effect.effectId
  receipt := receipt

/-- `complete_known_effect`. -/
def completeKnownEffect (client : ClavenarClient) (signingKey : SigningKey)
    (authorization : SignedAuthorization) (effect : ExecutionEffect) (executorId : String) :
    Prog Op Answer KnownEffectCompletionError ExecutionOutcome :=
  match canonicalJson (unsignedReceipt authorization effect) with
  | .error _ => .fail .persistenceUncertain
  | .ok canonicalUnsigned =>
    let receipt := signedReceipt signingKey authorization effect canonicalUnsigned
    .await (.commitEffectAndEnqueueReceipt
        (completionOf executorId authorization effect receipt)) fun
      | .error _ => .fail .persistenceUncertain
      | .ok queued =>
        if queued.receipt ≠ receipt then .fail .persistenceUncertain
        else do
          let recorded ← (client.deliverOutboxEntry queued).mapError .receiptDelivery
          return ⟨recorded, effect.result, effect.effectId⟩

/-! ### Execution of an authorization -/

/-- The intent of `execute_authorization`. -/
def intentOf (executorId : String) (authorization : SignedAuthorization) : ExecutionIntent where
  contract := durableExecutionOutboxWireContract
  stage := "execution.intent"
  authorizationId := authorization.authorization.authorizationId
  idempotencyId := authorization.authorization.idempotencyId
  tenant := authorization.authorization.tenant
  workloadId := authorization.authorization.agentId
  workloadSpiffe := authorization.authorization.agentSpiffe
  payloadSha256 := authorization.authorization.payloadSha256
  executorId := executorId
  authorization := authorization

/-- The input that `execute_authorization` gives to the executor. -/
def requestOf (executorId : String) (authorization : SignedAuthorization) :
    ToolExecutionRequest where
  idempotencyId := authorization.authorization.idempotencyId
  authorizationId := authorization.authorization.authorizationId
  executorId := executorId
  executionPayload := authorization.authorization.executionPayload

/-- `execute_authorization`, once the attempt was started. -/
def executeStarted (client : ClavenarClient) (executor : RegisteredToolExecutor)
    (signingKey : SigningKey) (authorization : SignedAuthorization)
    (uncertain : UncertainExecution) : Call ExecutionOutcome :=
  .await (.execute (requestOf executor.id authorization)) fun
    | .error _ => .fail (.executionUncertain uncertain)
    | .ok effect =>
      match validateExecutionEffect effect with
      | .error _ => .fail (.executionUncertain
          (uncertainWithReason uncertain .lookupInvalid executor.effectLookup))
      | .ok () =>
        (client.completeKnownEffect signingKey authorization effect executor.id).mapError fun
          | .persistenceUncertain => .executionUncertain uncertain
          | .receiptDelivery error => error

/-- `execute_authorization`. -/
def executeAuthorization (client : ClavenarClient) (executor : RegisteredToolExecutor)
    (signingKey : SigningKey) (authorization : SignedAuthorization) (singleUse : Bool) :
    Call ExecutionOutcome :=
  let intent := intentOf executor.id authorization
  let uncertain := uncertainFromIntent intent .executorOutcomeUnknown executor.effectLookup
  let authorizationUse : EffectAuthorizationUse := if singleUse then .singleUse else .direct
  .await (.beginEffectAttempt intent authorizationUse) fun
    | .error error => .fail error
    | .ok .alreadyInFlight => .fail (.executionUncertain
        (uncertainWithReason uncertain .inFlightAfterPriorAttempt executor.effectLookup))
    | .ok .alreadyCompleted => .fail (.executionAlreadyCompleted
        authorization.authorization.authorizationId authorization.authorization.idempotencyId)
    | .ok .started => client.executeStarted executor signingKey authorization uncertain

/-! ### Decisions -/

/-- `authorize_payload_state`, from the response on. -/
def decodeAuthorizationState (idempotencyId : Uuid) (body : Value)
    (pending : Option PendingAuthorization) (response : Response) :
    Except ClavenarError AuthorizationState := do
  let raw ← readTextLimited response
  if response.status = 202 then
    let pending : PendingAuthorization ← fromStr raw
    validatePendingAuthorization pending idempotencyId body
    return .pending pending
  else if response.status ≠ 200 then
    .error (executionHttpError response.status raw)
  else
    let authorization : SignedAuthorization ← fromStr raw
    validateAuthorization authorization idempotencyId
    if authorization.authorization.modificationDiff = none ∧
        authorization.authorization.executionPayload ≠ body then
      .error (.invalidConfig
        "Proxy returned an unmodified authorization for a different payload")
    else if pending.any
        (fun pending => authorization.authorization.correlationId ≠ pending.correlationId) then
      .error (.invalidConfig
        "Proxy returned an authorization for a different pending correlation")
    else return .authorized authorization

/-- The headers of a decision request. -/
def decisionHeaders (idempotencyId : Uuid) (pending : Option PendingAuthorization) :
    List (String × String) :=
  [(decisionContractHeader, decisionContract), (idempotencyIdHeader, idempotencyId.toText)] ++
  match pending with
  | none => []
  | some pending =>
    [(pendingIdHeader, pending.pendingId.toText),
      (pendingPayloadSha256Header, pending.payloadSha256)]

/-- `authorize_payload_state`. -/
def authorizePayloadState (client : ClavenarClient) (idempotencyId : Uuid) (body : Value)
    (pending : Option PendingAuthorization) : Call AuthorizationState :=
  match joinUrl client.baseUrl "mcp" with
  | .error error => .fail (.invalidConfig ("join /mcp: " ++ error))
  | .ok endpoint => .await (.postDecision
      ⟨endpoint, decisionHeaders idempotencyId pending, client.auth.token, body.json⟩) fun
    | .error error => .fail (.transport error)
    | .ok response => .lift (decodeAuthorizationState idempotencyId body pending response)

/-- `authorize_payload`. -/
def authorizePayload (client : ClavenarClient) (idempotencyId : Uuid) (body : Value) :
    Call SignedAuthorization := do
  match ← client.authorizePayloadState idempotencyId body none with
  | .authorized authorization => return authorization
  | .pending pending => .fail (.server 202 (toJson pending).text)

/-- `authorize_tool`. -/
def authorizeTool (client : ClavenarClient) (idempotencyId : Uuid) (name : String)
    (arguments : Value) : Call SignedAuthorization :=
  client.authorizePayload idempotencyId (toolEnvelope idempotencyId name arguments)

/-- `authorize_tool_batch`. -/
def authorizeToolBatch (client : ClavenarClient) (idempotencyId : Uuid)
    (calls : List ModelToolCall) : Call SignedAuthorization := do
  Prog.lift (validateModelToolCalls calls)
  let body := atomicBatchEnvelope idempotencyId calls
  let authorization ← client.authorizePayload idempotencyId body
  Prog.lift (validateBatchAuthorization authorization idempotencyId calls body)
  return authorization

/-- `authorize_prepared_tool`. -/
def authorizePreparedTool (client : ClavenarClient) (prepared : PreparedToolRequest) :
    Call SignedAuthorization := do
  Prog.lift prepared.validate
  client.authorizeTool prepared.idempotencyId prepared.name prepared.arguments

/-- `authorize_prepared_tool_batch`. -/
def authorizePreparedToolBatch (client : ClavenarClient) (prepared : PreparedToolBatch) :
    Call SignedAuthorization := do
  Prog.lift prepared.validate
  client.authorizeToolBatch prepared.idempotencyId prepared.calls

/-! ### Execute, begin and resume -/

/-- `execute_tool`. -/
def executeTool (client : ClavenarClient) (idempotencyId : Uuid) (name : String)
    (arguments : Value) : Call ExecutionOutcome := do
  let ⟨executor, signingKey, _⟩ ← Prog.lift client.executionDependencies
  let authorization ← client.authorizeTool idempotencyId name arguments
  client.executeAuthorization executor signingKey authorization false

/-- `execute_prepared_tool`. -/
def executePreparedTool (client : ClavenarClient) (prepared : PreparedToolRequest) :
    Call ExecutionOutcome := do
  Prog.lift prepared.validate
  client.executeTool prepared.idempotencyId prepared.name prepared.arguments

/-- `execute_tool_batch`. -/
def executeToolBatch (client : ClavenarClient) (idempotencyId : Uuid)
    (calls : List ModelToolCall) : Call ExecutionOutcome := do
  let ⟨executor, signingKey, _⟩ ← Prog.lift client.executionDependencies
  let authorization ← client.authorizeToolBatch idempotencyId calls
  client.executeAuthorization executor signingKey authorization false

/-- `execute_prepared_tool_batch`. -/
def executePreparedToolBatch (client : ClavenarClient) (prepared : PreparedToolBatch) :
    Call ExecutionOutcome := do
  Prog.lift prepared.validate
  client.executeToolBatch prepared.idempotencyId prepared.calls

/-- `begin_prepared_tool_execution`. -/
def beginPreparedToolExecution (client : ClavenarClient) (prepared : PreparedToolRequest) :
    Call ResumableExecutionOutcome := do
  Prog.lift prepared.validate
  let ⟨executor, signingKey, _⟩ ← Prog.lift client.executionDependencies
  let body := toolEnvelope prepared.idempotencyId prepared.name prepared.arguments
  match ← client.authorizePayloadState prepared.idempotencyId body none with
  | .pending pending => return .pending pending
  | .authorized authorization =>
    return .completed (← client.executeAuthorization executor signingKey authorization false)

/-- `resume_prepared_tool_execution`. -/
def resumePreparedToolExecution (client : ClavenarClient) (prepared : PreparedToolRequest)
    (pending : PendingAuthorization) : Call ResumableExecutionOutcome := do
  Prog.lift prepared.validate
  let ⟨executor, signingKey, store⟩ ← Prog.lift client.executionDependencies
  Prog.lift (requireSingleUseStore store)
  let body := toolEnvelope prepared.idempotencyId prepared.name prepared.arguments
  Prog.lift (validatePendingAuthorization pending prepared.idempotencyId body)
  match ← client.authorizePayloadState prepared.idempotencyId body (some pending) with
  | .pending retained =>
    if retained ≠ pending then
      .fail (.invalidConfig "Proxy changed the retained pending authorization handle")
    else return .pending retained
  | .authorized authorization =>
    return .completed (← client.executeAuthorization executor signingKey authorization true)

/-- `begin_prepared_tool_batch_execution`. -/
def beginPreparedToolBatchExecution (client : ClavenarClient) (prepared : PreparedToolBatch) :
    Call ResumableExecutionOutcome := do
  Prog.lift prepared.validate
  let ⟨executor, signingKey, _⟩ ← Prog.lift client.executionDependencies
  let body := atomicBatchEnvelope prepared.idempotencyId prepared.calls
  match ← client.authorizePayloadState prepared.idempotencyId body none with
  | .pending pending => return .pending pending
  | .authorized authorization =>
    Prog.lift (validateBatchAuthorization authorization prepared.idempotencyId prepared.calls body)
    return .completed (← client.executeAuthorization executor signingKey authorization false)

/-- `resume_prepared_tool_batch_execution`. -/
def resumePreparedToolBatchExecution (client : ClavenarClient) (prepared : PreparedToolBatch)
    (pending : PendingAuthorization) : Call ResumableExecutionOutcome := do
  Prog.lift prepared.validate
  let ⟨executor, signingKey, store⟩ ← Prog.lift client.executionDependencies
  Prog.lift (requireSingleUseStore store)
  let body := atomicBatchEnvelope prepared.idempotencyId prepared.calls
  Prog.lift (validatePendingAuthorization pending prepared.idempotencyId body)
  match ← client.authorizePayloadState prepared.idempotencyId body (some pending) with
  | .pending retained =>
    if retained ≠ pending then
      .fail (.invalidConfig "Proxy changed the retained pending authorization handle")
    else return .pending retained
  | .authorized authorization =>
    Prog.lift (validateBatchAuthorization authorization prepared.idempotencyId prepared.calls body)
    return .completed (← client.executeAuthorization executor signingKey authorization true)

/-! ### Recovery -/

/-- The loop of `flush_execution_receipt_outbox`, with the number delivered so far. -/
def deliverEntries (client : ClavenarClient) (delivered : ℕ) :
    List ReceiptOutboxEntry → Call ℕ
  | [] => pure delivered
  | entry :: entries => do
    let _ ← client.deliverOutboxEntry entry
    client.deliverEntries (delivered + 1) entries

/-- `flush_execution_receipt_outbox`. -/
def flushExecutionReceiptOutbox (client : ClavenarClient) (limit : ℕ) : Call ℕ :=
  if limit = 0 ∨ maxOutboxFlush < limit then
    .fail (.invalidConfig "receipt outbox flush limit must contain 1..=128 entries")
  else match client.durableExecutionStore with
    | none => .fail (.invalidConfig
        "durable_execution_store is required for receipt outbox delivery")
    | some _ => .await (.pendingReceipts limit) fun
      | .error error => .fail error
      | .ok pending =>
        if limit < pending.length then
          .fail (.invalidConfig "durable execution store exceeded the requested outbox limit")
        else client.deliverEntries 0 pending

/-- `reconcile_uncertain_effect`, from the effect that the lookup found on. -/
def reconcileFound (client : ClavenarClient) (executor : RegisteredToolExecutor)
    (signingKey : SigningKey) (uncertain : UncertainExecution) (intent : ExecutionIntent)
    (effect : ExecutionEffect) : Call ExecutionReconciliationOutcome :=
  match validateExecutionEffect effect with
  | .error _ => pure (.uncertain (uncertainWithReason uncertain .lookupInvalid true))
  | .ok () =>
    (client.completeKnownEffect signingKey intent.authorization effect executor.id).andThen fun
      | .ok completed => pure (.completed completed)
      | .error .persistenceUncertain => pure (.uncertain
          (uncertainWithReason uncertain .reconciledEffectPersistenceFailed true))
      | .error (.receiptDelivery error) => .fail error

/-- The query that `reconcile_uncertain_effect` gives to the effect lookup. -/
def lookupOf (intent : ExecutionIntent) : EffectLookupRequest where
  authorizationId := intent.authorizationId
  idempotencyId := intent.idempotencyId
  executorId := intent.executorId
  payloadSha256 := intent.payloadSha256

/-- `reconcile_uncertain_effect`, from the stored intent on. -/
def reconcileIntent (client : ClavenarClient) (executor : RegisteredToolExecutor)
    (signingKey : SigningKey) (uncertain : UncertainExecution) (intent : ExecutionIntent) :
    Call ExecutionReconciliationOutcome :=
  match validateUncertainIntent uncertain intent with
  | .error _ => pure (.uncertain
      (uncertainWithReason uncertain .lookupInvalid executor.effectLookup))
  | .ok () =>
    if !executor.effectLookup then
      pure (.uncertain (uncertainWithReason uncertain .lookupNotRegistered false))
    else .await (.lookupEffect (lookupOf intent)) fun
      | .error _ => pure (.uncertain (uncertainWithReason uncertain .lookupUnavailable true))
      | .ok .notFound => pure (.uncertain (uncertainWithReason uncertain .effectNotFound true))
      | .ok .ambiguous => pure (.uncertain (uncertainWithReason uncertain .lookupAmbiguous true))
      | .ok (.found effect) =>
        client.reconcileFound executor signingKey uncertain intent effect

/-- `reconcile_uncertain_effect`. -/
def reconcileUncertainEffect (client : ClavenarClient) (uncertain : UncertainExecution) :
    Call ExecutionReconciliationOutcome := do
  Prog.lift (validateUncertainExecution uncertain)
  let ⟨executor, signingKey, _⟩ ← Prog.lift client.executionDependencies
  if executor.id ≠ uncertain.executorId then
    .fail (.invalidConfig "uncertain effect is bound to a different registered executor")
  else .await (.loadUncertainIntent uncertain.authorizationId) fun
    | .error _ | .ok none => pure (.uncertain
        (uncertainWithReason uncertain .durableIntentUnavailable executor.effectLookup))
    | .ok (some intent) => client.reconcileIntent executor signingKey uncertain intent

/-! ### Settling an effect -/

/-- The receipt that is signed for an effect. -/
def receiptOf (signingKey : SigningKey) (authorization : SignedAuthorization)
    (effect : ExecutionEffect) : ExecutionReceipt :=
  signedReceipt signingKey authorization effect
    (canonicalJsonValue (Value.ofJson (toJson (unsignedReceipt authorization effect))).json)

/-- A delivery consists of posts and marks. -/
theorem deliverOutboxEntry_delivers (client : ClavenarClient) (entry : ReceiptOutboxEntry)
    (history : List (Event Answer)) :
    Prog.Always (fun _ op => delivers op = true) (fun _ _ => True) history
      (client.deliverOutboxEntry entry) := by
  unfold deliverOutboxEntry
  cases validateOutboxEntry entry with
  | error error => simp
  | ok _ =>
    simp only [recordReceipt, Prog.always_bind]
    cases joinUrl client.baseUrl "execution-receipts" with
    | error error => simp
    | ok endpoint =>
      refine ⟨rfl, fun answer => ?_⟩
      cases answer with
      | error error => simp
      | ok response =>
        simp only [Prog.always_lift]
        cases decodeReceiptRecorded response with
        | error error => simp
        | ok recorded =>
          simp only
          split_ifs
          · simp
          · exact ⟨rfl, fun answer => by cases answer <;> simp⟩

/-- Completing a known effect commits one completion and delivers its receipt. -/
theorem completeKnownEffect_always {client : ClavenarClient} {signingKey : SigningKey}
    {authorization : SignedAuthorization} {effect : ExecutionEffect} {executorId : String}
    {history : List (Event Answer)} {guard : List (Event Answer) → Op → Prop}
    (hcommit : guard history (.commitEffectAndEnqueueReceipt (completionOf executorId authorization
      effect (receiptOf signingKey authorization effect))))
    (hdelivers : ∀ history op, delivers op = true → guard history op) :
    Prog.Always guard (fun _ _ => True) history
      (client.completeKnownEffect signingKey authorization effect executorId) := by
  simp only [completeKnownEffect, canonicalJson]
  refine ⟨hcommit, fun answer => ?_⟩
  cases answer with
  | error error => simp
  | ok queued =>
    simp only
    split_ifs
    · simp
    rw [Prog.always_bind, Prog.always_mapError]
    refine (client.deliverOutboxEntry_delivers queued _).mono hdelivers ?_
    intro history' result _
    cases result <;> simp [Except.mapError]

/-- A started execution invokes the executor once, before it completes the effect. -/
theorem executeStarted_always {client : ClavenarClient} {executor : RegisteredToolExecutor}
    {signingKey : SigningKey} {authorization : SignedAuthorization}
    {uncertain : UncertainExecution} {history : List (Event Answer)}
    {guard : List (Event Answer) → Op → Prop}
    (hexecute : guard history (.execute (requestOf executor.id authorization)))
    (hcommit : ∀ history effect, guard history (.commitEffectAndEnqueueReceipt (completionOf
      executor.id authorization effect (receiptOf signingKey authorization effect))))
    (hdelivers : ∀ history op, delivers op = true → guard history op) :
    Prog.Always guard (fun _ _ => True) history
      (client.executeStarted executor signingKey authorization uncertain) := by
  refine ⟨hexecute, fun answer => ?_⟩
  cases answer with
  | error error => simp
  | ok effect =>
    cases hvalid : validateExecutionEffect effect with
    | error error => simp [hvalid]
    | ok _ =>
      simp only [hvalid, Prog.always_mapError]
      exact completeKnownEffect_always (hcommit _ _) hdelivers

/-- An execution begins its attempt, and goes on only if the store starts it. -/
theorem executeAuthorization_always {client : ClavenarClient} {executor : RegisteredToolExecutor}
    {signingKey : SigningKey} {authorization : SignedAuthorization} {singleUse : Bool}
    {history : List (Event Answer)} {guard : List (Event Answer) → Op → Prop}
    (hbegin : guard history (.beginEffectAttempt (intentOf executor.id authorization)
      (if singleUse then .singleUse else .direct)))
    (hstarted : Prog.Always guard (fun _ _ => True)
      (history ++ [⟨.beginEffectAttempt (intentOf executor.id authorization)
        (if singleUse then .singleUse else .direct), .ok .started⟩])
      (client.executeStarted executor signingKey authorization (uncertainFromIntent
        (intentOf executor.id authorization) .executorOutcomeUnknown executor.effectLookup))) :
    Prog.Always guard (fun _ _ => True) history
      (client.executeAuthorization executor signingKey authorization singleUse) := by
  refine ⟨hbegin, fun claim => ?_⟩
  match claim with
  | .error error => simp
  | .ok .alreadyInFlight => simp
  | .ok .alreadyCompleted => simp
  | .ok .started => exact hstarted

/-- A reconciliation queries the lookup once for the stored intent, before it completes the
effect that was found. -/
theorem reconcileIntent_always {client : ClavenarClient} {executor : RegisteredToolExecutor}
    {signingKey : SigningKey} {uncertain : UncertainExecution} {intent : ExecutionIntent}
    {history : List (Event Answer)} {guard : List (Event Answer) → Op → Prop}
    (hlookup : guard history (.lookupEffect (lookupOf intent)))
    (hcommit : uncertain.Binds intent → ∀ history effect,
      guard history (.commitEffectAndEnqueueReceipt (completionOf executor.id
        intent.authorization effect (receiptOf signingKey intent.authorization effect))))
    (hdelivers : ∀ history op, delivers op = true → guard history op) :
    Prog.Always guard (fun _ _ => True) history
      (client.reconcileIntent executor signingKey uncertain intent) := by
  unfold reconcileIntent
  cases hbinds : validateUncertainIntent uncertain intent with
  | error error => simp
  | ok _ =>
    simp only
    split_ifs
    · simp
    refine ⟨hlookup, fun answer => ?_⟩
    match answer with
    | .error error => simp
    | .ok .notFound => simp
    | .ok .ambiguous => simp
    | .ok (.found effect) =>
      simp only [reconcileFound]
      cases validateExecutionEffect effect with
      | error error => simp
      | ok _ =>
        simp only [Prog.always_andThen]
        refine (completeKnownEffect_always (hcommit (validateUncertainIntent_eq_ok_iff.mp hbinds)
          _ _) hdelivers).mono (fun _ _ => id) fun history' result _ => ?_
        match result with
        | .ok _ => simp
        | .error .persistenceUncertain => simp
        | .error (.receiptDelivery error) => simp

/-- So does the loop over the entries. -/
theorem deliverEntries_delivers (client : ClavenarClient) (entries : List ReceiptOutboxEntry)
    (delivered : ℕ) (history : List (Event Answer)) :
    Prog.Always (fun _ op => delivers op = true) (fun _ _ => True) history
      (client.deliverEntries delivered entries) := by
  induction entries generalizing delivered history with
  | nil => simp [deliverEntries]
  | cons entry entries ih =>
    rw [deliverEntries, Prog.always_bind]
    refine (client.deliverOutboxEntry_delivers entry history).mono (fun _ _ => id) ?_
    intro history' result _
    cases result with
    | error error => trivial
    | ok _ => exact ih _ _

/-- A flush lists the outbox once, and then only delivers. -/
theorem flushExecutionReceiptOutbox_always {client : ClavenarClient} {limit : ℕ}
    {history : List (Event Answer)} {guard : List (Event Answer) → Op → Prop}
    (hlist : guard history (.pendingReceipts limit))
    (hdelivers : ∀ history op, delivers op = true → guard history op) :
    Prog.Always guard (fun _ _ => True) history (client.flushExecutionReceiptOutbox limit) := by
  unfold flushExecutionReceiptOutbox
  split_ifs
  · simp
  cases client.durableExecutionStore with
  | none => simp
  | some store =>
    refine ⟨hlist, fun answer => ?_⟩
    cases answer with
    | error error => simp
    | ok pending =>
      simp only
      split_ifs
      · simp
      exact (deliverEntries_delivers client pending 0 _).mono hdelivers (fun _ _ => id)

/-! ### A run that completes -/

/-- The entry is delivered when the Proxy confirms its receipt and the store marks it. -/
theorem deliverOutboxEntry_completed {client : ClavenarClient} {entry : ReceiptOutboxEntry}
    {endpoint : String} {response : Response} {recorded : ReceiptRecorded}
    (hentry : validateOutboxEntry entry = .ok ())
    (hjoin : joinUrl client.baseUrl "execution-receipts" = .ok endpoint)
    (hrecorded : decodeReceiptRecorded response = .ok recorded)
    (hid : recorded.authorizationId = entry.receipt.authorizationId)
    (hcontract : recorded.contract = executionContract)
    (hstage : recorded.stage = "execution.completed") :
    (client.deliverOutboxEntry entry).Returns
      [⟨.postReceipt ⟨endpoint, [], client.auth.token, toJson entry.receipt⟩, .ok response⟩,
        ⟨.markReceiptDelivered entry.outboxId recorded, .ok ()⟩] (.ok recorded) := by
  simp only [deliverOutboxEntry, hentry, recordReceipt, hjoin, Prog.await_bind]
  refine Prog.returns_await_iff.mpr ⟨.ok response, _, rfl, ?_⟩
  simp only [hrecorded, Prog.lift_ok, Prog.done_ok_bind, hid, hcontract, hstage, ne_eq, not_true,
    or_self, if_false]
  exact Prog.returns_await_iff.mpr ⟨.ok (), [], rfl, Prog.returns_done_iff.mpr ⟨rfl, rfl⟩⟩

/-- An execution ends as the delivery of its receipt does, when its attempt is started, the
effect is valid and the store commits it. -/
theorem executeAuthorization_delivered {client : ClavenarClient}
    {executor : RegisteredToolExecutor} {signingKey : SigningKey}
    {authorization : SignedAuthorization} {singleUse : Bool} {effect : ExecutionEffect}
    {entry : ReceiptOutboxEntry} {delivery : List (Event Answer)}
    {result : Except ClavenarError ReceiptRecorded}
    (heffect : validateExecutionEffect effect = .ok ())
    (hentry : entry.receipt = receiptOf signingKey authorization effect)
    (hdelivery : (client.deliverOutboxEntry entry).Returns delivery result) :
    (client.executeAuthorization executor signingKey authorization singleUse).Returns
      (⟨.beginEffectAttempt (intentOf executor.id authorization)
          (if singleUse then .singleUse else .direct), .ok .started⟩ ::
        ⟨.execute (requestOf executor.id authorization), .ok effect⟩ ::
        ⟨.commitEffectAndEnqueueReceipt (completionOf executor.id authorization effect
          (receiptOf signingKey authorization effect)), .ok entry⟩ :: delivery)
      ((fun recorded => ⟨recorded, effect.result, effect.effectId⟩) <$> result) := by
  refine Prog.returns_await_iff.mpr ⟨.ok .started, _, rfl, ?_⟩
  refine Prog.returns_await_iff.mpr ⟨.ok effect, _, rfl, ?_⟩
  simp only [heffect, completeKnownEffect, canonicalJson, Prog.mapError_await]
  refine Prog.returns_await_iff.mpr ⟨.ok entry, _, rfl, ?_⟩
  have hreceipt : entry.receipt = signedReceipt signingKey authorization effect
      (canonicalJsonValue (Value.ofJson (toJson (unsignedReceipt authorization effect))).json) :=
    hentry
  simp only [hreceipt, ne_eq, not_true, if_false]
  refine Prog.returns_mapError_iff.mpr ⟨_, Prog.returns_bind_pure_iff.mpr
    ⟨_, Prog.returns_mapError_iff.mpr ⟨_, hdelivery, rfl⟩, rfl⟩, ?_⟩
  cases result with
  | error error => rfl
  | ok recorded => rfl

end ClavenarClient

end ClavenarSdk
