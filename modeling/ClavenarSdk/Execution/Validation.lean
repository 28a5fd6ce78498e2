import ClavenarSdk.Execution.Wire
import ClavenarSdk.Http

/-!
# Envelopes and validation

The JSON-RPC envelopes that are authorized, and every check that `execution.rs` makes on
requests, authorizations, pending handles, effects, outbox entries and uncertain handles.
-/

namespace ClavenarSdk

/-- `canonical_json`. Converting a derived record to a value does not fail. -/
def canonicalJson {α : Type} [Serialize α] (record : α) : Except ClavenarError String :=
  .ok (canonicalJsonValue (Value.ofJson (toJson record)).json)

/-- The canonical text of a value. -/
def Value.canonical (v : Value) : String := canonicalJsonValue v.json

/-! ### Envelopes -/

/-- `tool_envelope`. -/
def toolEnvelope (idempotencyId : Uuid) (name : String) (arguments : Value) : Value :=
  .ofJson (.object [
    ("jsonrpc", .string "2.0"),
    ("id", .string idempotencyId.toText),
    ("method", .string "tools/call"),
    ("params", .object [("name", .string name), ("arguments", arguments.json)])])

/-- `atomic_batch_envelope`. -/
def atomicBatchEnvelope (idempotencyId : Uuid) (calls : List ModelToolCall) : Value :=
  .ofJson (.object [
    ("jsonrpc", .string "2.0"),
    ("id", .string idempotencyId.toText),
    ("method", .string atomicToolCallBatchMethod),
    ("params", .object [
      ("name", .string atomicToolCallBatchName),
      ("arguments", .object [
        ("contract", .string atomicToolCallBatchContract),
        ("calls", toJson calls)])])])

/-! ### Requests -/

/-- The loop of `validate_model_tool_calls`, after the calls with these ids. -/
def validateModelToolCallsAfter (ids : List String) :
    List ModelToolCall → Except ClavenarError Unit
  | [] => .ok ()
  | call :: calls =>
    if call.id = "" ∨ 256 < call.id.utf8ByteSize ∨ call.id ∈ ids then
      .error (.invalidConfig
        "atomic tool-call batch IDs must be unique and contain 1..=256 characters")
    else if call.name = "" ∨ 256 < call.name.utf8ByteSize then
      .error (.invalidConfig "atomic tool-call names must contain 1..=256 characters")
    else validateModelToolCallsAfter (call.id :: ids) calls

/-- `validate_model_tool_calls`. -/
def validateModelToolCalls (calls : List ModelToolCall) : Except ClavenarError Unit :=
  if calls = [] ∨ maxBatchCalls < calls.length then
    .error (.invalidConfig "atomic tool-call batch must contain 1..=128 calls")
  else validateModelToolCallsAfter [] calls

/-- `validate_tool_name`. -/
def validateToolName (name : String) : Except ClavenarError Unit :=
  if name = "" ∨ 256 < name.utf8ByteSize then
    .error (.invalidConfig "tool name must contain 1..=256 characters")
  else .ok ()

/-- `PreparedToolRequest::validate`. -/
def PreparedToolRequest.validate (prepared : PreparedToolRequest) : Except ClavenarError Unit :=
  validateToolName prepared.name

/-- `PreparedToolRequest::restore`. -/
def PreparedToolRequest.restore (idempotencyId : Uuid) (name : String) (arguments : Value) :
    Except ClavenarError PreparedToolRequest := do
  let prepared : PreparedToolRequest := ⟨idempotencyId, name, arguments⟩
  prepared.validate
  return prepared

/-- `PreparedToolBatch::validate`. -/
def PreparedToolBatch.validate (prepared : PreparedToolBatch) : Except ClavenarError Unit :=
  validateModelToolCalls prepared.calls

/-- `PreparedToolBatch::restore`. -/
def PreparedToolBatch.restore (idempotencyId : Uuid) (calls : List ModelToolCall) :
    Except ClavenarError PreparedToolBatch := do
  let prepared : PreparedToolBatch := ⟨idempotencyId, calls⟩
  prepared.validate
  return prepared

/-- `char::is_ascii_graphic`. -/
def isAsciiGraphic (c : Char) : Bool := 33 ≤ c.toNat && c.toNat ≤ 126

/-- `validate_executor_id`. -/
def validateExecutorId (executorId : String) : Except ClavenarError Unit :=
  if executorId = "" ∨ 256 < executorId.utf8ByteSize ∨
      ¬executorId.toList.all isAsciiGraphic then
    .error (.invalidConfig "executor identity must contain 1..=256 visible ASCII characters")
  else .ok ()

/-! ### Effects and outbox entries -/

/-- `validate_execution_effect`. -/
def validateExecutionEffect (effect : ExecutionEffect) : Except ClavenarError Unit :=
  if effect.effectId = "" ∨ 256 < effect.effectId.utf8ByteSize then
    .error (.invalidConfig "execution effect_id must contain 1..=256 characters")
  else .ok ()

/-- An effect is accepted exactly if its identity has 1 to 256 bytes. -/
theorem validateExecutionEffect_eq_ok_iff {effect : ExecutionEffect} :
    validateExecutionEffect effect = .ok () ↔
      effect.effectId ≠ "" ∧ effect.effectId.utf8ByteSize ≤ 256 := by
  simp [validateExecutionEffect, ite_eq_right_iff]

/-- `validate_outbox_entry`. -/
def validateOutboxEntry (entry : ReceiptOutboxEntry) : Except ClavenarError Unit :=
  if entry.outboxId = "" ∨ 256 < entry.outboxId.utf8ByteSize ∨
      entry.receipt.contract ≠ executionContract ∨
      entry.receipt.stage ≠ "execution.completed" ∨
      entry.receipt.workloadSignature.algorithm ≠ "ES256" then
    .error (.invalidConfig "durable execution store returned an invalid receipt outbox entry")
  else .ok ()

/-- An outbox entry is accepted exactly if its identity is bounded and its receipt has the contract,
the stage and the algorithm of the SDK. -/
theorem validateOutboxEntry_eq_ok_iff {entry : ReceiptOutboxEntry} :
    validateOutboxEntry entry = .ok () ↔
      entry.outboxId ≠ "" ∧ entry.outboxId.utf8ByteSize ≤ 256 ∧
      entry.receipt.contract = executionContract ∧
      entry.receipt.stage = "execution.completed" ∧
      entry.receipt.workloadSignature.algorithm = "ES256" := by
  simp [validateOutboxEntry, ite_eq_right_iff]

/-! ### Authorizations and handles -/

variable [Crates]

/-- `validate_authorization`. -/
def validateAuthorization (signed : SignedAuthorization) (idempotencyId : Uuid) :
    Except ClavenarError Unit :=
  let claims := signed.authorization
  let payloadSha256 := sha256 claims.executionPayload.canonical
  if claims.contract ≠ executionContract ∨ claims.stage ≠ "authorization" ∨
      claims.idempotencyId ≠ idempotencyId ∨ claims.payloadSha256 ≠ payloadSha256 ∨
      signed.identitySignature.algorithm ≠ "Ed25519" then
    .error (.invalidConfig "Proxy returned an invalid execution authorization")
  else .ok ()

/-- `validate_batch_authorization`. -/
def validateBatchAuthorization (signed : SignedAuthorization) (idempotencyId : Uuid)
    (requestedCalls : List ModelToolCall) (requestedPayload : Value) :
    Except ClavenarError Unit :=
  let invalid : ClavenarError :=
    .invalidConfig "Proxy returned an invalid atomic tool-call batch authorization"
  match AtomicBatchEnvelope.deserialize signed.authorization.executionPayload.json with
  | .error _ => .error invalid
  | .ok envelope => do
    validateModelToolCalls envelope.params.arguments.calls
    let requestedIds := requestedCalls.map ModelToolCall.id
    let authorizedIds := envelope.params.arguments.calls.map ModelToolCall.id
    if envelope.jsonrpc ≠ "2.0" ∨ envelope.id ≠ idempotencyId.toText ∨
        envelope.method ≠ atomicToolCallBatchMethod ∨
        envelope.params.name ≠ atomicToolCallBatchName ∨
        envelope.params.arguments.contract ≠ atomicToolCallBatchContract ∨
        authorizedIds ≠ requestedIds ∨
        (signed.authorization.modificationDiff = none ∧
          signed.authorization.executionPayload ≠ requestedPayload) then
      .error invalid
    else .ok ()

/-- `validate_pending_authorization`. -/
def validatePendingAuthorization (pending : PendingAuthorization) (idempotencyId : Uuid)
    (body : Value) : Except ClavenarError Unit :=
  let payloadSha256 := sha256 body.canonical
  if pending.contract ≠ pendingAuthorizationContract ∨ pending.status ≠ "pending" ∨
      pending.idempotencyId ≠ idempotencyId ∨ pending.pendingId.isNil ∨
      pending.correlationId.isNil ∨ pending.payloadSha256 ≠ payloadSha256 ∨
      pending.ttlSeconds ≤ 0 ∨ 86400 < pending.ttlSeconds ∨
      pending.pollAfterMs = 0 ∨ 60000 < pending.pollAfterMs then
    .error (.invalidConfig "Proxy returned an invalid pending authorization handle")
  else .ok ()

/-- `uncertain_from_intent`. -/
def uncertainFromIntent (intent : ExecutionIntent) (reason : UncertainEffectReason)
    (effectLookupRegistered : Bool) : UncertainExecution where
  contract := uncertainEffectContract
  status := "uncertain"
  reason := reason
  authorizationId := intent.authorizationId
  idempotencyId := intent.idempotencyId
  tenant := intent.tenant
  workloadId := intent.workloadId
  workloadSpiffe := intent.workloadSpiffe
  payloadSha256 := intent.payloadSha256
  executorId := intent.executorId
  effectLookupRegistered := effectLookupRegistered

/-- `uncertain_with_reason`. -/
def uncertainWithReason (uncertain : UncertainExecution) (reason : UncertainEffectReason)
    (effectLookupRegistered : Bool) : UncertainExecution :=
  { uncertain with reason, effectLookupRegistered }

/-- `validate_uncertain_execution`. -/
def validateUncertainExecution (uncertain : UncertainExecution) : Except ClavenarError Unit :=
  if uncertain.contract ≠ uncertainEffectContract ∨ uncertain.status ≠ "uncertain" ∨
      uncertain.authorizationId.isNil ∨ uncertain.idempotencyId.isNil ∨
      uncertain.tenant = "" ∨ uncertain.workloadId = "" ∨ uncertain.workloadSpiffe = "" ∨
      uncertain.payloadSha256.utf8ByteSize ≠ 71 ∨
      ¬"sha256:".toList.isPrefixOf uncertain.payloadSha256.toList then
    .error (.invalidConfig "invalid uncertain-effect reconciliation handle")
  else validateExecutorId uncertain.executorId

/-- `validate_uncertain_intent`. -/
def validateUncertainIntent (uncertain : UncertainExecution) (intent : ExecutionIntent) :
    Except ClavenarError Unit := do
  let claims := intent.authorization.authorization
  validateAuthorization intent.authorization intent.idempotencyId
  if intent.contract ≠ durableExecutionOutboxWireContract ∨
      intent.stage ≠ "execution.intent" ∨
      intent.authorizationId ≠ uncertain.authorizationId ∨
      intent.idempotencyId ≠ uncertain.idempotencyId ∨
      intent.tenant ≠ uncertain.tenant ∨
      intent.workloadId ≠ uncertain.workloadId ∨
      intent.workloadSpiffe ≠ uncertain.workloadSpiffe ∨
      intent.payloadSha256 ≠ uncertain.payloadSha256 ∨
      intent.executorId ≠ uncertain.executorId ∨
      claims.authorizationId ≠ intent.authorizationId ∨
      claims.idempotencyId ≠ intent.idempotencyId ∨
      claims.tenant ≠ intent.tenant ∨
      claims.agentId ≠ intent.workloadId ∨
      claims.agentSpiffe ≠ intent.workloadSpiffe ∨
      claims.payloadSha256 ≠ intent.payloadSha256 then
    .error (.invalidConfig
      "durable uncertain intent does not match its exact reconciliation handle")
  else .ok ()

/-! ### What passing a check means -/

/-- A signed authorization whose claims and digest bind it to the request with this id. -/
structure SignedAuthorization.Valid (signed : SignedAuthorization) (idempotencyId : Uuid) :
    Prop where
  contract : signed.authorization.contract = executionContract
  stage : signed.authorization.stage = "authorization"
  idempotencyId : signed.authorization.idempotencyId = idempotencyId
  payloadSha256 : signed.authorization.payloadSha256 =
    sha256 signed.authorization.executionPayload.canonical
  algorithm : signed.identitySignature.algorithm = "Ed25519"

/-- A valid authorization is valid for the identity that it names. -/
theorem SignedAuthorization.Valid.own {signed : SignedAuthorization} {idempotencyId : Uuid}
    (h : signed.Valid idempotencyId) : signed.Valid signed.authorization.idempotencyId := by
  rw [h.idempotencyId]
  exact h

/-- An authorization is accepted exactly if it is valid for the identity. -/
theorem validateAuthorization_eq_ok_iff {signed : SignedAuthorization} {idempotencyId : Uuid} :
    validateAuthorization signed idempotencyId = .ok () ↔ signed.Valid idempotencyId := by
  unfold validateAuthorization
  constructor
  · intro h
    simp only [ite_eq_right_iff, reduceCtorEq, imp_false, not_or, not_not] at h
    exact ⟨h.1, h.2.1, h.2.2.1, h.2.2.2.1, h.2.2.2.2⟩
  · intro h
    simp [h.contract, h.stage, h.idempotencyId, ← h.payloadSha256, h.algorithm]

/-- The intent and its authorization agree with the handle field by field. -/
structure UncertainExecution.Binds (uncertain : UncertainExecution) (intent : ExecutionIntent) :
    Prop where
  valid : intent.authorization.Valid intent.idempotencyId
  contract : intent.contract = durableExecutionOutboxWireContract
  stage : intent.stage = "execution.intent"
  authorizationId : intent.authorizationId = uncertain.authorizationId
  idempotencyId : intent.idempotencyId = uncertain.idempotencyId
  tenant : intent.tenant = uncertain.tenant
  workloadId : intent.workloadId = uncertain.workloadId
  workloadSpiffe : intent.workloadSpiffe = uncertain.workloadSpiffe
  payloadSha256 : intent.payloadSha256 = uncertain.payloadSha256
  executorId : intent.executorId = uncertain.executorId
  claimedAuthorizationId : intent.authorization.authorization.authorizationId =
    intent.authorizationId
  claimedTenant : intent.authorization.authorization.tenant = intent.tenant
  claimedAgentId : intent.authorization.authorization.agentId = intent.workloadId
  claimedAgentSpiffe : intent.authorization.authorization.agentSpiffe = intent.workloadSpiffe
  claimedPayloadSha256 : intent.authorization.authorization.payloadSha256 = intent.payloadSha256

/-- An intent is accepted for a handle exactly if the handle binds it. -/
theorem validateUncertainIntent_eq_ok_iff {uncertain : UncertainExecution}
    {intent : ExecutionIntent} :
    validateUncertainIntent uncertain intent = .ok () ↔ uncertain.Binds intent := by
  simp only [validateUncertainIntent, bind_eq_ok_iff, ite_eq_right_iff, reduceCtorEq, imp_false,
    not_or, not_not]
  constructor
  · rintro ⟨⟨⟩, hvalid, h1, h2, h3, h4, h5, h6, h7, h8, h9, h10, -, h12, h13, h14, h15⟩
    exact ⟨validateAuthorization_eq_ok_iff.mp hvalid, h1, h2, h3, h4, h5, h6, h7, h8, h9, h10, h12,
      h13, h14, h15⟩
  · intro h
    exact ⟨(), validateAuthorization_eq_ok_iff.mpr h.valid, h.contract, h.stage,
      h.authorizationId, h.idempotencyId, h.tenant, h.workloadId, h.workloadSpiffe,
      h.payloadSha256, h.executorId, h.claimedAuthorizationId,
      h.valid.idempotencyId, h.claimedTenant, h.claimedAgentId, h.claimedAgentSpiffe,
      h.claimedPayloadSha256⟩

end ClavenarSdk
