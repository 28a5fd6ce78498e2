import ClavenarSdk.Serde
import ClavenarSdk.Execution.Records

/-!
# Wire form of the execution records

Serialization and deserialization of the records that are sent, received or stored, and the
proof that storing and reloading one of them changes nothing. The only exception is an
authorization with the diff `Some(null)`, which no decoded authorization has.
-/

namespace ClavenarSdk

/-- The snake-case name of a reason. -/
def UncertainEffectReason.wireName : UncertainEffectReason → String
  | .inFlightAfterPriorAttempt => "in_flight_after_prior_attempt"
  | .executorOutcomeUnknown => "executor_outcome_unknown"
  | .lookupNotRegistered => "lookup_not_registered"
  | .lookupUnavailable => "lookup_unavailable"
  | .effectNotFound => "effect_not_found"
  | .lookupAmbiguous => "lookup_ambiguous"
  | .lookupInvalid => "lookup_invalid"
  | .durableIntentUnavailable => "durable_intent_unavailable"
  | .reconciledEffectPersistenceFailed => "reconciled_effect_persistence_failed"

/-- Every reason. -/
def UncertainEffectReason.all : List UncertainEffectReason :=
  [.inFlightAfterPriorAttempt, .executorOutcomeUnknown, .lookupNotRegistered, .lookupUnavailable,
    .effectNotFound, .lookupAmbiguous, .lookupInvalid, .durableIntentUnavailable,
    .reconciledEffectPersistenceFailed]

instance : Serialize UncertainEffectReason := ⟨fun reason => .string reason.wireName⟩

/-- The reason of a name. -/
def UncertainEffectReason.ofWireName (name : String) : Except DecodeError UncertainEffectReason :=
  match UncertainEffectReason.all.find? fun reason => reason.wireName = name with
  | some reason => .ok reason
  | none => .error .invalidValue

instance : Deserialize UncertainEffectReason where
  fromJson
    | .string name => UncertainEffectReason.ofWireName name
    -- A variant without contents is also read as an object with that variant as its only key.
    | .object [(name, .null)] => UncertainEffectReason.ofWireName name
    | _ => .error .invalidType

/-- A reason survives serialization. -/
@[simp] theorem uncertainEffectReason_roundTrips (reason : UncertainEffectReason) :
    fromJson (toJson reason) = .ok reason := by
  cases reason <;> rfl

/-! ### Requests -/

/-- The serialized form of `ModelToolCall`. -/
def ModelToolCall.serialize (call : ModelToolCall) : Json :=
  .object [
    ("id", toJson call.id),
    ("name", toJson call.name),
    ("arguments", toJson call.arguments)]

/-- Read `ModelToolCall`. -/
def ModelToolCall.deserialize (j : Json) : Except DecodeError ModelToolCall := do
  let members ← structMembers ["id", "name", "arguments"] j
  return {
    id := ← requiredField members "id"
    name := ← requiredField members "name"
    arguments := ← requiredField members "arguments" }

instance : Serialize ModelToolCall := ⟨ModelToolCall.serialize⟩

instance : Deserialize ModelToolCall := ⟨ModelToolCall.deserialize⟩

/-- A call survives serialization. -/
@[simp] theorem modelToolCall_roundTrips (call : ModelToolCall) :
    fromJson (toJson call) = .ok call := by
  change ModelToolCall.deserialize call.serialize = .ok call
  rw [ModelToolCall.deserialize, ModelToolCall.serialize,
    structMembers_object (by simp) (by simp)]
  simp

/-- The serialized form of `PreparedToolRequest`. -/
def PreparedToolRequest.serialize (prepared : PreparedToolRequest) : Json :=
  .object [
    ("idempotency_id", toJson prepared.idempotencyId),
    ("name", toJson prepared.name),
    ("arguments", toJson prepared.arguments)]

/-- Read `PreparedToolRequest`. -/
def PreparedToolRequest.deserialize (j : Json) : Except DecodeError PreparedToolRequest := do
  let members ← structMembers ["idempotency_id", "name", "arguments"] j
  return {
    idempotencyId := ← requiredField members "idempotency_id"
    name := ← requiredField members "name"
    arguments := ← requiredField members "arguments" }

instance : Serialize PreparedToolRequest := ⟨PreparedToolRequest.serialize⟩

instance : Deserialize PreparedToolRequest := ⟨PreparedToolRequest.deserialize⟩

/-- A prepared tool request survives serialization. -/
@[simp] theorem preparedToolRequest_roundTrips (prepared : PreparedToolRequest) :
    fromJson (toJson prepared) = .ok prepared := by
  change PreparedToolRequest.deserialize prepared.serialize = .ok prepared
  rw [PreparedToolRequest.deserialize, PreparedToolRequest.serialize,
    structMembers_object (by simp) (by simp)]
  simp

/-- The serialized form of `PreparedToolBatch`. -/
def PreparedToolBatch.serialize (prepared : PreparedToolBatch) : Json :=
  .object [
    ("idempotency_id", toJson prepared.idempotencyId),
    ("calls", toJson prepared.calls)]

/-- Read `PreparedToolBatch`. -/
def PreparedToolBatch.deserialize (j : Json) : Except DecodeError PreparedToolBatch := do
  let members ← structMembers ["idempotency_id", "calls"] j
  return {
    idempotencyId := ← requiredField members "idempotency_id"
    calls := ← requiredField members "calls" }

instance : Serialize PreparedToolBatch := ⟨PreparedToolBatch.serialize⟩

instance : Deserialize PreparedToolBatch := ⟨PreparedToolBatch.deserialize⟩

/-- A prepared batch survives serialization. -/
@[simp] theorem preparedToolBatch_roundTrips (prepared : PreparedToolBatch) :
    fromJson (toJson prepared) = .ok prepared := by
  change PreparedToolBatch.deserialize prepared.serialize = .ok prepared
  rw [PreparedToolBatch.deserialize, PreparedToolBatch.serialize,
    structMembers_object (by simp) (by simp)]
  simp [list_roundTrips]

/-- Read `AtomicBatchArguments`. -/
def AtomicBatchArguments.deserialize (j : Json) : Except DecodeError AtomicBatchArguments := do
  let members ← structMembers ["contract", "calls"] j
  return {
    contract := ← requiredField members "contract"
    calls := ← requiredField members "calls" }

instance : Deserialize AtomicBatchArguments := ⟨AtomicBatchArguments.deserialize⟩

/-- Read `AtomicBatchParams`. -/
def AtomicBatchParams.deserialize (j : Json) : Except DecodeError AtomicBatchParams := do
  let members ← structMembers ["name", "arguments"] j
  return {
    name := ← requiredField members "name"
    arguments := ← requiredField members "arguments" }

instance : Deserialize AtomicBatchParams := ⟨AtomicBatchParams.deserialize⟩

/-- Read `AtomicBatchEnvelope`. -/
def AtomicBatchEnvelope.deserialize (j : Json) : Except DecodeError AtomicBatchEnvelope := do
  let members ← structMembers ["jsonrpc", "id", "method", "params"] j
  return {
    jsonrpc := ← requiredField members "jsonrpc"
    id := ← requiredField members "id"
    method := ← requiredField members "method"
    params := ← requiredField members "params" }

instance : Deserialize AtomicBatchEnvelope := ⟨AtomicBatchEnvelope.deserialize⟩

/-! ### Authorizations -/

/-- The serialized form of `IdentitySignature`. -/
def IdentitySignature.serialize (signature : IdentitySignature) : Json :=
  .object [
    ("algorithm", toJson signature.algorithm),
    ("key_id", toJson signature.keyId),
    ("value", toJson signature.value)]

/-- Read `IdentitySignature`. -/
def IdentitySignature.deserialize (j : Json) : Except DecodeError IdentitySignature := do
  let members ← structMembers ["algorithm", "key_id", "value"] j
  return {
    algorithm := ← requiredField members "algorithm"
    keyId := ← requiredField members "key_id"
    value := ← requiredField members "value" }

instance : Serialize IdentitySignature := ⟨IdentitySignature.serialize⟩

instance : Deserialize IdentitySignature := ⟨IdentitySignature.deserialize⟩

/-- The signature of an authorization survives serialization. -/
@[simp] theorem identitySignature_roundTrips (signature : IdentitySignature) :
    fromJson (toJson signature) = .ok signature := by
  change IdentitySignature.deserialize signature.serialize = .ok signature
  rw [IdentitySignature.deserialize, IdentitySignature.serialize,
    structMembers_object (by simp) (by simp)]
  simp

/-- The serialized form of `PolicyBundleProvenance`. -/
def PolicyBundleProvenance.serialize (bundle : PolicyBundleProvenance) : Json :=
  .object [
    ("schema_version", toJson bundle.schemaVersion),
    ("version", toJson bundle.version),
    ("hash_sha256", toJson bundle.hashSha256),
    ("policy_count", toJson bundle.policyCount)]

/-- Read `PolicyBundleProvenance`. -/
def PolicyBundleProvenance.deserialize (j : Json) : Except DecodeError PolicyBundleProvenance := do
  let members ← structMembers ["schema_version", "version", "hash_sha256", "policy_count"] j
  return {
    schemaVersion := ← requiredField members "schema_version"
    version := ← requiredField members "version"
    hashSha256 := ← requiredField members "hash_sha256"
    policyCount := ← requiredField members "policy_count" }

instance : Serialize PolicyBundleProvenance := ⟨PolicyBundleProvenance.serialize⟩

instance : Deserialize PolicyBundleProvenance := ⟨PolicyBundleProvenance.deserialize⟩

/-- The provenance of a policy bundle survives serialization. -/
@[simp] theorem policyBundleProvenance_roundTrips (bundle : PolicyBundleProvenance) :
    fromJson (toJson bundle) = .ok bundle := by
  change PolicyBundleProvenance.deserialize bundle.serialize = .ok bundle
  rw [PolicyBundleProvenance.deserialize, PolicyBundleProvenance.serialize,
    structMembers_object (by simp) (by simp)]
  simp

/-- The serialized form of `Authorization`. -/
def Authorization.serialize (claims : Authorization) : Json :=
  .object ([
    ("contract", toJson claims.contract),
    ("stage", toJson claims.stage),
    ("authorization_id", toJson claims.authorizationId),
    ("idempotency_id", toJson claims.idempotencyId),
    ("correlation_id", toJson claims.correlationId),
    ("agent_id", toJson claims.agentId),
    ("agent_spiffe", toJson claims.agentSpiffe),
    ("tenant", toJson claims.tenant),
    ("credential_fingerprint", toJson claims.credentialFingerprint),
    ("method", toJson claims.method),
    ("tool_name", toJson claims.toolName),
    ("execution_payload", toJson claims.executionPayload),
    ("payload_sha256", toJson claims.payloadSha256),
    ("decision_principal", toJson claims.decisionPrincipal)] ++
    -- `skip_serializing_if = "Option::is_none"`
    (claims.modificationDiff.map fun v => ("modification_diff", toJson v)).toList ++ [
    ("policy_bundle", toJson claims.policyBundle),
    ("brain_version", toJson claims.brainVersion),
    ("brain_evidence_sha256", toJson claims.brainEvidenceSha256)])

/-- Read `Authorization`. -/
def Authorization.deserialize (j : Json) : Except DecodeError Authorization := do
  let members ← structMembers
    ["contract", "stage", "authorization_id", "idempotency_id", "correlation_id", "agent_id",
     "agent_spiffe", "tenant", "credential_fingerprint", "method", "tool_name",
     "execution_payload", "payload_sha256", "decision_principal", "modification_diff",
     "policy_bundle", "brain_version", "brain_evidence_sha256"] j
  return {
    contract := ← requiredField members "contract"
    stage := ← requiredField members "stage"
    authorizationId := ← requiredField members "authorization_id"
    idempotencyId := ← requiredField members "idempotency_id"
    correlationId := ← requiredField members "correlation_id"
    agentId := ← requiredField members "agent_id"
    agentSpiffe := ← requiredField members "agent_spiffe"
    tenant := ← requiredField members "tenant"
    credentialFingerprint := ← requiredField members "credential_fingerprint"
    method := ← requiredField members "method"
    toolName := ← requiredField members "tool_name"
    executionPayload := ← requiredField members "execution_payload"
    payloadSha256 := ← requiredField members "payload_sha256"
    decisionPrincipal := ← requiredField members "decision_principal"
    modificationDiff := ← optionalField members "modification_diff"
    policyBundle := ← requiredField members "policy_bundle"
    brainVersion := ← requiredField members "brain_version"
    brainEvidenceSha256 := ← requiredField members "brain_evidence_sha256" }

instance : Serialize Authorization := ⟨Authorization.serialize⟩

instance : Deserialize Authorization := ⟨Authorization.deserialize⟩

/-- The diff is absent or not `null`, as in every decoded authorization. -/
def Authorization.DiffDecoded (claims : Authorization) : Prop :=
  ∀ v, claims.modificationDiff = some v → v.json ≠ .null

/-- An authorization survives serialization, unless its diff is a `null` that no document holds. -/
theorem authorization_roundTrips {claims : Authorization} (h : claims.DiffDecoded) :
    fromJson (toJson claims) = .ok claims := by
  change Authorization.deserialize claims.serialize = .ok claims
  obtain ⟨_, _, _, _, _, _, _, _, _, _, _, _, _, _, modificationDiff, _, _, _⟩ := claims
  cases modificationDiff with
  | none =>
    rw [Authorization.deserialize, Authorization.serialize,
      structMembers_object (by simp) (by simp)]
    simp
  | some v =>
    have hnull : toJson v ≠ .null := h v rfl
    rw [Authorization.deserialize, Authorization.serialize,
      structMembers_object (by simp) (by simp)]
    simp [hnull]

/-- `null` is decoded as an absent diff. -/
theorem Authorization.diffDecoded_of_fromJson {j : Json} {claims : Authorization}
    (h : fromJson j = .ok claims) : claims.DiffDecoded := by
  change Authorization.deserialize j = .ok claims at h
  simp only [Authorization.deserialize, bind_eq_ok_iff] at h
  obtain ⟨members, -, _, -, _, -, _, -, _, -, _, -, _, -, _, -, _, -, _, -, _, -, _, -, _, -, _, -,
    _, -, diff, hdiff, _, -, _, -, _, -, hclaims⟩ := h
  obtain rfl := Except.ok.inj hclaims
  intro v hv
  obtain rfl : diff = some v := hv
  exact optionalField_value_ne_null hdiff

/-- The serialized form of `SignedAuthorization`. -/
def SignedAuthorization.serialize (signed : SignedAuthorization) : Json :=
  .object [
    ("authorization", toJson signed.authorization),
    ("identity_signature", toJson signed.identitySignature)]

/-- Read `SignedAuthorization`. -/
def SignedAuthorization.deserialize (j : Json) : Except DecodeError SignedAuthorization := do
  let members ← structMembers ["authorization", "identity_signature"] j
  return {
    authorization := ← requiredField members "authorization"
    identitySignature := ← requiredField members "identity_signature" }

instance : Serialize SignedAuthorization := ⟨SignedAuthorization.serialize⟩

instance : Deserialize SignedAuthorization := ⟨SignedAuthorization.deserialize⟩

/-- So does a signed authorization. -/
theorem signedAuthorization_roundTrips {signed : SignedAuthorization}
    (h : signed.authorization.DiffDecoded) : fromJson (toJson signed) = .ok signed := by
  change SignedAuthorization.deserialize signed.serialize = .ok signed
  rw [SignedAuthorization.deserialize, SignedAuthorization.serialize,
    structMembers_object (by simp) (by simp)]
  simp [authorization_roundTrips h]

/-- The diff of a signed authorization that was read is no `null`. -/
theorem SignedAuthorization.diffDecoded_of_fromJson {j : Json} {signed : SignedAuthorization}
    (h : fromJson j = .ok signed) : signed.authorization.DiffDecoded := by
  change SignedAuthorization.deserialize j = .ok signed at h
  simp only [SignedAuthorization.deserialize, bind_eq_ok_iff] at h
  obtain ⟨members, -, claims, hclaims, _, -, hsigned⟩ := h
  obtain rfl := Except.ok.inj hsigned
  unfold requiredField at hclaims
  cases hlookup : members.lookup "authorization" with
  | none => simp [hlookup] at hclaims
  | some v =>
    rw [hlookup] at hclaims
    exact Authorization.diffDecoded_of_fromJson hclaims

/-! ### Receipts -/

/-- The serialized form of `WorkloadSignature`. -/
def WorkloadSignature.serialize (signature : WorkloadSignature) : Json :=
  .object [
    ("algorithm", toJson signature.algorithm),
    ("credential_fingerprint", toJson signature.credentialFingerprint),
    ("value", toJson signature.value)]

/-- Read `WorkloadSignature`. -/
def WorkloadSignature.deserialize (j : Json) : Except DecodeError WorkloadSignature := do
  let members ← structMembers ["algorithm", "credential_fingerprint", "value"] j
  return {
    algorithm := ← requiredField members "algorithm"
    credentialFingerprint := ← requiredField members "credential_fingerprint"
    value := ← requiredField members "value" }

instance : Serialize WorkloadSignature := ⟨WorkloadSignature.serialize⟩

instance : Deserialize WorkloadSignature := ⟨WorkloadSignature.deserialize⟩

/-- The signature of a workload survives serialization. -/
@[simp] theorem workloadSignature_roundTrips (signature : WorkloadSignature) :
    fromJson (toJson signature) = .ok signature := by
  change WorkloadSignature.deserialize signature.serialize = .ok signature
  rw [WorkloadSignature.deserialize, WorkloadSignature.serialize,
    structMembers_object (by simp) (by simp)]
  simp

/-- The serialized form of `ExecutionReceipt`. -/
def ExecutionReceipt.serialize (receipt : ExecutionReceipt) : Json :=
  .object [
    ("contract", toJson receipt.contract),
    ("stage", toJson receipt.stage),
    ("authorization_id", toJson receipt.authorizationId),
    ("idempotency_id", toJson receipt.idempotencyId),
    ("correlation_id", toJson receipt.correlationId),
    ("agent_id", toJson receipt.agentId),
    ("agent_spiffe", toJson receipt.agentSpiffe),
    ("tenant", toJson receipt.tenant),
    ("credential_fingerprint", toJson receipt.credentialFingerprint),
    ("method", toJson receipt.method),
    ("payload_sha256", toJson receipt.payloadSha256),
    ("authorization", toJson receipt.authorization),
    ("result_sha256", toJson receipt.resultSha256),
    ("effect_id", toJson receipt.effectId),
    ("workload_signature", toJson receipt.workloadSignature)]

/-- Read `ExecutionReceipt`. -/
def ExecutionReceipt.deserialize (j : Json) : Except DecodeError ExecutionReceipt := do
  let members ← structMembers
    ["contract", "stage", "authorization_id", "idempotency_id", "correlation_id", "agent_id",
     "agent_spiffe", "tenant", "credential_fingerprint", "method", "payload_sha256",
     "authorization", "result_sha256", "effect_id", "workload_signature"] j
  return {
    contract := ← requiredField members "contract"
    stage := ← requiredField members "stage"
    authorizationId := ← requiredField members "authorization_id"
    idempotencyId := ← requiredField members "idempotency_id"
    correlationId := ← requiredField members "correlation_id"
    agentId := ← requiredField members "agent_id"
    agentSpiffe := ← requiredField members "agent_spiffe"
    tenant := ← requiredField members "tenant"
    credentialFingerprint := ← requiredField members "credential_fingerprint"
    method := ← requiredField members "method"
    payloadSha256 := ← requiredField members "payload_sha256"
    authorization := ← requiredField members "authorization"
    resultSha256 := ← requiredField members "result_sha256"
    effectId := ← requiredField members "effect_id"
    workloadSignature := ← requiredField members "workload_signature" }

instance : Serialize ExecutionReceipt := ⟨ExecutionReceipt.serialize⟩

instance : Deserialize ExecutionReceipt := ⟨ExecutionReceipt.deserialize⟩

/-- A receipt survives serialization if its authorization does. -/
theorem executionReceipt_roundTrips {receipt : ExecutionReceipt}
    (h : receipt.authorization.authorization.DiffDecoded) :
    fromJson (toJson receipt) = .ok receipt := by
  change ExecutionReceipt.deserialize receipt.serialize = .ok receipt
  rw [ExecutionReceipt.deserialize, ExecutionReceipt.serialize,
    structMembers_object (by simp) (by simp)]
  simp [signedAuthorization_roundTrips h]

/-- The serialized form of `ReceiptOutboxEntry`. -/
def ReceiptOutboxEntry.serialize (entry : ReceiptOutboxEntry) : Json :=
  .object [
    ("outbox_id", toJson entry.outboxId),
    ("receipt", toJson entry.receipt)]

/-- Read `ReceiptOutboxEntry`. -/
def ReceiptOutboxEntry.deserialize (j : Json) : Except DecodeError ReceiptOutboxEntry := do
  let members ← structMembers ["outbox_id", "receipt"] j
  return {
    outboxId := ← requiredField members "outbox_id"
    receipt := ← requiredField members "receipt" }

instance : Serialize ReceiptOutboxEntry := ⟨ReceiptOutboxEntry.serialize⟩

instance : Deserialize ReceiptOutboxEntry := ⟨ReceiptOutboxEntry.deserialize⟩

/-- An outbox entry survives serialization if its receipt does. -/
theorem receiptOutboxEntry_roundTrips {entry : ReceiptOutboxEntry}
    (h : entry.receipt.authorization.authorization.DiffDecoded) :
    fromJson (toJson entry) = .ok entry := by
  change ReceiptOutboxEntry.deserialize entry.serialize = .ok entry
  rw [ReceiptOutboxEntry.deserialize, ReceiptOutboxEntry.serialize,
    structMembers_object (by simp) (by simp)]
  simp [executionReceipt_roundTrips h]

/-- The serialized form of `UnsignedExecutionReceipt`. -/
def UnsignedExecutionReceipt.serialize (receipt : UnsignedExecutionReceipt) : Json :=
  .object [
    ("contract", toJson receipt.contract),
    ("stage", toJson receipt.stage),
    ("authorization_id", toJson receipt.authorizationId),
    ("idempotency_id", toJson receipt.idempotencyId),
    ("correlation_id", toJson receipt.correlationId),
    ("agent_id", toJson receipt.agentId),
    ("agent_spiffe", toJson receipt.agentSpiffe),
    ("tenant", toJson receipt.tenant),
    ("credential_fingerprint", toJson receipt.credentialFingerprint),
    ("method", toJson receipt.method),
    ("payload_sha256", toJson receipt.payloadSha256),
    ("authorization", toJson receipt.authorization),
    ("result_sha256", toJson receipt.resultSha256),
    ("effect_id", toJson receipt.effectId)]

instance : Serialize UnsignedExecutionReceipt := ⟨UnsignedExecutionReceipt.serialize⟩

/-- Read `ReceiptRecorded`. -/
def ReceiptRecorded.deserialize (j : Json) : Except DecodeError ReceiptRecorded := do
  let members ← structMembers
    ["status", "contract", "stage", "authorization_id", "receipt_sha256"] j
  return {
    status := ← requiredField members "status"
    contract := ← requiredField members "contract"
    stage := ← requiredField members "stage"
    authorizationId := ← requiredField members "authorization_id"
    receiptSha256 := ← requiredField members "receipt_sha256" }

instance : Deserialize ReceiptRecorded := ⟨ReceiptRecorded.deserialize⟩

/-! ### Handles -/

/-- The serialized form of `UncertainExecution`. -/
def UncertainExecution.serialize (uncertain : UncertainExecution) : Json :=
  .object [
    ("contract", toJson uncertain.contract),
    ("status", toJson uncertain.status),
    ("reason", toJson uncertain.reason),
    ("authorization_id", toJson uncertain.authorizationId),
    ("idempotency_id", toJson uncertain.idempotencyId),
    ("tenant", toJson uncertain.tenant),
    ("workload_id", toJson uncertain.workloadId),
    ("workload_spiffe", toJson uncertain.workloadSpiffe),
    ("payload_sha256", toJson uncertain.payloadSha256),
    ("executor_id", toJson uncertain.executorId),
    ("effect_lookup_registered", toJson uncertain.effectLookupRegistered)]

/-- Read `UncertainExecution`. -/
def UncertainExecution.deserialize (j : Json) : Except DecodeError UncertainExecution := do
  let members ← structMembers
    ["contract", "status", "reason", "authorization_id", "idempotency_id", "tenant",
     "workload_id", "workload_spiffe", "payload_sha256", "executor_id",
     "effect_lookup_registered"] j
  return {
    contract := ← requiredField members "contract"
    status := ← requiredField members "status"
    reason := ← requiredField members "reason"
    authorizationId := ← requiredField members "authorization_id"
    idempotencyId := ← requiredField members "idempotency_id"
    tenant := ← requiredField members "tenant"
    workloadId := ← requiredField members "workload_id"
    workloadSpiffe := ← requiredField members "workload_spiffe"
    payloadSha256 := ← requiredField members "payload_sha256"
    executorId := ← requiredField members "executor_id"
    effectLookupRegistered := ← requiredField members "effect_lookup_registered" }

instance : Serialize UncertainExecution := ⟨UncertainExecution.serialize⟩

instance : Deserialize UncertainExecution := ⟨UncertainExecution.deserialize⟩

/-- A handle of an uncertain execution survives serialization. -/
@[simp] theorem uncertainExecution_roundTrips (uncertain : UncertainExecution) :
    fromJson (toJson uncertain) = .ok uncertain := by
  change UncertainExecution.deserialize uncertain.serialize = .ok uncertain
  rw [UncertainExecution.deserialize, UncertainExecution.serialize,
    structMembers_object (by simp) (by simp)]
  simp

/-- The serialized form of `PendingAuthorization`. -/
def PendingAuthorization.serialize (pending : PendingAuthorization) : Json :=
  .object [
    ("contract", toJson pending.contract),
    ("status", toJson pending.status),
    ("pending_id", toJson pending.pendingId),
    ("idempotency_id", toJson pending.idempotencyId),
    ("correlation_id", toJson pending.correlationId),
    ("payload_sha256", toJson pending.payloadSha256),
    ("ttl_seconds", toJson pending.ttlSeconds),
    ("poll_after_ms", toJson pending.pollAfterMs)]

/-- Read `PendingAuthorization`. -/
def PendingAuthorization.deserialize (j : Json) : Except DecodeError PendingAuthorization := do
  let members ← structMembers
    ["contract", "status", "pending_id", "idempotency_id", "correlation_id", "payload_sha256",
     "ttl_seconds", "poll_after_ms"] j
  return {
    contract := ← requiredField members "contract"
    status := ← requiredField members "status"
    pendingId := ← requiredField members "pending_id"
    idempotencyId := ← requiredField members "idempotency_id"
    correlationId := ← requiredField members "correlation_id"
    payloadSha256 := ← requiredField members "payload_sha256"
    ttlSeconds := ← requiredField members "ttl_seconds"
    pollAfterMs := ← requiredField members "poll_after_ms" }

instance : Serialize PendingAuthorization := ⟨PendingAuthorization.serialize⟩

instance : Deserialize PendingAuthorization := ⟨PendingAuthorization.deserialize⟩

/-- A pending handle survives serialization. -/
@[simp] theorem pendingAuthorization_roundTrips (pending : PendingAuthorization) :
    fromJson (toJson pending) = .ok pending := by
  change PendingAuthorization.deserialize pending.serialize = .ok pending
  rw [PendingAuthorization.deserialize, PendingAuthorization.serialize,
    structMembers_object (by simp) (by simp)]
  simp

end ClavenarSdk
