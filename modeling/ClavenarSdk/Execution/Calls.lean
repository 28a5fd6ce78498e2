import ClavenarSdk.Execution.Governed

/-!
# The calls of the execution API

The eight calls that can invoke the executor have one shape: local checks, one decision
request, local checks of the answer, and the execution of the authorization. The shape is
proved here once. Reconciliation and outbox delivery complete the API.
-/

namespace ClavenarSdk

open Interaction

/-- A call that can invoke the executor. -/
inductive GovernedCall where
  | executeTool (idempotencyId : Uuid) (name : String) (arguments : Value)
  | executePreparedTool (prepared : PreparedToolRequest)
  | executeToolBatch (idempotencyId : Uuid) (calls : List ModelToolCall)
  | executePreparedToolBatch (prepared : PreparedToolBatch)
  | beginPreparedToolExecution (prepared : PreparedToolRequest)
  | resumePreparedToolExecution (prepared : PreparedToolRequest) (pending : PendingAuthorization)
  | beginPreparedToolBatchExecution (prepared : PreparedToolBatch)
  | resumePreparedToolBatchExecution (prepared : PreparedToolBatch)
      (pending : PendingAuthorization)

/-- A call of the execution API. -/
inductive ApiCall where
  | governed (call : GovernedCall)
  | reconcileUncertainEffect (uncertain : UncertainExecution)
  | flushExecutionReceiptOutbox (limit : ℕ)

/-- What a call of the execution API returns. -/
inductive ApiResult where
  | executed (outcome : ExecutionOutcome)
  | resumable (outcome : ResumableExecutionOutcome)
  | reconciled (outcome : ExecutionReconciliationOutcome)
  | flushed (delivered : ℕ)
  deriving DecidableEq

variable [Crates]

/-- The call on a client. -/
def GovernedCall.run (client : ClavenarClient) : GovernedCall → Call ApiResult
  | .executeTool idempotencyId name arguments => do
    return .executed (← client.executeTool idempotencyId name arguments)
  | .executePreparedTool prepared => do
    return .executed (← client.executePreparedTool prepared)
  | .executeToolBatch idempotencyId calls => do
    return .executed (← client.executeToolBatch idempotencyId calls)
  | .executePreparedToolBatch prepared => do
    return .executed (← client.executePreparedToolBatch prepared)
  | .beginPreparedToolExecution prepared => do
    return .resumable (← client.beginPreparedToolExecution prepared)
  | .resumePreparedToolExecution prepared pending => do
    return .resumable (← client.resumePreparedToolExecution prepared pending)
  | .beginPreparedToolBatchExecution prepared => do
    return .resumable (← client.beginPreparedToolBatchExecution prepared)
  | .resumePreparedToolBatchExecution prepared pending => do
    return .resumable (← client.resumePreparedToolBatchExecution prepared pending)

/-- The call on a client. -/
def ApiCall.run (client : ClavenarClient) : ApiCall → Call ApiResult
  | .governed call => call.run client
  | .reconcileUncertainEffect uncertain => do
    return .reconciled (← client.reconcileUncertainEffect uncertain)
  | .flushExecutionReceiptOutbox limit => do
    return .flushed (← client.flushExecutionReceiptOutbox limit)

/-! ### The parts of a governed call -/

/-- What a governed call asks for. -/
inductive Requested where
  | tool (name : String) (arguments : Value)
  | batch (calls : List ModelToolCall)

/-- The envelope that is sent for authorization. -/
def Requested.envelope (idempotencyId : Uuid) : Requested → Value
  | .tool name arguments => toolEnvelope idempotencyId name arguments
  | .batch calls => atomicBatchEnvelope idempotencyId calls

/-- The checks of a prepared request. -/
def Requested.validate : Requested → Except ClavenarError Unit
  | .tool name _ => validateToolName name
  | .batch calls => validateModelToolCalls calls

/-- The additional check of a batch authorization. -/
def Requested.accept (idempotencyId : Uuid) (authorization : SignedAuthorization) :
    Requested → Except ClavenarError Unit
  | .tool _ _ => .ok ()
  | .batch calls => validateBatchAuthorization authorization idempotencyId calls
      (atomicBatchEnvelope idempotencyId calls)

namespace GovernedCall

/-- The identity of the request. -/
def idempotencyId : GovernedCall → Uuid
  | .executeTool idempotencyId _ _ | .executeToolBatch idempotencyId _ => idempotencyId
  | .executePreparedTool prepared | .beginPreparedToolExecution prepared
  | .resumePreparedToolExecution prepared _ => prepared.idempotencyId
  | .executePreparedToolBatch prepared | .beginPreparedToolBatchExecution prepared
  | .resumePreparedToolBatchExecution prepared _ => prepared.idempotencyId

/-- What the call asks for. -/
def requested : GovernedCall → Requested
  | .executeTool _ name arguments => .tool name arguments
  | .executeToolBatch _ calls => .batch calls
  | .executePreparedTool prepared | .beginPreparedToolExecution prepared
  | .resumePreparedToolExecution prepared _ => .tool prepared.name prepared.arguments
  | .executePreparedToolBatch prepared | .beginPreparedToolBatchExecution prepared
  | .resumePreparedToolBatchExecution prepared _ => .batch prepared.calls

/-- The envelope that is sent for authorization. -/
def envelope (call : GovernedCall) : Value := call.requested.envelope call.idempotencyId

/-- The handle that is resumed. -/
def pending : GovernedCall → Option PendingAuthorization
  | .resumePreparedToolExecution _ pending | .resumePreparedToolBatchExecution _ pending =>
    some pending
  | _ => none

/-- Whether a pending decision is a result rather than an error. -/
def resumable : GovernedCall → Bool
  | .executeTool .. | .executePreparedTool _ | .executeToolBatch .. | .executePreparedToolBatch _ =>
    false
  | _ => true

/-- The local checks before the decision request, in the order of the source. -/
def gate (client : ClavenarClient) : GovernedCall → Except ClavenarError ExecutionDependencies
  | .executeTool .. => client.executionDependencies
  | .executePreparedTool prepared | .beginPreparedToolExecution prepared => do
    prepared.validate
    client.executionDependencies
  | .executeToolBatch _ calls => do
    let dependencies ← client.executionDependencies
    validateModelToolCalls calls
    return dependencies
  | .executePreparedToolBatch prepared => do
    prepared.validate
    let dependencies ← client.executionDependencies
    validateModelToolCalls prepared.calls
    return dependencies
  | .beginPreparedToolBatchExecution prepared => do
    prepared.validate
    client.executionDependencies
  | .resumePreparedToolExecution prepared pending => do
    prepared.validate
    let dependencies ← client.executionDependencies
    requireSingleUseStore dependencies.store
    validatePendingAuthorization pending prepared.idempotencyId
      (toolEnvelope prepared.idempotencyId prepared.name prepared.arguments)
    return dependencies
  | .resumePreparedToolBatchExecution prepared pending => do
    prepared.validate
    let dependencies ← client.executionDependencies
    requireSingleUseStore dependencies.store
    validatePendingAuthorization pending prepared.idempotencyId
      (atomicBatchEnvelope prepared.idempotencyId prepared.calls)
    return dependencies

/-- What becomes of a pending decision. -/
def onPending (call : GovernedCall) (retained : PendingAuthorization) :
    Except ClavenarError ApiResult :=
  if !call.resumable then .error (.server 202 (toJson retained).text)
  else if call.pending.any (fun pending => retained ≠ pending) then
    .error (.invalidConfig "Proxy changed the retained pending authorization handle")
  else .ok (.resumable (.pending retained))

/-- The result of a call whose execution completed. -/
def onCompleted (call : GovernedCall) (outcome : ExecutionOutcome) : ApiResult :=
  if call.resumable then .resumable (.completed outcome) else .executed outcome

/-- What the answer to the decision request leads to: an error, a result without an
execution, or an authorization to execute. -/
def decide (call : GovernedCall) (answer : Except String Response) :
    Except ClavenarError (ApiResult ⊕ SignedAuthorization) := do
  let response ← answer.mapError .transport
  match ← ClavenarClient.decodeAuthorizationState call.idempotencyId call.envelope call.pending
      response with
  | .pending retained => .inl <$> call.onPending retained
  | .authorized authorization =>
    call.requested.accept call.idempotencyId authorization
    return .inr authorization

/-- A governed call after its decision request was answered. -/
def afterDecision (client : ClavenarClient) (dependencies : ExecutionDependencies)
    (call : GovernedCall) (answer : Except String Response) : Call ApiResult :=
  match call.decide answer with
  | .error error => .fail error
  | .ok (.inl result) => pure result
  | .ok (.inr authorization) => do
    let outcome ← client.executeAuthorization dependencies.executor dependencies.signingKey
      authorization call.pending.isSome
    return call.onCompleted outcome

/-- The decision request of a governed call. -/
def decisionRequest (client : ClavenarClient) (call : GovernedCall) (endpoint : String) :
    PostRequest :=
  ⟨endpoint, ClavenarClient.decisionHeaders call.idempotencyId call.pending, client.auth.token,
    call.envelope.json⟩

/-- A governed call in its common shape. -/
def shape (client : ClavenarClient) (call : GovernedCall) : Call ApiResult :=
  match call.gate client with
  | .error error => .fail error
  | .ok dependencies =>
    match joinUrl client.baseUrl "mcp" with
    | .error error => .fail (.invalidConfig ("join /mcp: " ++ error))
    | .ok endpoint => .await (.postDecision (call.decisionRequest client endpoint))
        (call.afterDecision client dependencies)

/-! ### Every governed call has this shape -/

/-- What becomes of a decision. -/
def onState (client : ClavenarClient) (dependencies : ExecutionDependencies)
    (call : GovernedCall) : AuthorizationState → Call ApiResult
  | .pending retained => .lift (call.onPending retained)
  | .authorized authorization => do
    Prog.lift (call.requested.accept call.idempotencyId authorization)
    let outcome ← client.executeAuthorization dependencies.executor dependencies.signingKey
      authorization call.pending.isSome
    return call.onCompleted outcome

/-- The eight calls differ in their checks and in what they make of a pending decision. -/
theorem run_eq_bind (client : ClavenarClient) (call : GovernedCall) :
    call.run client = Prog.lift (call.gate client) >>= fun dependencies =>
      client.authorizePayloadState call.idempotencyId call.envelope call.pending >>=
        call.onState client dependencies := by
  cases call with
  | executeTool =>
    simp only [run, gate, ClavenarClient.executeTool, ClavenarClient.authorizeTool,
      ClavenarClient.authorizePayload, Prog.bind_assoc]
    congr 1; funext _; congr 1; funext state
    cases state <;> simp [onState, Requested.accept, requested, onPending, resumable,
      onCompleted, pending]
  | executePreparedTool =>
    simp only [run, gate, ClavenarClient.executePreparedTool, ClavenarClient.executeTool,
      ClavenarClient.authorizeTool, ClavenarClient.authorizePayload, Prog.bind_assoc,
      Prog.lift_bind]
    congr 1; funext _; congr 1; funext _; congr 1; funext state
    cases state <;> simp [onState, Requested.accept, requested, onPending, resumable,
      onCompleted, pending]
  | executeToolBatch =>
    simp only [run, gate, ClavenarClient.executeToolBatch, ClavenarClient.authorizeToolBatch,
      ClavenarClient.authorizePayload, Prog.bind_assoc, Prog.lift_bind, pure_eq_ok, Prog.lift_ok,
      Prog.done_ok_bind]
    congr 1; funext _; congr 1; funext _; congr 1; funext state
    cases state <;> simp [onState, Requested.accept, requested, onPending, resumable,
      onCompleted, pending, idempotencyId]
  | executePreparedToolBatch =>
    simp only [run, gate, ClavenarClient.executePreparedToolBatch,
      ClavenarClient.executeToolBatch, ClavenarClient.authorizeToolBatch,
      ClavenarClient.authorizePayload, Prog.bind_assoc, Prog.lift_bind, pure_eq_ok, Prog.lift_ok,
      Prog.done_ok_bind]
    congr 1; funext _; congr 1; funext _; congr 1; funext _; congr 1; funext state
    cases state <;> simp [onState, Requested.accept, requested, onPending, resumable,
      onCompleted, pending, idempotencyId]
  | beginPreparedToolExecution =>
    simp only [run, gate, ClavenarClient.beginPreparedToolExecution, Prog.bind_assoc,
      Prog.lift_bind]
    congr 1; funext _; congr 1; funext _; congr 1; funext state
    cases state <;> simp [onState, Requested.accept, requested, onPending, resumable,
      onCompleted, pending, Prog.bind_assoc]
  | beginPreparedToolBatchExecution =>
    simp only [run, gate, ClavenarClient.beginPreparedToolBatchExecution, Prog.bind_assoc,
      Prog.lift_bind]
    congr 1; funext _; congr 1; funext _; congr 1; funext state
    cases state <;> simp [onState, Requested.accept, requested, onPending, resumable,
      onCompleted, pending, idempotencyId, Prog.bind_assoc]
  | resumePreparedToolExecution _ pending =>
    simp only [run, gate, ClavenarClient.resumePreparedToolExecution, Prog.bind_assoc,
      Prog.lift_bind, pure_eq_ok, Prog.lift_ok, Prog.done_ok_bind]
    congr 1; funext _; congr 1; funext _; congr 1; funext _; congr 1; funext _; congr 1
    funext state
    cases state with
    | pending retained =>
      by_cases h : retained = pending <;>
        simp [onState, onPending, resumable, GovernedCall.pending, h]
    | authorized =>
      simp [onState, Requested.accept, requested, resumable, onCompleted, GovernedCall.pending,
        Prog.bind_assoc]
  | resumePreparedToolBatchExecution _ pending =>
    simp only [run, gate, ClavenarClient.resumePreparedToolBatchExecution, Prog.bind_assoc,
      Prog.lift_bind, pure_eq_ok, Prog.lift_ok, Prog.done_ok_bind]
    congr 1; funext _; congr 1; funext _; congr 1; funext _; congr 1; funext _; congr 1
    funext state
    cases state with
    | pending retained =>
      by_cases h : retained = pending <;>
        simp [onState, onPending, resumable, GovernedCall.pending, h]
    | authorized =>
      simp [onState, Requested.accept, requested, resumable, onCompleted, GovernedCall.pending,
        idempotencyId, Prog.bind_assoc]

/-- Decoding the state of a call and acting on it is what follows its decision. -/
theorem lift_decode_bind_onState (client : ClavenarClient) (dependencies : ExecutionDependencies)
    (call : GovernedCall) (response : Response) :
    (Prog.lift (ClavenarClient.decodeAuthorizationState call.idempotencyId call.envelope
      call.pending response) >>= call.onState client dependencies) =
      call.afterDecision client dependencies (.ok response) := by
  simp only [afterDecision, decide, Except.mapError, ok_bind]
  cases ClavenarClient.decodeAuthorizationState call.idempotencyId call.envelope call.pending
      response with
  | error error => simp
  | ok state =>
    cases state with
    | pending retained => cases hpending : call.onPending retained <;> simp [onState, hpending]
    | authorized authorization =>
      cases haccept : call.requested.accept call.idempotencyId authorization <;>
        simp [onState, haccept]

/-- A governed call checks its input, asks for a decision and acts on it. -/
theorem run_eq_shape (client : ClavenarClient) (call : GovernedCall) :
    call.run client = call.shape client := by
  rw [run_eq_bind, shape]
  cases call.gate client with
  | error error => rfl
  | ok dependencies =>
    simp only [Prog.lift_ok, Prog.done_ok_bind, ClavenarClient.authorizePayloadState]
    cases joinUrl client.baseUrl "mcp" with
    | error error => rfl
    | ok endpoint =>
      simp only [Prog.await_bind]
      congr 1
      funext answer
      cases answer with
      | error error => rfl
      | ok response => exact lift_decode_bind_onState client dependencies call response

/-! ### What an accepted decision means -/

/-- An authorization that passed every check the call makes on it. -/
structure Admitted (call : GovernedCall) (authorization : SignedAuthorization) : Prop where
  valid : authorization.Valid call.idempotencyId
  unmodified : authorization.authorization.modificationDiff = none →
    authorization.authorization.executionPayload = call.envelope
  correlation : ∀ pending ∈ call.pending,
    authorization.authorization.correlationId = pending.correlationId
  accept : call.requested.accept call.idempotencyId authorization = .ok ()

end GovernedCall

namespace ClavenarClient

/-- A client with everything that governed execution needs. -/
theorem executionDependencies_eq_ok_iff {client : ClavenarClient}
    {dependencies : ExecutionDependencies} :
    client.executionDependencies = .ok dependencies ↔
      client.toolExecutor = some dependencies.executor ∧
      validateExecutorId dependencies.executor.id = .ok () ∧
      client.executionSigningKey = some dependencies.signingKey ∧
      client.durableExecutionStore = some dependencies.store ∧
      dependencies.store.supportsUncertainEffectReconciliation = true := by
  have hrequire : ∀ store : DurableExecutionStore, requireUncertainEffectStore store = .ok () ↔
      store.supportsUncertainEffectReconciliation = true := by
    simp [requireUncertainEffectStore]
  have helim : ∀ {α : Type} (x : Option α) (e : ClavenarError) (a : α),
      x.elim (.error e) .ok = (.ok a : Except ClavenarError α) ↔ x = some a := by
    intro α x e a
    cases x <;> simp
  simp only [executionDependencies, bind_eq_ok_iff, helim, pure_eq_ok, Except.ok.injEq]
  constructor
  · rintro ⟨executor, hexecutor, ⟨⟩, hid, key, hkey, store, hstore, ⟨⟩, hsupports, rfl⟩
    exact ⟨hexecutor, hid, hkey, hstore, (hrequire store).mp hsupports⟩
  · rintro ⟨hexecutor, hid, hkey, hstore, hsupports⟩
    exact ⟨_, hexecutor, (), hid, _, hkey, _, hstore, (), (hrequire _).mpr hsupports, rfl⟩

/-- A decision that `authorize_payload_state` accepts as an authorization. -/
theorem decodeAuthorizationState_eq_authorized_iff {idempotencyId : Uuid} {body : Value}
    {pending : Option PendingAuthorization} {response : Response}
    {authorization : SignedAuthorization} :
    decodeAuthorizationState idempotencyId body pending response =
        .ok (.authorized authorization) ↔
      response.status = 200 ∧
      (∃ raw, readTextLimited response = .ok raw ∧ fromStr raw = .ok authorization) ∧
      authorization.Valid idempotencyId ∧
      (authorization.authorization.modificationDiff = none →
        authorization.authorization.executionPayload = body) ∧
      ∀ handle ∈ pending, authorization.authorization.correlationId = handle.correlationId := by
  unfold decodeAuthorizationState
  cases hraw : readTextLimited response with
  | error error => simp
  | ok raw =>
    by_cases h202 : response.status = 202
    · have h200 : response.status ≠ 200 := by omega
      simp [h202, bind_eq_ok_iff]
    · by_cases h200 : response.status = 200
      · have h202' : (200 : ℕ) ≠ 202 := by decide
        simp only [ok_bind, h200, h202', if_false, ne_eq, not_true, bind_eq_ok_iff, true_and,
          Except.ok.injEq, exists_eq_left']
        constructor
        · rintro ⟨signed, hsigned, ⟨⟩, hvalid, h⟩
          split_ifs at h with hdiff hcorrelation
          obtain rfl : signed = authorization := by simpa using h
          refine ⟨hsigned, validateAuthorization_eq_ok_iff.mp hvalid, fun hnone => ?_,
            fun handle hhandle => ?_⟩
          · by_contra hne
            exact hdiff ⟨hnone, hne⟩
          · by_contra hne
            rw [Option.mem_def.mp hhandle] at hcorrelation
            exact hcorrelation (by simpa using hne)
        · rintro ⟨hsigned, hvalid, hdiff, hcorrelation⟩
          refine ⟨authorization, hsigned, (), validateAuthorization_eq_ok_iff.mpr hvalid, ?_⟩
          rw [if_neg fun h => h.2 (hdiff h.1), if_neg]
          · rfl
          · cases pending with
            | none => simp
            | some handle => simpa using hcorrelation handle rfl
      · simp [h202, h200]

/-- A decision that `authorize_payload_state` accepts as pending. -/
theorem decodeAuthorizationState_eq_pending_iff {idempotencyId : Uuid} {body : Value}
    {pending : Option PendingAuthorization} {response : Response}
    {retained : PendingAuthorization} :
    decodeAuthorizationState idempotencyId body pending response = .ok (.pending retained) ↔
      response.status = 202 ∧
      (∃ raw, readTextLimited response = .ok raw ∧ fromStr raw = .ok retained) ∧
      validatePendingAuthorization retained idempotencyId body = .ok () := by
  unfold decodeAuthorizationState
  cases hraw : readTextLimited response with
  | error error => simp
  | ok raw =>
    by_cases h202 : response.status = 202
    · simp only [ok_bind, h202, if_true, bind_eq_ok_iff, pure_eq_ok, Except.ok.injEq,
        AuthorizationState.pending.injEq, true_and, exists_eq_left']
      constructor
      · rintro ⟨_, hretained, ⟨⟩, hvalid, rfl⟩
        exact ⟨hretained, hvalid⟩
      · rintro ⟨hretained, hvalid⟩
        exact ⟨retained, hretained, (), hvalid, rfl⟩
    · simp only [ok_bind, h202, if_false, false_and, iff_false]
      intro h
      split_ifs at h with h200
      obtain ⟨signed, -, h⟩ := bind_eq_ok_iff.mp h
      obtain ⟨_, -, h⟩ := bind_eq_ok_iff.mp h
      split_ifs at h
      simp at h

end ClavenarClient

namespace GovernedCall

/-- The call goes on to execute exactly the authorizations that a decision response carries
and that pass its checks. -/
theorem decide_eq_inr_iff {call : GovernedCall} {answer : Except String Response}
    {authorization : SignedAuthorization} :
    call.decide answer = .ok (.inr authorization) ↔
      call.Admitted authorization ∧ ∃ response raw, answer = .ok response ∧
        response.status = 200 ∧ readTextLimited response = .ok raw ∧
        fromStr raw = .ok authorization := by
  cases answer with
  | error error => simp [decide, Except.mapError]
  | ok response =>
    simp only [decide, Except.mapError, ok_bind, bind_eq_ok_iff]
    constructor
    · rintro ⟨state, hstate, h⟩
      cases state with
      | pending retained =>
        cases hpending : call.onPending retained <;> simp [hpending] at h
      | authorized signed =>
        obtain ⟨⟨⟩, haccept, h⟩ := bind_eq_ok_iff.mp h
        obtain rfl : signed = authorization := by simpa using h
        obtain ⟨hstatus, ⟨raw, hraw, hsigned⟩, hvalid, hdiff, hcorrelation⟩ :=
          ClavenarClient.decodeAuthorizationState_eq_authorized_iff.mp hstate
        exact ⟨⟨hvalid, hdiff, hcorrelation, haccept⟩, response, raw, rfl, hstatus, hraw, hsigned⟩
    · rintro ⟨hadmitted, _, raw, ⟨⟩, hstatus, hraw, hsigned⟩
      refine ⟨.authorized authorization,
        ClavenarClient.decodeAuthorizationState_eq_authorized_iff.mpr ⟨hstatus,
          ⟨raw, hraw, hsigned⟩, hadmitted.valid, hadmitted.unmodified, hadmitted.correlation⟩, ?_⟩
      simp [hadmitted.accept]

/-- A response with an authorization in its body that passes the checks leads to its
execution. -/
theorem decide_ofText {call : GovernedCall} {authorization : SignedAuthorization}
    (hadmitted : call.Admitted authorization)
    (hfits : (utf8Bytes (toJson authorization).text).length ≤ defaultResponseBodyLimit)
    (hparse : parseJson (toJson authorization).text = .ok (toJson authorization))
    (hdiff : authorization.authorization.DiffDecoded) :
    call.decide (.ok (.ofText 200 (toJson authorization).text)) = .ok (.inr authorization) := by
  refine decide_eq_inr_iff.mpr ⟨hadmitted, _, _, rfl, rfl, readTextLimited_ofText hfits, ?_⟩
  exact fromStr_eq hparse (signedAuthorization_roundTrips hdiff)

/-- A result without an execution is a pending decision, and a resumed one is unchanged. -/
theorem decide_eq_inl {call : GovernedCall} {answer : Except String Response}
    {result : ApiResult} (h : call.decide answer = .ok (.inl result)) :
    ∃ retained, result = .resumable (.pending retained) ∧ call.resumable = true ∧
      (∀ handle ∈ call.pending, retained = handle) ∧
      validatePendingAuthorization retained call.idempotencyId call.envelope = .ok () := by
  obtain ⟨response, -, h⟩ := bind_eq_ok_iff.mp h
  obtain ⟨state, hstate, h⟩ := bind_eq_ok_iff.mp h
  cases state with
  | authorized signed =>
    obtain ⟨_, -, h⟩ := bind_eq_ok_iff.mp h
    simp at h
  | pending retained =>
    obtain ⟨-, -, hvalid⟩ := ClavenarClient.decodeAuthorizationState_eq_pending_iff.mp hstate
    simp only [onPending] at h
    split_ifs at h with hresumable hchanged
    · simp at h
    · simp at h
    · obtain rfl : ApiResult.resumable (.pending retained) = result := by simpa using h
      refine ⟨retained, rfl, by simpa using hresumable, fun handle hhandle => ?_, hvalid⟩
      rw [Option.mem_def.mp hhandle] at hchanged
      by_contra hne
      exact hchanged (by simpa using hne)

/-- What the local checks establish before the decision request. -/
theorem gate_eq_ok {client : ClavenarClient} {call : GovernedCall}
    {dependencies : ExecutionDependencies} (h : call.gate client = .ok dependencies) :
    client.executionDependencies = .ok dependencies ∧
      ∀ handle ∈ call.pending,
        validatePendingAuthorization handle call.idempotencyId call.envelope = .ok () := by
  cases call <;> simp only [gate, bind_eq_ok_iff, pure_eq_ok, Except.ok.injEq] at h
  case executeTool => exact ⟨h, by simp [pending]⟩
  case executePreparedTool | beginPreparedToolExecution | beginPreparedToolBatchExecution =>
    obtain ⟨-, -, hdependencies⟩ := h
    exact ⟨hdependencies, by simp [pending]⟩
  case executeToolBatch =>
    obtain ⟨_, hdependencies, -, -, rfl⟩ := h
    exact ⟨hdependencies, by simp [pending]⟩
  case executePreparedToolBatch =>
    obtain ⟨-, -, _, hdependencies, -, -, rfl⟩ := h
    exact ⟨hdependencies, by simp [pending]⟩
  case resumePreparedToolExecution | resumePreparedToolBatchExecution =>
    obtain ⟨-, -, _, hdependencies, -, -, ⟨⟩, hpending, rfl⟩ := h
    refine ⟨hdependencies, fun handle hhandle => ?_⟩
    obtain rfl := Option.some.inj hhandle
    exact hpending

/-! ### Complete runs -/

/-- The complete runs of a governed call: its input is refused, there is no endpoint, the
decision is no authorization, or the authorization is executed. -/
inductive Run (client : ClavenarClient) (call : GovernedCall) :
    List (Event Answer) → Except ClavenarError ApiResult → Prop where
  | refused {error : ClavenarError} (hgate : call.gate client = .error error) :
      Run client call [] (.error error)
  | noEndpoint {error : String} (hjoin : joinUrl client.baseUrl "mcp" = .error error) :
      Run client call [] (.error (.invalidConfig ("join /mcp: " ++ error)))
  | undecided {dependencies : ExecutionDependencies} {endpoint : String}
      {answer : Except String Response} {error : ClavenarError}
      (hgate : call.gate client = .ok dependencies)
      (hjoin : joinUrl client.baseUrl "mcp" = .ok endpoint)
      (hdecide : call.decide answer = .error error) :
      Run client call [⟨.postDecision (call.decisionRequest client endpoint), answer⟩]
        (.error error)
  | pending {dependencies : ExecutionDependencies} {endpoint : String}
      {answer : Except String Response} {value : ApiResult}
      (hgate : call.gate client = .ok dependencies)
      (hjoin : joinUrl client.baseUrl "mcp" = .ok endpoint)
      (hdecide : call.decide answer = .ok (.inl value)) :
      Run client call [⟨.postDecision (call.decisionRequest client endpoint), answer⟩] (.ok value)
  | executed {dependencies : ExecutionDependencies} {endpoint : String}
      {answer : Except String Response} {authorization : SignedAuthorization}
      {history : List (Event Answer)} {result : Except ClavenarError ExecutionOutcome}
      (hgate : call.gate client = .ok dependencies)
      (hjoin : joinUrl client.baseUrl "mcp" = .ok endpoint)
      (hdecide : call.decide answer = .ok (.inr authorization))
      (hreturns : (client.executeAuthorization dependencies.executor dependencies.signingKey
        authorization call.pending.isSome).Returns history result) :
      Run client call (⟨.postDecision (call.decisionRequest client endpoint), answer⟩ :: history)
        (call.onCompleted <$> result)

/-- What holds of the decision request and of the execution of every authorization holds
throughout a governed call. -/
theorem run_always {client : ClavenarClient} {call : GovernedCall}
    {guard : List (Event Answer) → Op → Prop}
    (hdecision : ∀ endpoint, guard [] (.postDecision (call.decisionRequest client endpoint)))
    (hexecution : ∀ dependencies endpoint answer authorization,
      call.gate client = .ok dependencies → call.decide answer = .ok (.inr authorization) →
      Prog.Always guard (fun _ _ => True)
        [⟨.postDecision (call.decisionRequest client endpoint), answer⟩]
        (client.executeAuthorization dependencies.executor dependencies.signingKey authorization
          call.pending.isSome)) :
    Prog.Always guard (fun _ _ => True) [] (call.run client) := by
  rw [run_eq_shape, shape]
  cases hgate : call.gate client with
  | error error => simp
  | ok dependencies =>
    simp only
    cases joinUrl client.baseUrl "mcp" with
    | error error => simp
    | ok endpoint =>
      refine ⟨hdecision endpoint, fun answer => ?_⟩
      unfold afterDecision
      match hdecide : call.decide answer with
      | .error error => simp
      | .ok (.inl value) => simp
      | .ok (.inr authorization) =>
        exact Prog.Always.bind_pure
          (hexecution dependencies endpoint answer authorization hgate hdecide) _

/-- A governed call whose input is accepted asks for a decision. -/
theorem run_eq_await {client : ClavenarClient} {call : GovernedCall}
    {dependencies : ExecutionDependencies} {endpoint : String}
    (hgate : call.gate client = .ok dependencies)
    (hjoin : joinUrl client.baseUrl "mcp" = .ok endpoint) :
    call.run client = .await (.postDecision (call.decisionRequest client endpoint))
      (call.afterDecision client dependencies) := by
  simp only [run_eq_shape, shape, hgate, hjoin]

/-- It executes the authorization that it obtains. -/
theorem afterDecision_eq {client : ClavenarClient} {dependencies : ExecutionDependencies}
    {call : GovernedCall} {answer : Except String Response} {authorization : SignedAuthorization}
    (hdecide : call.decide answer = .ok (.inr authorization)) :
    call.afterDecision client dependencies answer =
      client.executeAuthorization dependencies.executor dependencies.signingKey authorization
        call.pending.isSome >>= fun outcome => pure (call.onCompleted outcome) := by
  simp only [afterDecision, hdecide]

/-- These are all complete runs. -/
theorem run_of_returns {client : ClavenarClient} {call : GovernedCall}
    {history : List (Event Answer)} {result : Except ClavenarError ApiResult}
    (h : (call.run client).Returns history result) : call.Run client history result := by
  rw [run_eq_shape, shape] at h
  cases hgate : call.gate client with
  | error error =>
    simp only [hgate] at h
    obtain ⟨rfl, rfl⟩ := Prog.returns_done_iff.mp h
    exact .refused hgate
  | ok dependencies =>
    cases hjoin : joinUrl client.baseUrl "mcp" with
    | error error =>
      simp only [hgate, hjoin] at h
      obtain ⟨rfl, rfl⟩ := Prog.returns_done_iff.mp h
      exact .noEndpoint hjoin
    | ok endpoint =>
      simp only [hgate, hjoin] at h
      obtain ⟨answer, rest, rfl, hrest⟩ := Prog.returns_await_iff.mp h
      match hdecide : call.decide answer with
      | .error error =>
        simp only [afterDecision, hdecide] at hrest
        obtain ⟨rfl, rfl⟩ := Prog.returns_done_iff.mp hrest
        exact .undecided hgate hjoin hdecide
      | .ok (.inl value) =>
        simp only [afterDecision, hdecide] at hrest
        obtain ⟨rfl, rfl⟩ := Prog.returns_done_iff.mp hrest
        exact .pending hgate hjoin hdecide
      | .ok (.inr authorization) =>
        rw [afterDecision_eq hdecide] at hrest
        obtain ⟨result', hreturns, rfl⟩ := Prog.returns_bind_pure_iff.mp hrest
        exact .executed hgate hjoin hdecide hreturns

/-- A call that obtains an authorization runs as the execution of it does. -/
theorem returns_executed {client : ClavenarClient} {call : GovernedCall}
    {dependencies : ExecutionDependencies} {endpoint : String}
    {answer : Except String Response} {authorization : SignedAuthorization}
    {history : List (Event Answer)} {result : Except ClavenarError ExecutionOutcome}
    (hgate : call.gate client = .ok dependencies)
    (hjoin : joinUrl client.baseUrl "mcp" = .ok endpoint)
    (hdecide : call.decide answer = .ok (.inr authorization))
    (h : (client.executeAuthorization dependencies.executor dependencies.signingKey authorization
      call.pending.isSome).Returns history result) :
    (call.run client).Returns
      (⟨.postDecision (call.decisionRequest client endpoint), answer⟩ :: history)
      (call.onCompleted <$> result) := by
  rw [run_eq_await hgate hjoin]
  refine Prog.returns_await_iff.mpr ⟨answer, history, rfl, ?_⟩
  rw [afterDecision_eq hdecide]
  exact Prog.returns_bind_pure_iff.mpr ⟨result, h, rfl⟩

/-- When the store starts the attempt, the executor is invoked. -/
theorem invokes_execute {client : ClavenarClient} {call : GovernedCall}
    {dependencies : ExecutionDependencies} {endpoint : String}
    {answer : Except String Response} {authorization : SignedAuthorization}
    (hgate : call.gate client = .ok dependencies)
    (hjoin : joinUrl client.baseUrl "mcp" = .ok endpoint)
    (hdecide : call.decide answer = .ok (.inr authorization)) :
    (call.run client).Invokes
      [⟨.postDecision (call.decisionRequest client endpoint), answer⟩,
        ⟨.beginEffectAttempt (ClavenarClient.intentOf dependencies.executor.id authorization)
          (if call.pending.isSome then .singleUse else .direct), .ok .started⟩]
      (.execute (ClavenarClient.requestOf dependencies.executor.id authorization)) := by
  rw [run_eq_await hgate hjoin]
  refine Prog.Invokes.answered ?_
  rw [afterDecision_eq hdecide]
  exact ⟨_, .answered (.here _)⟩

end GovernedCall

end ClavenarSdk
