import ClavenarSdk.Execution.Pending
import Mathlib.Logic.Relation

/-!
# Checks before the network

What makes a governed call fail before it does anything, and what every decision request for a
prepared value has in common.
-/

namespace ClavenarSdk

open Interaction ClavenarClient

/-! ### What is checked -/

/-- A text of 1 to 256 bytes. -/
def Bounded (text : String) : Prop := 1 ≤ text.utf8ByteSize ∧ text.utf8ByteSize ≤ 256

/-- A text is bounded unless it is empty or too long. -/
theorem bounded_iff {text : String} : Bounded text ↔ ¬(text = "" ∨ 256 < text.utf8ByteSize) := by
  have hempty : text.utf8ByteSize = 0 ↔ text = "" := String.utf8ByteSize_eq_zero_iff
  rw [Bounded, ← hempty]
  omega

/-- Tool names are checked for their length only. -/
theorem validateToolName_eq_ok_iff {name : String} :
    validateToolName name = .ok () ↔ Bounded name := by
  rw [validateToolName, bounded_iff, ite_eq_right_iff]
  simp

/-- Visible ASCII characters only, 1 to 256 of them. -/
def VisibleId (executorId : String) : Prop :=
  Bounded executorId ∧ ∀ c ∈ executorId.toList, isAsciiGraphic c = true

/-- Executor identities are checked for their length and characters. -/
theorem validateExecutorId_eq_ok_iff {executorId : String} :
    validateExecutorId executorId = .ok () ↔ VisibleId executorId := by
  rw [validateExecutorId, VisibleId, bounded_iff, ite_eq_right_iff]
  simp [and_assoc]

section

variable [Crates]

/-- The handle belongs to this request, and its timing is within bounds. -/
structure PendingAuthorization.ValidFor (handle : PendingAuthorization) (idempotencyId : Uuid)
    (body : Value) : Prop where
  contract : handle.contract = pendingAuthorizationContract
  status : handle.status = "pending"
  idempotencyId : handle.idempotencyId = idempotencyId
  pendingId : handle.pendingId.isNil = false
  correlationId : handle.correlationId.isNil = false
  payloadSha256 : handle.payloadSha256 = sha256 body.canonical
  ttlSeconds : 0 < handle.ttlSeconds ∧ handle.ttlSeconds ≤ 86400
  pollAfterMs : handle.pollAfterMs ≠ 0 ∧ handle.pollAfterMs ≤ 60000

/-- A pending handle is accepted exactly if it belongs to the request and its timing is within
bounds. -/
theorem validatePendingAuthorization_eq_ok_iff {handle : PendingAuthorization}
    {idempotencyId : Uuid} {body : Value} :
    validatePendingAuthorization handle idempotencyId body = .ok () ↔
      handle.ValidFor idempotencyId body := by
  simp only [validatePendingAuthorization, ite_eq_right_iff, reduceCtorEq, imp_false, not_or,
    not_not, Bool.not_eq_true, Int64.not_le, Int64.not_lt, UInt64.not_lt]
  constructor
  · rintro ⟨hcontract, hstatus, hid, hpending, hcorrelation, hdigest, httl, httl', hpoll, hpoll'⟩
    exact ⟨hcontract, hstatus, hid, hpending, hcorrelation, hdigest, ⟨httl, httl'⟩,
      ⟨hpoll, hpoll'⟩⟩
  · rintro ⟨hcontract, hstatus, hid, hpending, hcorrelation, hdigest, ⟨httl, httl'⟩,
      ⟨hpoll, hpoll'⟩⟩
    exact ⟨hcontract, hstatus, hid, hpending, hcorrelation, hdigest, httl, httl', hpoll, hpoll'⟩

/-- The client lacks something that governed execution needs. -/
def ClavenarClient.CannotExecute (client : ClavenarClient) : Prop :=
  client.toolExecutor = none ∨ client.executionSigningKey = none ∨
  client.durableExecutionStore = none ∨
  (∃ executor ∈ client.toolExecutor, ¬VisibleId executor.id) ∨
  ∃ store ∈ client.durableExecutionStore, store.supportsUncertainEffectReconciliation = false

/-- A client has its dependencies exactly if it lacks nothing. -/
theorem exists_executionDependencies_iff {client : ClavenarClient} :
    (∃ dependencies, client.executionDependencies = .ok dependencies) ↔ ¬client.CannotExecute := by
  simp only [executionDependencies_eq_ok_iff, CannotExecute, not_or, ← Option.isSome_iff_ne_none,
    not_exists, not_and, not_not, Option.isSome_iff_exists, Bool.not_eq_false]
  constructor
  · rintro ⟨⟨executor, signingKey, store⟩, hexecutor, hid, hkey, hstore, hsupports⟩
    refine ⟨⟨_, hexecutor⟩, ⟨_, hkey⟩, ⟨_, hstore⟩, fun other hother => ?_, fun other hother => ?_⟩
    · obtain rfl := Option.some.inj (hexecutor.symm.trans hother)
      exact validateExecutorId_eq_ok_iff.mp hid
    · obtain rfl := Option.some.inj (hstore.symm.trans hother)
      exact hsupports
  · rintro ⟨⟨executor, hexecutor⟩, ⟨signingKey, hkey⟩, ⟨store, hstore⟩, hid, hsupports⟩
    exact ⟨⟨executor, signingKey, store⟩, hexecutor,
      validateExecutorId_eq_ok_iff.mpr (hid executor hexecutor), hkey, hstore,
      hsupports store hstore⟩

namespace GovernedCall

/-- The request itself is invalid. The name of a tool that was not prepared is not checked. -/
def Malformed : GovernedCall → Prop
  | .executeTool .. => False
  | .executePreparedTool prepared | .beginPreparedToolExecution prepared
  | .resumePreparedToolExecution prepared _ => ¬Bounded prepared.name
  | .executeToolBatch _ calls => validateModelToolCalls calls ≠ .ok ()
  | .executePreparedToolBatch prepared | .beginPreparedToolBatchExecution prepared
  | .resumePreparedToolBatchExecution prepared _ => validateModelToolCalls prepared.calls ≠ .ok ()

/-- The handle cannot be resumed: the store does not consume authorizations once, or the handle
is not valid for the request. -/
def Unresumable (client : ClavenarClient) (call : GovernedCall) : Prop :=
  ∃ handle ∈ call.pending,
    (∃ store ∈ client.durableExecutionStore, store.supportsSingleUseAuthorization = false) ∨
    ¬handle.ValidFor call.idempotencyId call.envelope

/-- The call must fail before the network. -/
def Blocked (client : ClavenarClient) (call : GovernedCall) : Prop :=
  call.Malformed ∨ client.CannotExecute ∨ call.Unresumable client

/-- What the local checks of the eight calls come to. -/
theorem gate_eq_ok_iff {client : ClavenarClient} {call : GovernedCall}
    {dependencies : ExecutionDependencies} :
    call.gate client = .ok dependencies ↔ client.executionDependencies = .ok dependencies ∧
      ¬call.Malformed ∧ ∀ handle ∈ call.pending,
        dependencies.store.supportsSingleUseAuthorization = true ∧
        handle.ValidFor call.idempotencyId call.envelope := by
  have hunit : ∀ {check : Except ClavenarError Unit} {p : Prop},
      (∃ u, check = .ok u ∧ p) ↔ check = .ok () ∧ p := by
    intro check p
    exact ⟨fun ⟨_, h⟩ => h, fun h => ⟨(), h⟩⟩
  have hsingle : ∀ store : DurableExecutionStore, requireSingleUseStore store = .ok () ↔
      store.supportsSingleUseAuthorization = true := by
    simp [requireSingleUseStore]
  cases call with
  | executeTool => simp [gate, Malformed, pending]
  | executePreparedTool prepared | beginPreparedToolExecution prepared =>
    simp only [gate, bind_eq_ok_iff, hunit, PreparedToolRequest.validate,
      validateToolName_eq_ok_iff]
    simp [Malformed, pending, and_comm]
  | beginPreparedToolBatchExecution prepared =>
    simp only [gate, bind_eq_ok_iff, hunit, PreparedToolBatch.validate]
    simp [Malformed, pending, and_comm]
  | executeToolBatch _ calls =>
    simp only [gate, bind_eq_ok_iff, hunit, pure_eq_ok, Except.ok.injEq]
    constructor
    · rintro ⟨_, hdependencies, hcalls, rfl⟩
      exact ⟨hdependencies, fun h => h hcalls, by simp [pending]⟩
    · rintro ⟨hdependencies, hcalls, -⟩
      exact ⟨_, hdependencies, not_not.mp hcalls, rfl⟩
  | executePreparedToolBatch prepared =>
    simp only [gate, bind_eq_ok_iff, hunit, pure_eq_ok, Except.ok.injEq, PreparedToolBatch.validate]
    constructor
    · rintro ⟨hcalls, _, hdependencies, -, rfl⟩
      exact ⟨hdependencies, fun h => h hcalls, by simp [pending]⟩
    · rintro ⟨hdependencies, hcalls, -⟩
      exact ⟨not_not.mp hcalls, _, hdependencies, not_not.mp hcalls, rfl⟩
  | resumePreparedToolExecution prepared handle =>
    simp only [gate, bind_eq_ok_iff, hunit, pure_eq_ok, Except.ok.injEq, exists_const, hsingle,
      PreparedToolRequest.validate, validateToolName_eq_ok_iff,
      validatePendingAuthorization_eq_ok_iff]
    constructor
    · rintro ⟨hname, _, hdependencies, hstore, hhandle, rfl⟩
      exact ⟨hdependencies, fun h => h hname, by rintro _ ⟨⟩; exact ⟨hstore, hhandle⟩⟩
    · rintro ⟨hdependencies, hname, hhandle⟩
      obtain ⟨hstore, hvalid⟩ := hhandle handle rfl
      exact ⟨not_not.mp hname, _, hdependencies, hstore, hvalid, rfl⟩
  | resumePreparedToolBatchExecution prepared handle =>
    simp only [gate, bind_eq_ok_iff, hunit, pure_eq_ok, Except.ok.injEq, exists_const, hsingle,
      PreparedToolBatch.validate, validatePendingAuthorization_eq_ok_iff]
    constructor
    · rintro ⟨hcalls, _, hdependencies, hstore, hhandle, rfl⟩
      exact ⟨hdependencies, fun h => h hcalls, by rintro _ ⟨⟩; exact ⟨hstore, hhandle⟩⟩
    · rintro ⟨hdependencies, hcalls, hhandle⟩
      obtain ⟨hstore, hvalid⟩ := hhandle handle rfl
      exact ⟨not_not.mp hcalls, _, hdependencies, hstore, hvalid, rfl⟩

/-- The local checks let a call pass exactly if it is not blocked. -/
theorem exists_gate_eq_ok_iff {client : ClavenarClient} {call : GovernedCall} :
    (∃ dependencies, call.gate client = .ok dependencies) ↔ ¬call.Blocked client := by
  simp only [gate_eq_ok_iff, Blocked, not_or, ← exists_executionDependencies_iff, Unresumable,
    not_exists, not_and, not_not, Bool.not_eq_false]
  constructor
  · rintro ⟨dependencies, hdependencies, hformed, hhandles⟩
    refine ⟨hformed, ⟨dependencies, hdependencies⟩, fun handle hhandle => ?_⟩
    obtain ⟨hstore, hvalid⟩ := hhandles handle hhandle
    refine ⟨fun store hother => ?_, hvalid⟩
    have hown := (executionDependencies_eq_ok_iff.mp hdependencies).2.2.2.1
    obtain rfl := Option.some.inj (hown.symm.trans hother)
    exact hstore
  · rintro ⟨hformed, ⟨dependencies, hdependencies⟩, hhandles⟩
    have hown := (executionDependencies_eq_ok_iff.mp hdependencies).2.2.2.1
    refine ⟨dependencies, hdependencies, hformed, fun handle hhandle => ?_⟩
    obtain ⟨hstore, hvalid⟩ := hhandles handle hhandle
    exact ⟨hstore dependencies.store hown, hvalid⟩

/-- A blocked call fails without any operation. -/
theorem run_of_blocked {client : ClavenarClient} {call : GovernedCall}
    (h : call.Blocked client) : ∃ error, call.run client = .fail error := by
  rw [run_eq_shape, shape]
  cases hgate : call.gate client with
  | error error => exact ⟨error, rfl⟩
  | ok dependencies => exact absurd h (exists_gate_eq_ok_iff.mp ⟨dependencies, hgate⟩)

/-- A call whose input is accepted sends its decision request first. -/
theorem invokes_postDecision {client : ClavenarClient} {call : GovernedCall}
    {dependencies : ExecutionDependencies} {endpoint : String}
    (hgate : call.gate client = .ok dependencies)
    (hjoin : joinUrl client.baseUrl "mcp" = .ok endpoint) :
    (call.run client).Invokes [] (.postDecision (call.decisionRequest client endpoint)) := by
  rw [run_eq_await hgate hjoin]
  exact ⟨_, .here _⟩

/-- The decision requests of a call are for its own envelope under its own identity. -/
theorem decisionRequest_of_invokes {client : ClavenarClient} {call : GovernedCall}
    {history : List (Event Answer)} {request : PostRequest}
    (h : (call.run client).Invokes history (.postDecision request)) :
    ∃ endpoint, request = call.decisionRequest client endpoint := by
  have halways : Prog.Always (fun _ op => ∀ request, op = .postDecision request →
      ∃ endpoint, request = call.decisionRequest client endpoint) (fun _ _ => True) []
      (call.run client) := by
    refine run_always (fun endpoint => ?_) fun _ _ _ _ _ _ => ?_
    · rintro _ ⟨⟩
      exact ⟨endpoint, rfl⟩
    · refine executeAuthorization_always (by simp) (executeStarted_always (by simp) (by simp)
        fun _ op hop => ?_)
      cases op <;> simp_all [delivers]
  exact halways.of_invokes h request rfl

end GovernedCall

/-! ### What is sent for a prepared value -/

namespace Prepared

/-- The call that executes the request. -/
def execute : Prepared → GovernedCall
  | .tool prepared => .executePreparedTool prepared
  | .batch prepared => .executePreparedToolBatch prepared

/-- The authorization of the request without an execution. -/
def authorize (client : ClavenarClient) : Prepared → Call SignedAuthorization
  | .tool prepared => client.authorizePreparedTool prepared
  | .batch prepared => client.authorizePreparedToolBatch prepared

/-- A decision request that some call on some client sends for the value, after it was serialized
and restored any number of times. -/
inductive Sends (p : Prepared) : PostRequest → Prop where
  | governed {client : ClavenarClient} {p' : Prepared} {call : GovernedCall}
      {history : List (Event Answer)} {request : PostRequest}
      (hp : Relation.ReflTransGen Restores p p')
      (hcall : call = p'.execute ∨ call = p'.begin ∨ ∃ handle, call = p'.resume handle)
      (h : (call.run client).Invokes history (.postDecision request)) : Sends p request
  | authorized {client : ClavenarClient} {p' : Prepared} {history : List (Event Answer)}
      {request : PostRequest} (hp : Relation.ReflTransGen Restores p p')
      (h : (p'.authorize client).Invokes history (.postDecision request)) : Sends p request

variable {p : Prepared}

/-- A value that was restored any number of times is still the same. -/
theorem restored_eq {p' : Prepared} (h : Relation.ReflTransGen Restores p p')
    (hparse : parseJson p.document.text = .ok p.document) : p' = p := by
  induction h with
  | refl => rfl
  | tail _ hrestores ih =>
    subst ih
    exact hrestores.eq hparse

/-- The decision request for an envelope under an identity. -/
def Asks (idempotencyId : Uuid) (body : Value) (request : PostRequest) : Prop :=
  request.json = body.json ∧ ∃ pending, request.headers = decisionHeaders idempotencyId pending

/-- A request for an authorization carries the envelope and the identity that it is for. -/
theorem authorizePayload_asks {client : ClavenarClient} {idempotencyId : Uuid} {body : Value} :
    Prog.Always (fun _ op => ∀ request, op = .postDecision request →
      Asks idempotencyId body request) (fun _ _ => True) []
      (client.authorizePayload idempotencyId body) := by
  unfold authorizePayload authorizePayloadState
  cases joinUrl client.baseUrl "mcp" with
  | error error => simp
  | ok endpoint =>
    rw [Prog.await_bind]
    refine ⟨?_, fun answer => ?_⟩
    · rintro _ ⟨⟩
      exact ⟨rfl, none, rfl⟩
    cases answer with
    | error error => simp
    | ok response =>
      simp only
      cases decodeAuthorizationState idempotencyId body none response with
      | error error => simp
      | ok state => cases state <;> simp

/-- So it does for a prepared value. -/
theorem authorize_asks {client : ClavenarClient} {history : List (Event Answer)}
    {request : PostRequest} (h : (p.authorize client).Invokes history (.postDecision request)) :
    Asks p.idempotencyId p.envelope request := by
  have halways : Prog.Always (fun _ op => ∀ request, op = .postDecision request →
      Asks p.idempotencyId p.envelope request) (fun _ _ => True) [] (p.authorize client) := by
    cases p with
    | tool prepared =>
      simp only [authorize, authorizePreparedTool]
      cases prepared.validate with
      | error error => simp
      | ok _ => exact authorizePayload_asks
    | batch prepared =>
      simp only [authorize, authorizePreparedToolBatch, authorizeToolBatch]
      cases prepared.validate with
      | error error => simp
      | ok _ =>
        simp only [Prog.lift_ok, Prog.done_ok_bind]
        cases validateModelToolCalls prepared.calls with
        | error error => simp
        | ok _ =>
          simp only [Prog.lift_ok, Prog.done_ok_bind, Prog.always_bind]
          refine authorizePayload_asks.mono (fun _ _ => id) fun _ result _ => ?_
          cases result with
          | error error => simp
          | ok authorization =>
            cases h : validateBatchAuthorization authorization prepared.idempotencyId
              prepared.calls (atomicBatchEnvelope prepared.idempotencyId prepared.calls) <;>
              simp [h]
  exact halways.of_invokes h request rfl

/-- All decision requests for a prepared value have its identity and its envelope. -/
theorem Sends.asks {request : PostRequest} (h : p.Sends request)
    (hparse : parseJson p.document.text = .ok p.document) :
    Asks p.idempotencyId p.envelope request := by
  cases h with
  | governed hp hcall h =>
    rw [restored_eq hp hparse] at hcall
    obtain ⟨endpoint, rfl⟩ := GovernedCall.decisionRequest_of_invokes h
    obtain rfl | rfl | ⟨handle, rfl⟩ := hcall
    · cases p <;> exact ⟨rfl, none, rfl⟩
    · cases p <;> exact ⟨rfl, none, rfl⟩
    · cases p <;> exact ⟨rfl, some handle, rfl⟩
  | authorized hp h =>
    rw [restored_eq hp hparse] at h
    exact authorize_asks h

end Prepared

/-- Governed execution fails closed before the network. A call with an invalid request, on a client
that lacks a dependency, or with a handle that cannot be resumed, fails without any operation; and
every decision request that is ever sent for a prepared value, on any client, through any entry
point and however often the value is serialized and restored, has its identity and its envelope. -/
theorem fails_closed :
    (∀ (client : ClavenarClient) (call : GovernedCall), call.Blocked client →
      ∃ error, call.run client = .fail error) ∧
    ∀ p : Prepared, parseJson p.document.text = .ok p.document → ∀ request, p.Sends request →
      request.json = p.envelope.json ∧
      ∃ pending, request.headers = decisionHeaders p.idempotencyId pending :=
  ⟨fun _ _ => GovernedCall.run_of_blocked, fun _ hparse _ h => h.asks hparse⟩

end

namespace Fixture

attribute [local instance] pendingCrates

/-- The begin of the request of the test sends a decision request. -/
theorem sends_preparedRequest : ∃ request, (Prepared.tool preparedRequest).Sends request := by
  have hinvokes := GovernedCall.invokes_postDecision gate_preparedRequest rfl
  exact ⟨_, .governed .refl (.inr (.inl rfl)) hinvokes⟩

/-- The call of the test on a client without an executor fails, and the request of the test is sent
under its own identity. -/
theorem fails_closed_request :
    (∃ error, call.run { client () with toolExecutor := none } = .fail error) ∧
    ∃ request, (Prepared.tool preparedRequest).Sends request ∧
      request.json = (Prepared.tool preparedRequest).envelope.json := by
  obtain ⟨request, hsends⟩ := sends_preparedRequest
  exact ⟨fails_closed.1 _ _ (.inr (.inl (.inl rfl))), request, hsends,
    (fails_closed.2 (.tool preparedRequest) parseJson_preparedRequest request hsends).1⟩

end Fixture

end ClavenarSdk
