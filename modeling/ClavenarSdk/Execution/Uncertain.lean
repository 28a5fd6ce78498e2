import ClavenarSdk.Execution.Fixture
import ClavenarSdk.Execution.Ordering

/-!
# Handles for uncertain effects

Which errors of a call carry a handle, where the handle comes from, and when the SDK's own
checks let it through to the effect lookup again.
-/

namespace ClavenarSdk

open Interaction ClavenarClient

/-- The handle inside an error of the store that the SDK passes on. -/
def forwardedHandle : Event Answer → Option UncertainExecution
  | ⟨.beginEffectAttempt _ _, .error (.executionUncertain uncertain)⟩ => some uncertain
  | ⟨.markReceiptDelivered _ _, .error (.executionUncertain uncertain)⟩ => some uncertain
  | _ => none

/-- The handles that the store itself put into errors which the SDK passes on. -/
def forwarded (history : List (Event Answer)) : List UncertainExecution :=
  history.filterMap forwardedHandle

/-- Nothing is passed on of an empty history. -/
@[simp] theorem forwarded_nil : forwarded [] = [] := rfl

/-- What is passed on of a history, event by event. -/
@[simp] theorem forwarded_cons (event : Event Answer) (history : List (Event Answer)) :
    forwarded (event :: history) = (forwardedHandle event).toList ++ forwarded history := by
  cases h : forwardedHandle event <;> simp [forwarded, h]

/-- What is passed on of one history and then of another. -/
@[simp] theorem forwarded_append (history history' : List (Event Answer)) :
    forwarded (history ++ history') = forwarded history ++ forwarded history' :=
  List.filterMap_append

/-! ### Errors that carry no handle -/

/-- The computation does not fail with a handle. -/
def Plain {α : Type} (x : Except ClavenarError α) : Prop :=
  ∀ uncertain, x ≠ .error (.executionUncertain uncertain)

/-- An error of a plain computation is not one with a handle. -/
theorem Plain.ne {α : Type} {x : Except ClavenarError α} (hx : Plain x) {error : ClavenarError}
    (h : x = .error error) (uncertain : UncertainExecution) :
    error ≠ .executionUncertain uncertain := by
  rintro rfl
  exact hx uncertain h

/-- What succeeds is plain. -/
@[simp] theorem plain_ok {α : Type} (a : α) : Plain (.ok a : Except ClavenarError α) := by
  simp [Plain]

/-- A configuration error carries no handle. -/
@[simp] theorem plain_invalidConfig {α : Type} (message : String) :
    Plain (.error (.invalidConfig message) : Except ClavenarError α) := by
  simp [Plain]

/-- Plain computations are plain one after the other. -/
theorem Plain.bind {α β : Type} {x : Except ClavenarError α} {f : α → Except ClavenarError β}
    (hx : Plain x) (hf : ∀ a, Plain (f a)) : Plain (x >>= f) := by
  cases x with
  | error e => exact fun uncertain h => hx uncertain (by simpa using h)
  | ok a => exact hf a

/-- Mapping the result leaves a computation plain. -/
theorem Plain.map {α β : Type} {x : Except ClavenarError α} (hx : Plain x) (f : α → β) :
    Plain (f <$> x) := by
  cases x with
  | error e => exact fun uncertain h => hx uncertain (congrArg Except.error (Except.error.inj h))
  | ok a => exact plain_ok _

/-- A choice of two plain computations is plain. -/
theorem Plain.ite {α : Type} {p : Prop} [Decidable p] {x y : Except ClavenarError α}
    (hx : Plain x) (hy : Plain y) : Plain (if p then x else y) := by
  split_ifs
  · exact hx
  · exact hy

/-- The check of a tool name carries no handle. -/
theorem plain_validateToolName (name : String) : Plain (validateToolName name) :=
  .ite (plain_invalidConfig _) (plain_ok _)

/-- Nor does the check of a list of calls. -/
theorem plain_validateModelToolCalls (calls : List ModelToolCall) :
    Plain (validateModelToolCalls calls) := by
  have hafter : ∀ ids, Plain (validateModelToolCallsAfter ids calls) := by
    induction calls with
    | nil => exact fun _ => plain_ok _
    | cons call calls ih =>
      exact fun _ => .ite (plain_invalidConfig _) (.ite (plain_invalidConfig _) (ih _))
  exact .ite (plain_invalidConfig _) (hafter [])

/-- Nor does the check of an outbox entry. -/
theorem plain_validateOutboxEntry (entry : ReceiptOutboxEntry) :
    Plain (validateOutboxEntry entry) :=
  .ite (plain_invalidConfig _) (plain_ok _)

/-- Nor does the requirement that the store claims authorizations. -/
theorem plain_requireSingleUseStore (store : DurableExecutionStore) :
    Plain (requireSingleUseStore store) :=
  .ite (plain_invalidConfig _) (plain_ok _)

/-- Nor does the requirement that the store keeps intents. -/
theorem plain_requireUncertainEffectStore (store : DurableExecutionStore) :
    Plain (requireUncertainEffectStore store) :=
  .ite (plain_invalidConfig _) (plain_ok _)

/-- Nor does the check of the authorization of a batch. -/
theorem plain_validateBatchAuthorization (signed : SignedAuthorization) (idempotencyId : Uuid)
    (calls : List ModelToolCall) (payload : Value) :
    Plain (validateBatchAuthorization signed idempotencyId calls payload) := by
  unfold validateBatchAuthorization
  cases AtomicBatchEnvelope.deserialize signed.authorization.executionPayload.json with
  | error error => exact plain_invalidConfig _
  | ok envelope =>
    exact (plain_validateModelToolCalls _).bind fun _ => .ite (plain_invalidConfig _) (plain_ok _)

/-- Nor does the error for a response. -/
theorem plain_executionHttpError {α : Type} (status : ℕ) (body : String) :
    Plain (.error (executionHttpError status body) : Except ClavenarError α) := by
  unfold executionHttpError
  split_ifs <;> simp [Plain]

section

variable [Crates]

/-- Nor does the check of an authorization. -/
theorem plain_validateAuthorization (signed : SignedAuthorization) (idempotencyId : Uuid) :
    Plain (validateAuthorization signed idempotencyId) :=
  .ite (plain_invalidConfig _) (plain_ok _)

/-- Nor does the check of a pending handle. -/
theorem plain_validatePendingAuthorization (pending : PendingAuthorization)
    (idempotencyId : Uuid) (body : Value) :
    Plain (validatePendingAuthorization pending idempotencyId body) :=
  .ite (plain_invalidConfig _) (plain_ok _)

/-- Nor does the look for the dependencies. -/
theorem plain_executionDependencies (client : ClavenarClient) :
    Plain client.executionDependencies := by
  have helim : ∀ {α : Type} (x : Option α) (message : String),
      Plain (x.elim (.error (.invalidConfig message)) .ok) := by
    intro α x message
    cases x with
    | none => exact plain_invalidConfig _
    | some a => exact plain_ok _
  refine (helim _ _).bind fun executor => ?_
  refine Plain.bind (.ite (plain_invalidConfig _) (plain_ok _)) fun _ => ?_
  refine (helim _ _).bind fun signingKey => (helim _ _).bind fun store => ?_
  exact (plain_requireUncertainEffectStore store).bind fun _ => plain_ok _

/-- Nor do the checks before a call. -/
theorem GovernedCall.plain_gate (client : ClavenarClient) (call : GovernedCall) :
    Plain (call.gate client) := by
  cases call with
  | executeTool => exact plain_executionDependencies client
  | executePreparedTool | beginPreparedToolExecution =>
    exact (plain_validateToolName _).bind fun _ => plain_executionDependencies client
  | executeToolBatch =>
    exact (plain_executionDependencies client).bind fun _ =>
      (plain_validateModelToolCalls _).bind fun _ => plain_ok _
  | executePreparedToolBatch =>
    exact (plain_validateModelToolCalls _).bind fun _ =>
      (plain_executionDependencies client).bind fun _ =>
        (plain_validateModelToolCalls _).bind fun _ => plain_ok _
  | beginPreparedToolBatchExecution =>
    exact (plain_validateModelToolCalls _).bind fun _ => plain_executionDependencies client
  | resumePreparedToolExecution =>
    exact (plain_validateToolName _).bind fun _ =>
      (plain_executionDependencies client).bind fun _ =>
        (plain_requireSingleUseStore _).bind fun _ =>
          (plain_validatePendingAuthorization _ _ _).bind fun _ => plain_ok _
  | resumePreparedToolBatchExecution =>
    exact (plain_validateModelToolCalls _).bind fun _ =>
      (plain_executionDependencies client).bind fun _ =>
        (plain_requireSingleUseStore _).bind fun _ =>
          (plain_validatePendingAuthorization _ _ _).bind fun _ => plain_ok _

/-- Nor does reading a response. -/
theorem plain_readTextLimited (response : Response) : Plain (readTextLimited response) := by
  have hchunks : ∀ limit chunks body, Plain (readChunks limit body chunks) := by
    intro limit chunks
    induction chunks with
    | nil => exact fun _ => plain_ok _
    | cons chunk chunks ih =>
      cases chunk with
      | error error => simp [readChunks, Plain]
      | ok chunk =>
        exact fun _ => .ite (by simp [Plain]) (.ite (by simp [Plain]) (ih _))
  have hbody : Plain (readBodyLimited response defaultResponseBodyLimit) :=
    .ite (by simp [Plain]) (hchunks _ _ _)
  refine hbody.bind fun body => ?_
  cases textOfUtf8 body with
  | none => simp [Plain]
  | some text => exact plain_ok _

/-- Nor does decoding a text. -/
theorem plain_fromStr {α : Type} [Deserialize α] (raw : String) :
    Plain (fromStr raw : Except ClavenarError α) := by
  unfold fromStr
  cases (parseJson raw >>= fromJson : Except DecodeError α) <;> simp [Plain, Except.mapError]

/-- Nor does decoding the confirmation of a receipt. -/
theorem plain_decodeReceiptRecorded (response : Response) :
    Plain (decodeReceiptRecorded response) :=
  (plain_readTextLimited response).bind fun _ =>
    .ite (plain_executionHttpError _ _) (plain_fromStr _)

/-- Nor does decoding an authorization. -/
theorem plain_decodeAuthorizationState (idempotencyId : Uuid) (body : Value)
    (pending : Option PendingAuthorization) (response : Response) :
    Plain (decodeAuthorizationState idempotencyId body pending response) := by
  refine (plain_readTextLimited response).bind fun raw => .ite ?_ (.ite ?_ ?_)
  · exact (plain_fromStr raw).bind fun pending =>
      (plain_validatePendingAuthorization _ _ _).bind fun _ => plain_ok _
  · exact plain_executionHttpError _ _
  · exact (plain_fromStr raw).bind fun authorization =>
      (plain_validateAuthorization _ _).bind fun _ =>
        .ite (plain_invalidConfig _) (.ite (plain_invalidConfig _) (plain_ok _))

/-- The checks of the decision never fail with a handle. -/
theorem GovernedCall.plain_decide (call : GovernedCall) (answer : Except String Response) :
    Plain (call.decide answer) := by
  cases answer with
  | error error => simp [decide, Except.mapError, Plain]
  | ok response =>
    refine (plain_decodeAuthorizationState _ _ _ _).bind fun state => ?_
    cases state with
    | pending retained =>
      have hpending : Plain (call.onPending retained) :=
        .ite (by simp [Plain]) (.ite (plain_invalidConfig _) (plain_ok _))
      exact hpending.map _
    | authorized authorization =>
      refine Plain.bind ?_ fun _ => plain_ok _
      unfold Requested.accept
      cases call.requested with
      | tool name arguments => exact plain_ok _
      | batch calls => exact plain_validateBatchAuthorization _ _ _ _

/-! ### Where a handle comes from -/

/-- The handle is the SDK's own, for the attempt of this authorization. -/
def Minted (executorId : String) (authorization : SignedAuthorization)
    (uncertain : UncertainExecution) : Prop :=
  ∃ reason registered,
    uncertain = uncertainFromIntent (intentOf executorId authorization) reason registered

/-- A delivery fails with a handle only if the store puts one into its error. -/
theorem deliverOutboxEntry_forwards (client : ClavenarClient) (entry : ReceiptOutboxEntry)
    {history : List (Event Answer)} (hnone : forwarded history = []) :
    Prog.Always (fun _ _ => True) (fun history result => ∀ uncertain,
      result = .error (.executionUncertain uncertain) → forwarded history = [uncertain])
      history (client.deliverOutboxEntry entry) := by
  unfold deliverOutboxEntry
  cases hentry : validateOutboxEntry entry with
  | error error =>
    exact fun uncertain h =>
      absurd (Except.error.inj h) ((plain_validateOutboxEntry entry).ne hentry uncertain)
  | ok _ =>
    simp only [recordReceipt, Prog.always_bind]
    cases joinUrl client.baseUrl "execution-receipts" with
    | error error => simp
    | ok endpoint =>
      refine ⟨trivial, fun answer => ?_⟩
      cases answer with
      | error error => simp
      | ok response =>
        simp only [Prog.always_lift]
        cases hrecorded : decodeReceiptRecorded response with
        | error error =>
          exact fun uncertain h =>
            absurd (Except.error.inj h)
              ((plain_decodeReceiptRecorded response).ne hrecorded uncertain)
        | ok recorded =>
          simp only
          split_ifs
          · simp
          refine ⟨trivial, fun answer => ?_⟩
          cases answer with
          | error error =>
            intro uncertain h
            obtain rfl : error = .executionUncertain uncertain := Except.error.inj h
            simp [hnone, forwardedHandle]
          | ok _ => simp

/-- So does the completion of an effect, apart from the errors without a receipt. -/
theorem completeKnownEffect_forwards (client : ClavenarClient) (signingKey : SigningKey)
    (authorization : SignedAuthorization) (effect : ExecutionEffect) (executorId : String)
    {history : List (Event Answer)} (hnone : forwarded history = []) :
    Prog.Always (fun _ _ => True) (fun history result =>
      (result = .error .persistenceUncertain → forwarded history = []) ∧
      ∀ uncertain, result = .error (.receiptDelivery (.executionUncertain uncertain)) →
        forwarded history = [uncertain])
      history (client.completeKnownEffect signingKey authorization effect executorId) := by
  simp only [completeKnownEffect, canonicalJson]
  refine ⟨trivial, fun answer => ?_⟩
  cases answer with
  | error error => simp [hnone, forwardedHandle]
  | ok queued =>
    simp only
    split_ifs
    · simp [hnone, forwardedHandle]
    rw [Prog.always_bind, Prog.always_mapError]
    refine (deliverOutboxEntry_forwards client queued
      (by simp [hnone, forwardedHandle])).mono (fun _ _ => id) ?_
    intro history' result hresult
    cases result with
    | error error => simpa [Except.mapError] using hresult
    | ok recorded => simp [Except.mapError]

/-- An execution that returns a handle minted it, or passes on the store's only one. -/
theorem executeAuthorization_origin (client : ClavenarClient)
    (executor : RegisteredToolExecutor) (signingKey : SigningKey)
    (authorization : SignedAuthorization) (singleUse : Bool) :
    Prog.Always (fun _ _ => True) (fun history result => ∀ uncertain,
      result = .error (.executionUncertain uncertain) →
        (forwarded history = [] ∧ Minted executor.id authorization uncertain) ∨
          forwarded history = [uncertain])
      [] (client.executeAuthorization executor signingKey authorization singleUse) := by
  refine ⟨trivial, fun answer => ?_⟩
  match answer with
  | .error error =>
    intro uncertain h
    obtain rfl : error = .executionUncertain uncertain := Except.error.inj h
    exact .inr rfl
  | .ok .alreadyInFlight =>
    intro uncertain h
    obtain rfl := ClavenarError.executionUncertain.inj (Except.error.inj h)
    exact .inl ⟨rfl, _, _, rfl⟩
  | .ok .alreadyCompleted =>
    intro uncertain h
    simp at h
  | .ok .started =>
    refine ⟨trivial, fun answer => ?_⟩
    cases answer with
    | error error =>
      intro uncertain h
      obtain rfl := ClavenarError.executionUncertain.inj (Except.error.inj h)
      exact .inl ⟨rfl, _, _, rfl⟩
    | ok effect =>
      cases hvalid : validateExecutionEffect effect with
      | error error =>
        simp only [hvalid]
        intro uncertain h
        obtain rfl := ClavenarError.executionUncertain.inj (Except.error.inj h)
        exact .inl ⟨rfl, _, _, rfl⟩
      | ok _ =>
        simp only [hvalid, Prog.always_mapError]
        refine (completeKnownEffect_forwards client signingKey authorization effect executor.id
          rfl).mono (fun _ _ => id) ?_
        rintro history' result ⟨hpersistence, hdelivery⟩ uncertain h
        match result with
        | .ok outcome => simp [Except.mapError] at h
        | .error .persistenceUncertain =>
          obtain rfl := ClavenarError.executionUncertain.inj (Except.error.inj h)
          exact .inl ⟨hpersistence rfl, _, _, rfl⟩
        | .error (.receiptDelivery error) =>
          obtain rfl : error = .executionUncertain uncertain := Except.error.inj h
          exact .inr (hdelivery uncertain rfl)

/-- An executor that fails leaves a handle of the SDK. -/
theorem executor_failed (client : ClavenarClient) (executor : RegisteredToolExecutor)
    (signingKey : SigningKey) (authorization : SignedAuthorization) (singleUse : Bool)
    (error : ClavenarError) :
    (client.executeAuthorization executor signingKey authorization singleUse).Returns
      [⟨.beginEffectAttempt (intentOf executor.id authorization)
          (if singleUse then .singleUse else .direct), .ok .started⟩,
        ⟨.execute (requestOf executor.id authorization), .error error⟩]
      (.error (.executionUncertain (uncertainFromIntent (intentOf executor.id authorization)
        .executorOutcomeUnknown executor.effectLookup))) :=
  .answered (.answered (.here _))

/-! ### When a handle passes the SDK's own checks -/

/-- The claims that a handle for this authorization must not leave empty. The SDK accepts
authorizations without them. -/
structure SignedAuthorization.Complete (signed : SignedAuthorization) : Prop where
  authorizationId : signed.authorization.authorizationId.isNil = false
  idempotencyId : signed.authorization.idempotencyId.isNil = false
  tenant : signed.authorization.tenant ≠ ""
  agentId : signed.authorization.agentId ≠ ""
  agentSpiffe : signed.authorization.agentSpiffe ≠ ""

/-- Reconciliation with this handle gets through to the effect lookup: the handle, also when
it was serialized and read again, passes its check, it matches the intent that was stored,
and the call invokes the lookup once the store returns that intent. -/
structure Reconcilable (client : ClavenarClient) (dependencies : ExecutionDependencies)
    (intent : ExecutionIntent) (uncertain : UncertainExecution) : Prop where
  valid : validateUncertainExecution uncertain = .ok ()
  restored : parseJson (toJson uncertain).text = .ok (toJson uncertain) →
    ∃ restored, fromStr (toJson uncertain).text = .ok restored ∧
      validateUncertainExecution restored = .ok ()
  binds : validateUncertainIntent uncertain intent = .ok ()
  reaches : dependencies.executor.effectLookup = true →
    (client.reconcileUncertainEffect uncertain).Invokes
      [⟨.loadUncertainIntent uncertain.authorizationId, .ok (some intent)⟩]
      (.lookupEffect (lookupOf intent))

/-- A handle is read from its text. -/
theorem fromStr_uncertainExecution {uncertain : UncertainExecution}
    (hparse : parseJson (toJson uncertain).text = .ok (toJson uncertain)) :
    fromStr (toJson uncertain).text = .ok uncertain := by
  exact fromStr_eq hparse (uncertainExecution_roundTrips uncertain)

/-- The handles of an attempt differ only in what the check ignores. -/
theorem validateUncertainExecution_minted {executorId : String}
    {authorization : SignedAuthorization} {uncertain : UncertainExecution}
    (hminted : Minted executorId authorization uncertain) {idempotencyId : Uuid}
    (hvalid : authorization.Valid idempotencyId)
    (hexecutor : validateExecutorId executorId = .ok ()) :
    validateUncertainExecution uncertain = .ok () ↔ authorization.Complete := by
  obtain ⟨reason, registered, rfl⟩ := hminted
  have hsize : authorization.authorization.payloadSha256.utf8ByteSize = 71 := by
    rw [hvalid.payloadSha256, utf8ByteSize_sha256]
  have hprefix :
      "sha256:".toList.isPrefixOf authorization.authorization.payloadSha256.toList = true := by
    rw [hvalid.payloadSha256, isPrefixOf_sha256]
  simp only [validateUncertainExecution, uncertainFromIntent, intentOf, hsize, hprefix, hexecutor,
    ite_eq_right_iff, reduceCtorEq, imp_false, not_or, not_not, Bool.not_eq_true, ne_eq]
  constructor
  · rintro ⟨-, -, hauthorization, hidempotency, htenant, hagent, hspiffe, -⟩
    exact ⟨hauthorization, hidempotency, htenant, hagent, hspiffe⟩
  · rintro ⟨hauthorization, hidempotency, htenant, hagent, hspiffe⟩
    exact ⟨trivial, trivial, hauthorization, hidempotency, htenant, hagent, hspiffe, trivial,
      trivial⟩

/-- The handles of an attempt match the intent of the attempt. -/
theorem Minted.binds {executorId : String} {authorization : SignedAuthorization}
    {uncertain : UncertainExecution} (hminted : Minted executorId authorization uncertain)
    {idempotencyId : Uuid} (hvalid : authorization.Valid idempotencyId) :
    uncertain.Binds (intentOf executorId authorization) := by
  obtain ⟨reason, registered, rfl⟩ := hminted
  exact { valid := hvalid.own, contract := rfl, stage := rfl,
          authorizationId := rfl, idempotencyId := rfl, tenant := rfl, workloadId := rfl,
          workloadSpiffe := rfl, payloadSha256 := rfl, executorId := rfl,
          claimedAuthorizationId := rfl, claimedTenant := rfl, claimedAgentId := rfl,
          claimedAgentSpiffe := rfl, claimedPayloadSha256 := rfl }

/-- A reconciliation whose handle passes its check loads the stored intent. -/
theorem reconcileUncertainEffect_eq {client : ClavenarClient}
    {dependencies : ExecutionDependencies} {uncertain : UncertainExecution}
    (hdependencies : client.executionDependencies = .ok dependencies)
    (hvalid : validateUncertainExecution uncertain = .ok ())
    (hexecutor : dependencies.executor.id = uncertain.executorId) :
    client.reconcileUncertainEffect uncertain =
      .await (.loadUncertainIntent uncertain.authorizationId) fun
        | .error _ | .ok none => pure (.uncertain
            (uncertainWithReason uncertain .durableIntentUnavailable
              dependencies.executor.effectLookup))
        | .ok (some intent) => client.reconcileIntent dependencies.executor
            dependencies.signingKey uncertain intent := by
  unfold reconcileUncertainEffect
  rw [hvalid, hdependencies]
  exact if_neg (not_not.mpr hexecutor)

/-- A reconciliation whose handle matches the stored intent queries the registered lookup. -/
theorem reconcileIntent_eq {client : ClavenarClient} {executor : RegisteredToolExecutor}
    {signingKey : SigningKey} {uncertain : UncertainExecution} {intent : ExecutionIntent}
    (hbinds : validateUncertainIntent uncertain intent = .ok ())
    (hlookup : executor.effectLookup = true) :
    client.reconcileIntent executor signingKey uncertain intent =
      .await (.lookupEffect (lookupOf intent)) fun
        | .error _ => pure (.uncertain (uncertainWithReason uncertain .lookupUnavailable true))
        | .ok .notFound => pure (.uncertain (uncertainWithReason uncertain .effectNotFound true))
        | .ok .ambiguous => pure (.uncertain (uncertainWithReason uncertain .lookupAmbiguous true))
        | .ok (.found effect) =>
          client.reconcileFound executor signingKey uncertain intent effect := by
  unfold reconcileIntent
  rw [hbinds, hlookup]
  exact if_neg (by simp)

/-- Reconciliation gets through to the lookup with every handle that passes the two checks. -/
theorem reconcilable_iff {client : ClavenarClient} {dependencies : ExecutionDependencies}
    {authorization : SignedAuthorization} {uncertain : UncertainExecution}
    (hdependencies : client.executionDependencies = .ok dependencies) :
    Reconcilable client dependencies (intentOf dependencies.executor.id authorization) uncertain ↔
      validateUncertainExecution uncertain = .ok () ∧
      validateUncertainIntent uncertain (intentOf dependencies.executor.id authorization) =
        .ok () := by
  refine ⟨fun h => ⟨h.valid, h.binds⟩, fun ⟨hpasses, hbinds⟩ => ?_⟩
  refine ⟨hpasses, fun hparse => ⟨uncertain, fromStr_uncertainExecution hparse, hpasses⟩,
    hbinds, fun hlookup => ?_⟩
  have hid : dependencies.executor.id = uncertain.executorId :=
    (validateUncertainIntent_eq_ok_iff.mp hbinds).executorId
  rw [reconcileUncertainEffect_eq hdependencies hpasses hid]
  refine Prog.Invokes.answered ?_
  simp only [reconcileIntent_eq hbinds hlookup]
  exact ⟨_, .here _⟩

/-- The SDK's own handles can be reconciled exactly when the authorization is complete. -/
theorem reconcilable_minted_iff {client : ClavenarClient} {dependencies : ExecutionDependencies}
    {authorization : SignedAuthorization} {uncertain : UncertainExecution}
    (hdependencies : client.executionDependencies = .ok dependencies)
    (hminted : Minted dependencies.executor.id authorization uncertain) {idempotencyId : Uuid}
    (hvalid : authorization.Valid idempotencyId) :
    Reconcilable client dependencies (intentOf dependencies.executor.id authorization) uncertain ↔
      authorization.Complete := by
  have hexecutor := (executionDependencies_eq_ok_iff.mp hdependencies).2.1
  have hbinds := validateUncertainIntent_eq_ok_iff.mpr (hminted.binds hvalid)
  rw [reconcilable_iff hdependencies, and_iff_left hbinds]
  exact validateUncertainExecution_minted hminted hvalid hexecutor

/-- What makes the handle of a run reconcilable: the authorization that was executed is
complete. A handle that the store put into its own error must be well formed and match the
intent of the attempt. -/
def HandleSound (executorId : String) (history : List (Event Answer))
    (authorization : SignedAuthorization) : Prop :=
  (forwarded history = [] → authorization.Complete) ∧
    ∀ uncertain ∈ forwarded history,
      validateUncertainExecution uncertain = .ok () ∧
      validateUncertainIntent uncertain (intentOf executorId authorization) = .ok ()

/-- A run that returns a handle validated an authorization and began to attempt its effect.
The handle can be reconciled if and only if that authorization is complete, where the handle
is the SDK's own. -/
theorem uncertain_reconcilable_iff {client : ClavenarClient} {call : GovernedCall}
    {history : List (Event Answer)} {uncertain : UncertainExecution}
    (h : (call.run client).Returns history (.error (.executionUncertain uncertain))) :
    ∃ dependencies authorization, client.executionDependencies = .ok dependencies ∧
      call.Validated history authorization ∧
      (∃ authorizationUse answer, (⟨.beginEffectAttempt
        (intentOf dependencies.executor.id authorization) authorizationUse, answer⟩ :
          Event Answer) ∈ history) ∧
      (Reconcilable client dependencies (intentOf dependencies.executor.id authorization)
        uncertain ↔ HandleSound dependencies.executor.id history authorization) := by
  generalize hresult : (.error (.executionUncertain uncertain) : Except ClavenarError ApiResult) =
    result at h
  cases GovernedCall.run_of_returns h with
  | refused hgate =>
    exact absurd (Except.error.inj hresult).symm ((call.plain_gate client).ne hgate _)
  | noEndpoint => simp at hresult
  | undecided _ _ hdecide =>
    exact absurd (Except.error.inj hresult).symm ((call.plain_decide _).ne hdecide _)
  | pending => simp at hresult
  | @executed dependencies endpoint answer authorization rest result hgate hjoin hdecide hreturns =>
    obtain ⟨hdependencies, -⟩ := GovernedCall.gate_eq_ok hgate
    obtain ⟨hadmitted, response, raw, rfl, hstatus, hraw, hdecoded⟩ :=
      GovernedCall.decide_eq_inr_iff.mp hdecide
    have hfailed : result = .error (.executionUncertain uncertain) := by
      cases result with
      | error error => exact congrArg Except.error (Except.error.inj hresult).symm
      | ok outcome => simp at hresult
    refine ⟨dependencies, authorization, hdependencies,
      ⟨hadmitted, _, response, raw, List.mem_cons_self, hstatus, hraw, hdecoded⟩, ?_, ?_⟩
    · obtain ⟨answer, rest', rfl, -⟩ := Prog.returns_await_iff.mp hreturns
      exact ⟨_, answer, by simp⟩
    have horigin := (executeAuthorization_origin client dependencies.executor
      dependencies.signingKey authorization _).of_returns hreturns uncertain hfailed
    simp only [HandleSound, forwarded_cons, forwardedHandle, Option.toList_none, List.nil_append]
    rcases horigin with ⟨hnone, hminted⟩ | hforwarded
    · simpa [hnone] using reconcilable_minted_iff hdependencies hminted hadmitted.valid
    · simp [hforwarded, reconcilable_iff hdependencies]

end

namespace Fixture

section

attribute [local instance] crates

/-- The handle of the test when its executor fails. -/
theorem uncertain_reconcilable_iff_call : ∃ history uncertain,
    (call.run (client ())).Returns history (.error (.executionUncertain uncertain)) ∧
    ∃ dependencies authorization, call.Validated history authorization ∧
      (Reconcilable (client ()) dependencies (intentOf dependencies.executor.id authorization)
        uncertain ↔ HandleSound dependencies.executor.id history authorization) := by
  have hreturns := GovernedCall.returns_executed (gate_call ()) rfl decide_call
    (executor_failed (client ()) executor () authorization false (.transport "timeout"))
  obtain ⟨dependencies, signed, -, hvalidated, -, hiff⟩ := uncertain_reconcilable_iff hreturns
  exact ⟨_, _, hreturns, dependencies, signed, hvalidated, hiff⟩

end

/-- The authorization of the fixture with an empty tenant. -/
def tenantless : SignedAuthorization :=
  { authorization with authorization := { authorization.authorization with tenant := "" } }

/-- The crates on the inputs of a run with it. -/
@[reducible] def tenantlessCrates : Crates := cratesOn [toJson tenantless] digests []

attribute [local instance] tenantlessCrates

/-- The SDK takes the authorization without a tenant for the call. -/
theorem decide_tenantless :
    call.decide (.ok (.ofText 200 (toJson tenantless).text)) = .ok (.inr tenantless) := by
  have hvalid : tenantless.Valid idempotencyId :=
    { contract := rfl, stage := rfl, idempotencyId := rfl, payloadSha256 := by decide +kernel,
      algorithm := rfl }
  refine GovernedCall.decide_ofText ⟨hvalid, fun _ => envelope_call, by simp [call,
    GovernedCall.pending], rfl⟩ (length_utf8Bytes_text_le (by decide +kernel)) ?_
    (by simp [Authorization.DiffDecoded, tenantless, authorization])
  exact parseJson_cratesOn (find?_text_head _ _)

/-- A run whose executor fails returns a handle that the SDK itself then refuses: the Proxy
left the tenant empty. -/
theorem tenantless_not_reconcilable :
    ∃ history uncertain,
      (call.run (client ())).Returns history (.error (.executionUncertain uncertain)) ∧
      validateUncertainExecution uncertain ≠ .ok () ∧
      ∀ history request,
        ¬((client ()).reconcileUncertainEffect uncertain).Invokes history
          (.lookupEffect request) := by
  have hreturns := GovernedCall.returns_executed (gate_call ()) rfl decide_tenantless
    (executor_failed (client ()) executor () tenantless false (.transport "timeout"))
  refine ⟨_, _, hreturns, ?_⟩
  have hrefused : validateUncertainExecution
      (uncertainFromIntent (intentOf executor.id tenantless) .executorOutcomeUnknown
        executor.effectLookup) =
        .error (.invalidConfig "invalid uncertain-effect reconciliation handle") := by
    simp [validateUncertainExecution, uncertainFromIntent, intentOf, tenantless]
  refine ⟨by simp [hrefused], fun history request hinvokes => ?_⟩
  simp [reconcileUncertainEffect, hrefused, Prog.fail] at hinvokes

end Fixture

end ClavenarSdk
