import ClavenarSdk.Execution.Fixture

/-!
# Persist before acting, persist before reporting

Every operation of a governed call is justified by what the same call was answered before
it, on every history: complete, failed or cut off.
-/

namespace ClavenarSdk

open Interaction ClavenarClient

/-- The store committed this completion and answered with this entry for its receipt. -/
def Committed (history : List (Event Answer)) (completion : ExecutionCompletion)
    (entry : ReceiptOutboxEntry) : Prop :=
  (⟨.commitEffectAndEnqueueReceipt completion, .ok entry⟩ : Event Answer) ∈ history ∧
    entry.receipt = completion.receipt

/-- A commit stays in the history. -/
theorem Committed.mono {history history' : List (Event Answer)}
    {completion : ExecutionCompletion} {entry : ReceiptOutboxEntry}
    (h : Committed history completion entry) (hsub : history ⊆ history') :
    Committed history' completion entry :=
  ⟨hsub h.1, h.2⟩

section

variable [Crates]

/-- The call validated this authorization: its decision request was answered with it, and
it passed every check. -/
def GovernedCall.Validated (call : GovernedCall) (history : List (Event Answer))
    (authorization : SignedAuthorization) : Prop :=
  call.Admitted authorization ∧ ∃ request response raw,
    (⟨.postDecision request, .ok response⟩ : Event Answer) ∈ history ∧ response.status = 200 ∧
      readTextLimited response = .ok raw ∧ fromStr raw = .ok authorization

/-- How a call learned of an effect: its own executor invocation returned it, or the lookup
found it for a stored intent that the handle binds field by field. -/
inductive EffectReported (history : List (Event Answer)) (executorId : String) :
    ApiCall → SignedAuthorization → ExecutionEffect → Prop where
  | executed {call : GovernedCall} {authorization : SignedAuthorization}
      {effect : ExecutionEffect}
      (h : (⟨.execute (requestOf executorId authorization), .ok effect⟩ : Event Answer) ∈
        history) : EffectReported history executorId (.governed call) authorization effect
  | found {uncertain : UncertainExecution} {intent : ExecutionIntent} {effect : ExecutionEffect}
      (hload : (⟨.loadUncertainIntent uncertain.authorizationId, .ok (some intent)⟩ :
        Event Answer) ∈ history)
      (hbinds : uncertain.Binds intent)
      (hlookup : (⟨.lookupEffect (lookupOf intent), .ok (.found effect)⟩ : Event Answer) ∈
        history) :
      EffectReported history executorId (.reconcileUncertainEffect uncertain)
        intent.authorization effect

/-- The Proxy confirmed with status 200 or 201 that it recorded the receipt. -/
def ReceiptConfirmed (history : List (Event Answer)) (receipt : ExecutionReceipt)
    (recorded : ReceiptRecorded) : Prop :=
  (∃ request response, (⟨.postReceipt request, .ok response⟩ : Event Answer) ∈ history ∧
    request.json = toJson receipt ∧ (response.status = 200 ∨ response.status = 201) ∧
    decodeReceiptRecorded response = .ok recorded) ∧
  recorded.authorizationId = receipt.authorizationId ∧
  recorded.contract = executionContract ∧ recorded.stage = "execution.completed"

/-- What must have been answered in a call before it invokes an operation. -/
def Justified (client : ClavenarClient) (call : ApiCall) (history : List (Event Answer)) :
    Op → Prop
  | .postDecision _ => ∃ governed, call = .governed governed
  | .beginEffectAttempt intent _ => ∃ governed executor authorization,
      call = .governed governed ∧ client.toolExecutor = some executor ∧
      governed.Validated history authorization ∧ intent = intentOf executor.id authorization
  | .execute request => ∃ governed executor authorization authorizationUse,
      call = .governed governed ∧ client.toolExecutor = some executor ∧
      governed.Validated history authorization ∧
      (⟨.beginEffectAttempt (intentOf executor.id authorization) authorizationUse,
        .ok .started⟩ : Event Answer) ∈ history ∧
      request = requestOf executor.id authorization ∧
      (intentOf executor.id authorization).payloadSha256 =
        sha256 request.executionPayload.canonical
  | .loadUncertainIntent authorizationId => ∃ uncertain,
      call = .reconcileUncertainEffect uncertain ∧ authorizationId = uncertain.authorizationId
  | .lookupEffect request => ∃ uncertain intent, call = .reconcileUncertainEffect uncertain ∧
      (⟨.loadUncertainIntent uncertain.authorizationId, .ok (some intent)⟩ : Event Answer) ∈
        history ∧ uncertain.Binds intent ∧ request = lookupOf intent
  | .commitEffectAndEnqueueReceipt completion => ∃ executor signingKey authorization effect text,
      client.toolExecutor = some executor ∧ client.executionSigningKey = some signingKey ∧
      (effect.effectId ≠ "" ∧ effect.effectId.utf8ByteSize ≤ 256) ∧
      EffectReported history executor.id call authorization effect ∧
      canonicalJson (unsignedReceipt authorization effect) = .ok text ∧
      completion = completionOf executor.id authorization effect
        (signedReceipt signingKey authorization effect text)
  | .postReceipt request => ∃ completion entry, Committed history completion entry ∧
      request.json = toJson completion.receipt
  | .markReceiptDelivered outboxId recorded => ∃ completion entry,
      Committed history completion entry ∧ entry.outboxId = outboxId ∧
      ReceiptConfirmed history completion.receipt recorded
  | .pendingReceipts _ => False

/-- An execution is reported complete only after its receipt was recorded by the Proxy and
marked as delivered. -/
def Reported (history : List (Event Answer)) (outcome : ExecutionOutcome) : Prop :=
  ∃ completion entry, Committed history completion entry ∧
    ReceiptConfirmed history completion.receipt outcome.receipt ∧
    (⟨.markReceiptDelivered entry.outboxId outcome.receipt, .ok ()⟩ : Event Answer) ∈ history ∧
    outcome.result = completion.actualResult ∧ outcome.effectId = completion.effectId

/-- The execution that a result reports complete. -/
def ApiResult.outcome : ApiResult → Option ExecutionOutcome
  | .executed outcome | .resumable (.completed outcome) | .reconciled (.completed outcome) =>
    some outcome
  | .resumable (.pending _) | .reconciled (.uncertain _) | .flushed _ => none

/-! ### Justifications outlast later answers -/

/-- So does the validated authorization. -/
theorem GovernedCall.Validated.mono {call : GovernedCall} {history history' : List (Event Answer)}
    {authorization : SignedAuthorization} (h : call.Validated history authorization)
    (hsub : history ⊆ history') : call.Validated history' authorization := by
  obtain ⟨hadmitted, request, response, raw, hmem, hrest⟩ := h
  exact ⟨hadmitted, request, response, raw, hsub hmem, hrest⟩

/-- So does the confirmation of a receipt. -/
theorem ReceiptConfirmed.mono {history history' : List (Event Answer)}
    {receipt : ExecutionReceipt} {recorded : ReceiptRecorded}
    (h : ReceiptConfirmed history receipt recorded) (hsub : history ⊆ history') :
    ReceiptConfirmed history' receipt recorded := by
  obtain ⟨⟨request, response, hmem, hrest⟩, hnames⟩ := h
  exact ⟨⟨request, response, hsub hmem, hrest⟩, hnames⟩

/-! ### Delivery -/

/-- A confirmation is decoded of a response of success only. -/
theorem decodeReceiptRecorded_status {response : Response} {recorded : ReceiptRecorded}
    (h : decodeReceiptRecorded response = .ok recorded) :
    response.status = 200 ∨ response.status = 201 := by
  obtain ⟨raw, -, h⟩ := bind_eq_ok_iff.mp h
  by_contra hstatus
  rw [if_pos (by omega)] at h
  simp at h

/-- A delivery of a committed entry posts its receipt and, if that is confirmed, marks the entry.
What it returns is the confirmation. -/
theorem deliverOutboxEntry_ordered {client : ClavenarClient} {call : ApiCall}
    {history : List (Event Answer)} {completion : ExecutionCompletion}
    {entry : ReceiptOutboxEntry} (hcommitted : Committed history completion entry) :
    Prog.Always (Justified client call)
      (fun history result => ∀ recorded, result = .ok recorded →
        Committed history completion entry ∧
        ReceiptConfirmed history completion.receipt recorded ∧
        (⟨.markReceiptDelivered entry.outboxId recorded, .ok ()⟩ : Event Answer) ∈ history)
      history (client.deliverOutboxEntry entry) := by
  unfold deliverOutboxEntry
  cases validateOutboxEntry entry with
  | error error => simp
  | ok _ =>
    simp only [recordReceipt, Prog.always_bind]
    cases joinUrl client.baseUrl "execution-receipts" with
    | error error => simp
    | ok endpoint =>
      refine ⟨⟨completion, entry, hcommitted, by rw [hcommitted.2]⟩, fun answer => ?_⟩
      cases answer with
      | error error => simp
      | ok response =>
        simp only [Prog.always_lift]
        cases hrecorded : decodeReceiptRecorded response with
        | error error => simp
        | ok recorded =>
          simp only
          split_ifs with hnames
          · simp
          simp only [not_or, not_not] at hnames
          set answered := history ++ [(⟨.postReceipt ⟨endpoint, [], client.auth.token,
            toJson entry.receipt⟩, .ok response⟩ : Event Answer)] with hanswered
          have hcommitted' : Committed answered completion entry :=
            hcommitted.mono (List.subset_append_left _ _)
          have hconfirmed : ReceiptConfirmed answered completion.receipt recorded := by
            refine ⟨⟨_, response, List.mem_concat_self, by rw [hcommitted.2],
              decodeReceiptRecorded_status hrecorded, hrecorded⟩, ?_, hnames.2⟩
            rw [hnames.1, hcommitted.2]
          refine ⟨⟨completion, entry, hcommitted', rfl, hconfirmed⟩, fun answer => ?_⟩
          cases answer with
          | error error => simp
          | ok _ =>
            intro recorded' hresult
            obtain rfl := Except.ok.inj hresult
            exact ⟨hcommitted'.mono (List.subset_append_left _ _),
              hconfirmed.mono (List.subset_append_left _ _), List.mem_concat_self⟩

/-! ### Completion and execution -/

/-- A completion commits a valid effect that was reported before it delivers the entry, and what it
returns is reported. -/
theorem completeKnownEffect_ordered {client : ClavenarClient} {call : ApiCall}
    {history : List (Event Answer)} {executor : RegisteredToolExecutor} {signingKey : SigningKey}
    {authorization : SignedAuthorization} {effect : ExecutionEffect}
    (hexecutor : client.toolExecutor = some executor)
    (hkey : client.executionSigningKey = some signingKey)
    (hvalid : validateExecutionEffect effect = .ok ())
    (hreported : EffectReported history executor.id call authorization effect) :
    Prog.Always (Justified client call)
      (fun history result => ∀ outcome, result = .ok outcome → Reported history outcome)
      history (client.completeKnownEffect signingKey authorization effect executor.id) := by
  simp only [completeKnownEffect, canonicalJson]
  refine ⟨⟨executor, signingKey, authorization, effect, _, hexecutor, hkey,
    validateExecutionEffect_eq_ok_iff.mp hvalid, hreported, rfl, rfl⟩, fun answer => ?_⟩
  cases answer with
  | error error => simp
  | ok queued =>
    simp only
    split_ifs with hreceipt
    · simp
    have hcommitted := (⟨List.mem_concat_self, not_not.mp hreceipt⟩ : Committed (history ++ [_])
      (completionOf executor.id authorization effect (signedReceipt signingKey authorization
        effect _)) queued)
    rw [Prog.always_bind, Prog.always_mapError]
    refine (deliverOutboxEntry_ordered hcommitted).mono (fun _ _ => id) ?_
    intro history' result hdelivered
    cases result with
    | error error => simp [Except.mapError]
    | ok recorded =>
      intro outcome houtcome
      obtain rfl := Except.ok.inj houtcome
      obtain ⟨hcommitted', hconfirmed, hmarked⟩ := hdelivered recorded rfl
      exact ⟨_, queued, hcommitted', hconfirmed, hmarked, rfl, rfl⟩

/-- An execution begins the attempt of a validated authorization, invokes the executor and then
completes what that returned. -/
theorem executeAuthorization_ordered {client : ClavenarClient} {call : GovernedCall}
    {history : List (Event Answer)} {dependencies : ExecutionDependencies}
    {authorization : SignedAuthorization} {singleUse : Bool}
    (hdependencies : client.executionDependencies = .ok dependencies)
    (hvalidated : call.Validated history authorization) :
    Prog.Always (Justified client (.governed call))
      (fun history result => ∀ outcome, result = .ok outcome → Reported history outcome)
      history (client.executeAuthorization dependencies.executor dependencies.signingKey
        authorization singleUse) := by
  obtain ⟨hexecutor, -, hkey, -, -⟩ := executionDependencies_eq_ok_iff.mp hdependencies
  refine ⟨⟨call, _, authorization, rfl, hexecutor, hvalidated, rfl⟩, fun answer => ?_⟩
  match answer with
  | .error error => simp
  | .ok .alreadyInFlight => simp
  | .ok .alreadyCompleted => simp
  | .ok .started =>
    have hvalidated' := hvalidated.mono (List.subset_append_left history
      [(⟨.beginEffectAttempt (intentOf dependencies.executor.id authorization)
        (if singleUse then .singleUse else .direct), .ok .started⟩ : Event Answer)])
    refine ⟨⟨call, _, authorization, _, rfl, hexecutor, hvalidated', List.mem_concat_self, rfl,
      hvalidated.1.valid.payloadSha256⟩, fun answer => ?_⟩
    cases answer with
    | error error => simp
    | ok effect =>
      cases hvalid : validateExecutionEffect effect with
      | error error => simp [hvalid]
      | ok _ =>
        simp only [hvalid, Prog.always_mapError]
        refine (completeKnownEffect_ordered hexecutor hkey hvalid
          (.executed List.mem_concat_self)).mono (fun _ _ => id) ?_
        intro history' result hresult outcome houtcome
        cases result with
        | error error => cases error <;> simp [Except.mapError] at houtcome
        | ok outcome' =>
          obtain rfl := Except.ok.inj houtcome
          exact hresult _ rfl

/-- A call that executes asks for a decision first, and every outcome that it returns is reported.
-/
theorem governed_ordered (client : ClavenarClient) (call : GovernedCall) :
    Prog.Always (Justified client (.governed call))
      (fun history result => ∀ value, result = .ok value →
        ∀ outcome ∈ value.outcome, Reported history outcome) [] (call.run client) := by
  rw [GovernedCall.run_eq_shape, GovernedCall.shape]
  cases hgate : call.gate client with
  | error error => simp
  | ok dependencies =>
    obtain ⟨hdependencies, -⟩ := GovernedCall.gate_eq_ok hgate
    simp only
    cases joinUrl client.baseUrl "mcp" with
    | error error => simp
    | ok endpoint =>
      refine ⟨⟨call, rfl⟩, fun answer => ?_⟩
      unfold GovernedCall.afterDecision
      cases hdecide : call.decide answer with
      | error error => simp
      | ok decision =>
        cases decision with
        | inl value =>
          obtain ⟨retained, rfl, -⟩ := GovernedCall.decide_eq_inl hdecide
          simp [ApiResult.outcome]
        | inr authorization =>
          obtain ⟨hadmitted, response, raw, rfl, hstatus, hraw, hsigned⟩ :=
            GovernedCall.decide_eq_inr_iff.mp hdecide
          have hvalidated := (⟨hadmitted, _, response, raw, List.mem_concat_self, hstatus, hraw,
            hsigned⟩ : call.Validated ([] ++ [⟨.postDecision (call.decisionRequest client endpoint),
              .ok response⟩]) authorization)
          simp only [Prog.always_bind]
          refine (executeAuthorization_ordered hdependencies hvalidated).mono (fun _ _ => id) ?_
          intro history' result hresult
          cases result with
          | error error => simp
          | ok outcome =>
            intro value hvalue outcome' houtcome
            obtain rfl := Except.ok.inj hvalue
            have hcompleted : (call.onCompleted outcome).outcome = some outcome := by
              simp only [GovernedCall.onCompleted]
              split_ifs <;> rfl
            obtain rfl : outcome = outcome' := by simpa [hcompleted] using houtcome
            exact hresult _ rfl

/-! ### Reconciliation -/

/-- A reconcile that found an effect completes it for the intent that the store returned. -/
theorem reconcileFound_ordered {client : ClavenarClient} {uncertain : UncertainExecution}
    {intent : ExecutionIntent} {effect : ExecutionEffect} {history : List (Event Answer)}
    {executor : RegisteredToolExecutor} {signingKey : SigningKey}
    (hexecutor : client.toolExecutor = some executor)
    (hkey : client.executionSigningKey = some signingKey)
    (hreported : EffectReported history executor.id (.reconcileUncertainEffect uncertain)
      intent.authorization effect) :
    Prog.Always (Justified client (.reconcileUncertainEffect uncertain))
      (fun history result => ∀ outcome, result = .ok (.completed outcome) →
        Reported history outcome)
      history (client.reconcileFound executor signingKey uncertain intent effect) := by
  unfold reconcileFound
  cases hvalid : validateExecutionEffect effect with
  | error error => simp
  | ok _ =>
    rw [Prog.always_andThen]
    refine (completeKnownEffect_ordered hexecutor hkey hvalid hreported).mono
      (fun _ _ => id) ?_
    intro history' result hresult
    match result with
    | .ok completed => simpa using hresult
    | .error .persistenceUncertain => simp
    | .error (.receiptDelivery error) => simp

/-- A reconcile loads the intent before it asks the executor, and every outcome that it returns is
reported. -/
theorem reconcileUncertainEffect_ordered (client : ClavenarClient)
    (uncertain : UncertainExecution) :
    Prog.Always (Justified client (.reconcileUncertainEffect uncertain))
      (fun history result => ∀ outcome, result = .ok (.completed outcome) →
        Reported history outcome) [] (client.reconcileUncertainEffect uncertain) := by
  unfold reconcileUncertainEffect
  cases validateUncertainExecution uncertain with
  | error error => simp
  | ok _ =>
    simp only [Prog.lift_ok, Prog.done_ok_bind]
    cases hdependencies : client.executionDependencies with
    | error error => simp
    | ok dependencies =>
      obtain ⟨executor, signingKey, store⟩ := dependencies
      obtain ⟨hexecutor, -, hkey, -, -⟩ := executionDependencies_eq_ok_iff.mp hdependencies
      simp only [Prog.lift_ok, Prog.done_ok_bind]
      split_ifs with hid
      · simp
      refine ⟨⟨uncertain, rfl, rfl⟩, fun answer => ?_⟩
      match answer with
      | .error error => simp
      | .ok none => simp
      | .ok (some intent) =>
        simp only [reconcileIntent]
        cases hbinds : validateUncertainIntent uncertain intent with
        | error error => simp
        | ok _ =>
          have hbinds := validateUncertainIntent_eq_ok_iff.mp hbinds
          simp only
          split_ifs with hlookup
          · simp
          refine ⟨⟨uncertain, intent, rfl, by simp, hbinds, rfl⟩, fun answer => ?_⟩
          match answer with
          | .error error => simp
          | .ok .notFound => simp
          | .ok .ambiguous => simp
          | .ok (.found effect) =>
            exact reconcileFound_ordered hexecutor hkey
              (@EffectReported.found _ _ _ uncertain intent effect (by simp) hbinds (by simp))

/-! ### Every call -/

/-- Every operation that a governed call or a reconciliation invokes is justified by the
answers before it, and it reports an execution complete only after the receipt was recorded
and marked as delivered. -/
theorem apiCall_ordered (client : ClavenarClient) (call : ApiCall)
    (hcall : ∀ limit, call ≠ .flushExecutionReceiptOutbox limit) (history : List (Event Answer)) :
    (∀ op, (call.run client).Invokes history op → Justified client call history op) ∧
      ∀ result, (call.run client).Returns history (.ok result) →
        ∀ outcome ∈ result.outcome, Reported history outcome := by
  have halways : Prog.Always (Justified client call)
      (fun history result => ∀ value, result = .ok value →
        ∀ outcome ∈ value.outcome, Reported history outcome) [] (call.run client) := by
    cases call with
    | governed call => exact governed_ordered client call
    | reconcileUncertainEffect uncertain =>
      simp only [ApiCall.run, Prog.always_bind]
      refine (reconcileUncertainEffect_ordered client uncertain).mono (fun _ _ => id) ?_
      intro history' result hresult
      cases result with
      | error error => simp
      | ok reconciled =>
        intro value hvalue outcome houtcome
        obtain rfl := Except.ok.inj hvalue
        cases reconciled with
        | completed outcome' =>
          obtain rfl : outcome' = outcome := Option.some.inj houtcome
          exact hresult _ rfl
        | uncertain uncertain' => simp [ApiResult.outcome] at houtcome
    | flushExecutionReceiptOutbox limit => exact absurd rfl (hcall limit)
  exact ⟨fun op hop => halways.of_invokes hop,
    fun result hresult => halways.of_returns hresult result rfl⟩

end

namespace Fixture

attribute [local instance] crates

/-- In the run of the test. -/
theorem apiCall_ordered_call : ∃ history outcome,
    (call.run (client ())).Returns history (.ok (.executed outcome)) ∧
      Reported history outcome := by
  obtain ⟨history, hreturns⟩ := returns_call
  have hreported := (apiCall_ordered (client ()) (.governed call) (by simp) history).2 _ hreturns
  exact ⟨history, _, hreturns, hreported _ rfl⟩

end Fixture

end ClavenarSdk
