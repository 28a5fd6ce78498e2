import ClavenarSdk.Execution.Modification

/-!
# Pending handles

A prepared request is begun once and resumed any number of times with the handle that its begin
returned. The handle never changes, it is consumed once, and no other request can use it.
-/

namespace ClavenarSdk

open Interaction ClavenarClient

/-- A prepared request. -/
inductive Prepared where
  | tool (prepared : PreparedToolRequest)
  | batch (prepared : PreparedToolBatch)

namespace Prepared

/-- The serialized form. -/
def document : Prepared → Json
  | .tool prepared => toJson prepared
  | .batch prepared => toJson prepared

/-- The call that begins the request. -/
def begin : Prepared → GovernedCall
  | .tool prepared => .beginPreparedToolExecution prepared
  | .batch prepared => .beginPreparedToolBatchExecution prepared

/-- The call that resumes the request. -/
def resume (handle : PendingAuthorization) : Prepared → GovernedCall
  | .tool prepared => .resumePreparedToolExecution prepared handle
  | .batch prepared => .resumePreparedToolBatchExecution prepared handle

/-- The identity of the request. -/
def idempotencyId : Prepared → Uuid
  | .tool prepared => prepared.idempotencyId
  | .batch prepared => prepared.idempotencyId

/-- The envelope that is sent for authorization. -/
def envelope : Prepared → Value
  | .tool prepared => toolEnvelope prepared.idempotencyId prepared.name prepared.arguments
  | .batch prepared => atomicBatchEnvelope prepared.idempotencyId prepared.calls

variable {p q : Prepared} {handle : PendingAuthorization}

/-- A resume keeps the identity of the request. -/
@[simp] theorem resume_idempotencyId : (p.resume handle).idempotencyId = p.idempotencyId := by
  cases p <;> rfl

/-- So does a begin. -/
@[simp] theorem begin_idempotencyId : p.begin.idempotencyId = p.idempotencyId := by
  cases p <;> rfl

/-- A resume sends the envelope of the request. -/
@[simp] theorem resume_envelope : (p.resume handle).envelope = p.envelope := by
  cases p <;> rfl

/-- So does a begin. -/
@[simp] theorem begin_envelope : p.begin.envelope = p.envelope := by
  cases p <;> rfl

/-- A resume is about its handle. -/
@[simp] theorem resume_pending : (p.resume handle).pending = some handle := by
  cases p <;> rfl

end Prepared

/-- The envelope of a tool call is not that of a batch. -/
theorem not_spellsBatch_toolEnvelope {idempotencyId idempotencyId' : Uuid} {name : String}
    {arguments : Value} {calls : List ModelToolCall} :
    ¬SpellsBatch idempotencyId' calls (toolEnvelope idempotencyId name arguments).json := by
  rintro ⟨_, _, _, henvelope, -⟩
  rw [toolEnvelope_json] at henvelope
  have hmethod := henvelope.mem.mpr
    (by simp : ("method", Json.string atomicToolCallBatchMethod) ∈ _)
  simp [atomicToolCallBatchMethod] at hmethod

/-- Different prepared requests have different envelopes: the id, the name, the arguments, the
calls and their order can all be read off the envelope. -/
theorem Prepared.envelope_injective : Function.Injective Prepared.envelope := by
  intro p q h
  match p, q with
  | .tool prepared, .tool prepared' =>
    obtain ⟨hid, hname, harguments⟩ := toolEnvelope_inj h
    cases prepared
    cases prepared'
    simp_all
  | .tool _, .batch prepared =>
    have hspells := spellsBatch_envelope prepared.idempotencyId prepared.calls
    exact absurd (congrArg Value.json h ▸ hspells) not_spellsBatch_toolEnvelope
  | .batch prepared, .tool _ =>
    have hspells := spellsBatch_envelope prepared.idempotencyId prepared.calls
    exact absurd (congrArg Value.json h ▸ hspells) not_spellsBatch_toolEnvelope
  | .batch prepared, .batch prepared' =>
    have hread := spellsBatch_iff.mp (spellsBatch_envelope prepared.idempotencyId prepared.calls)
    have hread' := spellsBatch_iff.mp (spellsBatch_envelope prepared'.idempotencyId prepared'.calls)
    have hjson : (atomicBatchEnvelope prepared.idempotencyId prepared.calls).json =
        (atomicBatchEnvelope prepared'.idempotencyId prepared'.calls).json := congrArg Value.json h
    rw [hjson, hread'] at hread
    simp only [Except.ok.injEq, AtomicBatchEnvelope.mk.injEq, AtomicBatchParams.mk.injEq,
      AtomicBatchArguments.mk.injEq, true_and] at hread
    have hid := Uuid.toText_injective hread.1
    cases prepared
    cases prepared'
    simp_all

/-- All numbers of the envelope of a tool call are integers if those of its arguments are. -/
theorem integral_toolEnvelope {idempotencyId : Uuid} {name : String} {arguments : Value}
    (h : arguments.Integral) : (toolEnvelope idempotencyId name arguments).Integral := by
  rw [Value.Integral, toolEnvelope_json]
  have hparams : Json.Integral (.object [("arguments", arguments.json), ("name", .string name)]) :=
    .object trivial (by simpa using ⟨h, Json.Checked.string name⟩)
  refine .object trivial ?_
  simp only [List.forall_mem_cons]
  exact ⟨.string _, .string _, .string _, hparams, by simp⟩

section

variable [Crates]

/-- The request itself, or what is read from its serialized text. -/
def Prepared.Restores : Prepared → Prepared → Prop
  | .tool prepared, .tool prepared' =>
    prepared' = prepared ∨ fromStr (toJson prepared).text = .ok prepared'
  | .batch prepared, .batch prepared' =>
    prepared' = prepared ∨ fromStr (toJson prepared).text = .ok prepared'
  | _, _ => False

/-- The handle itself, or what is read from its serialized text. -/
def PendingAuthorization.Restores (handle handle' : PendingAuthorization) : Prop :=
  handle' = handle ∨ fromStr (toJson handle).text = .ok handle'

/-- A request need not be serialized. -/
theorem Prepared.Restores.refl (p : Prepared) : p.Restores p := by
  cases p <;> exact .inl rfl

/-- Whatever is read from a text that parses to its document is what was written. -/
theorem eq_of_fromStr_text {α : Type} [Serialize α] [Deserialize α] {a a' : α}
    (hparse : parseJson (toJson a).text = .ok (toJson a)) (hround : fromJson (toJson a) = .ok a)
    (h : fromStr (toJson a).text = .ok a') : a' = a := by
  rw [fromStr_eq hparse hround] at h
  exact (Except.ok.inj h).symm

/-- A restored request is the same. -/
theorem Prepared.Restores.eq {p p' : Prepared} (h : p.Restores p')
    (hparse : parseJson p.document.text = .ok p.document) : p' = p := by
  match p, p' with
  | .tool prepared, .tool prepared' =>
    obtain rfl | h := h
    · rfl
    · rw [eq_of_fromStr_text hparse (preparedToolRequest_roundTrips prepared) h]
  | .batch prepared, .batch prepared' =>
    obtain rfl | h := h
    · rfl
    · rw [eq_of_fromStr_text hparse (preparedToolBatch_roundTrips prepared) h]
  | .tool _, .batch _ => exact h.elim
  | .batch _, .tool _ => exact h.elim

/-- A restored handle is the same. -/
theorem PendingAuthorization.Restores.eq {handle handle' : PendingAuthorization}
    (h : handle.Restores handle')
    (hparse : parseJson (toJson handle).text = .ok (toJson handle)) : handle' = handle := by
  obtain rfl | h := h
  · rfl
  · exact eq_of_fromStr_text hparse (pendingAuthorization_roundTrips handle) h

/-- The handles that a chain of calls for a prepared request returns, the first and the latest: a
begin and then any number of resumes. Between two calls the request and the handle may be
serialized and restored, and the client may be another one. -/
inductive Prepared.Chain (p : Prepared) : PendingAuthorization → PendingAuthorization → Prop where
  | begin {client : ClavenarClient} {p' : Prepared} {history : List (Event Answer)}
      {handle : PendingAuthorization} (hp : p.Restores p')
      (h : (p'.begin.run client).Returns history (.ok (.resumable (.pending handle)))) :
      Chain p handle handle
  | resume {client : ClavenarClient} {p' : Prepared} {history : List (Event Answer)}
      {first handle handle' retained : PendingAuthorization} (hchain : Chain p first handle)
      (hp : p.Restores p') (hhandle : handle.Restores handle')
      (h : ((p'.resume handle').run client).Returns history
        (.ok (.resumable (.pending retained)))) : Chain p first retained

/-- A call returns a handle after one decision request, and the handle is valid for the
request. -/
theorem GovernedCall.returned_pending {client : ClavenarClient} {call : GovernedCall}
    {history : List (Event Answer)} {retained : PendingAuthorization}
    (h : (call.run client).Returns history (.ok (.resumable (.pending retained)))) :
    (∃ request answer, history = [⟨.postDecision request, answer⟩]) ∧
    (∀ handle ∈ call.pending, retained = handle) ∧
    validatePendingAuthorization retained call.idempotencyId call.envelope = .ok () := by
  generalize hresult : Except.ok (ApiResult.resumable (.pending retained)) = result at h
  cases run_of_returns h with
  | refused | noEndpoint | undecided => simp at hresult
  | pending hgate hjoin hdecide =>
    obtain ⟨retained', rfl, -, hunchanged, hvalid⟩ := decide_eq_inl hdecide
    obtain rfl : retained = retained' := by simpa using hresult
    exact ⟨⟨_, _, rfl⟩, hunchanged, hvalid⟩
  | @executed _ _ _ _ _ outcome =>
    cases outcome with
    | error error => simp at hresult
    | ok outcome =>
      have hresult : ApiResult.resumable (.pending retained) = call.onCompleted outcome :=
        Except.ok.inj hresult
      unfold onCompleted at hresult
      split_ifs at hresult
      simp at hresult

/-- A call has been answered with an authorization and has begun its attempt, and nothing else:
what it needs to invoke the executor. -/
def GovernedCall.Begun (client : ClavenarClient) (call : GovernedCall)
    (history : List (Event Answer)) (request : ToolExecutionRequest) : Prop :=
  ∃ executor decisionRequest answer authorization, client.toolExecutor = some executor ∧
    call.decide answer = .ok (.inr authorization) ∧
    history = [⟨.postDecision decisionRequest, answer⟩,
      ⟨.beginEffectAttempt (intentOf executor.id authorization)
        (if call.pending.isSome then .singleUse else .direct), .ok .started⟩] ∧
    request = requestOf executor.id authorization

/-- A call invokes the executor only after it has begun. -/
theorem GovernedCall.begun_always (client : ClavenarClient) (call : GovernedCall) :
    Prog.Always (fun history op => ∀ request, op = .execute request →
      call.Begun client history request) (fun _ _ => True) [] (call.run client) := by
  refine run_always (by simp) fun dependencies endpoint answer authorization hgate hdecide => ?_
  refine executeAuthorization_always (by simp) (executeStarted_always ?_ (by simp)
    fun _ op hop => ?_)
  · rintro _ ⟨⟩
    have hexecutor := (executionDependencies_eq_ok_iff.mp (gate_eq_ok hgate).1).1
    exact ⟨_, _, _, _, hexecutor, hdecide, rfl, rfl⟩
  · cases op <;> simp_all [delivers]

/-- A call invokes the executor right after it began the attempt of the authorization that it
obtained, and never again. -/
theorem GovernedCall.begun_of_invokes {client : ClavenarClient} {call : GovernedCall}
    {history : List (Event Answer)} {request : ToolExecutionRequest}
    (h : (call.run client).Invokes history (.execute request)) :
    call.Begun client history request :=
  (call.begun_always client).of_invokes h request rfl

/-- What the check of a handle compares: the identity of the request and its digest. -/
theorem validatePendingAuthorization_binds {handle : PendingAuthorization} {idempotencyId : Uuid}
    {body : Value} (h : validatePendingAuthorization handle idempotencyId body = .ok ()) :
    handle.idempotencyId = idempotencyId ∧ handle.payloadSha256 = sha256 body.canonical := by
  simp only [validatePendingAuthorization, ite_eq_right_iff, reduceCtorEq, imp_false, not_or,
    not_not] at h
  exact ⟨h.2.2.1, h.2.2.2.2.2.1⟩

/-- All handles of a chain are the first one, and it is valid for the request. -/
theorem Prepared.Chain.stable {p : Prepared} {first handle : PendingAuthorization}
    (h : p.Chain first handle) (hprepared : parseJson p.document.text = .ok p.document)
    (hfirst : parseJson (toJson first).text = .ok (toJson first)) :
    handle = first ∧ validatePendingAuthorization first p.idempotencyId p.envelope = .ok () := by
  induction h with
  | begin hp h =>
    obtain ⟨-, -, hvalid⟩ := GovernedCall.returned_pending h
    rw [hp.eq hprepared] at hvalid
    exact ⟨rfl, by simpa using hvalid⟩
  | resume hchain hp hhandle h ih =>
    obtain ⟨rfl, hvalid⟩ := ih hfirst
    obtain ⟨-, hunchanged, -⟩ := GovernedCall.returned_pending h
    rw [hhandle.eq hfirst] at hunchanged
    exact ⟨hunchanged _ (by simp), hvalid⟩

/-- A resume with a handle that is not valid for its request fails at once. -/
theorem Prepared.run_resume_refused {client : ClavenarClient} {q : Prepared}
    {handle : PendingAuthorization}
    (h : validatePendingAuthorization handle q.idempotencyId q.envelope ≠ .ok ()) :
    ∃ error, (q.resume handle).run client = .fail error := by
  rw [GovernedCall.run_eq_shape, GovernedCall.shape]
  cases hgate : (q.resume handle).gate client with
  | error error => exact ⟨error, rfl⟩
  | ok dependencies =>
    have hvalid := (GovernedCall.gate_eq_ok hgate).2 handle (by simp)
    rw [resume_idempotencyId, resume_envelope] at hvalid
    exact absurd hvalid h

/-- A pending handle is stable and bound to one request. In every chain of a begin and resumes, a
resume that returns a handle returns the one it was given, after nothing but its decision request;
a resume that invokes the executor has begun a single-use attempt of an authorization of this
request and this handle; and no other request can be resumed with the handle. -/
theorem pending_bound {p : Prepared} {first handle : PendingAuthorization}
    (hchain : p.Chain first handle) (hprepared : parseJson p.document.text = .ok p.document)
    (hfirst : parseJson (toJson first).text = .ok (toJson first)) :
    handle = first ∧ ∀ p' handle', p.Restores p' → handle.Restores handle' →
    ∀ client : ClavenarClient,
      (∀ history retained,
        ((p'.resume handle').run client).Returns history (.ok (.resumable (.pending retained))) →
        retained = handle ∧ ∃ request answer, history = [⟨.postDecision request, answer⟩]) ∧
      (∀ history request, ((p'.resume handle').run client).Invokes history (.execute request) →
        ∃ executor decisionRequest answer authorization,
          client.toolExecutor = some executor ∧
          history = [⟨.postDecision decisionRequest, answer⟩,
            ⟨.beginEffectAttempt (intentOf executor.id authorization) .singleUse,
              .ok .started⟩] ∧
          request = requestOf executor.id authorization ∧
          authorization.authorization.idempotencyId = p.idempotencyId ∧
          authorization.authorization.correlationId = handle.correlationId ∧
          (authorization.authorization.modificationDiff = none →
            authorization.authorization.executionPayload = p.envelope)) ∧
      ∀ q : Prepared, q.envelope ≠ p.envelope → p.envelope.Integral → q.envelope.Integral →
        (sha256 q.envelope.canonical = sha256 p.envelope.canonical →
          q.envelope.canonical = p.envelope.canonical) →
        ∃ error, (q.resume handle').run client = .fail error := by
  obtain ⟨rfl, hvalid⟩ := hchain.stable hprepared hfirst
  refine ⟨rfl, fun p' handle' hp hhandle client => ?_⟩
  obtain rfl := hp.eq hprepared
  obtain rfl := hhandle.eq hfirst
  refine ⟨fun history retained h => ?_, fun history request h => ?_, fun q hne hp hq hsha => ?_⟩
  · obtain ⟨hhistory, hunchanged, -⟩ := GovernedCall.returned_pending h
    exact ⟨hunchanged _ (by simp), hhistory⟩
  · obtain ⟨executor, decisionRequest, answer, authorization, hexecutor, hdecide, rfl, rfl⟩ :=
      GovernedCall.begun_of_invokes h
    have hadmitted := (GovernedCall.decide_eq_inr_iff.mp hdecide).1
    refine ⟨executor, decisionRequest, answer, authorization, hexecutor, ?_, rfl, ?_, ?_, ?_⟩
    · simp
    · simpa using hadmitted.valid.idempotencyId
    · exact hadmitted.correlation _ (by simp)
    · simpa using hadmitted.unmodified
  · refine Prepared.run_resume_refused fun hother => hne ?_
    have hdigest := (validatePendingAuthorization_binds hvalid).2
    have hdigest' := (validatePendingAuthorization_binds hother).2
    exact Value.eq_of_canonical_eq hq hp (hsha (hdigest'.symm.trans hdigest))

/-- A decision response with a valid handle is returned by a begin. -/
theorem GovernedCall.returns_pending {client : ClavenarClient} {call : GovernedCall}
    {dependencies : ExecutionDependencies} {endpoint : String} {response : Response}
    {retained : PendingAuthorization} {value : ApiResult}
    (hgate : call.gate client = .ok dependencies)
    (hjoin : joinUrl client.baseUrl "mcp" = .ok endpoint)
    (hstate : decodeAuthorizationState call.idempotencyId call.envelope call.pending response =
      .ok (.pending retained))
    (hvalue : call.onPending retained = .ok value) :
    (call.run client).Returns [⟨.postDecision (call.decisionRequest client endpoint), .ok response⟩]
      (.ok value) := by
  have hdecide : call.decide (.ok response) = .ok (.inl value) := by
    simp [decide, Except.mapError, hstate, hvalue]
  rw [run_eq_await hgate hjoin]
  refine Prog.returns_await_iff.mpr ⟨.ok response, [], rfl, ?_⟩
  simp only [afterDecision, hdecide]
  exact Prog.returns_done_iff.mpr ⟨rfl, rfl⟩

end

namespace Fixture

/-- The prepared request of the test. -/
def preparedRequest : PreparedToolRequest := ⟨idempotencyId, "payments.transfer", arguments⟩

/-- A request for another amount. -/
def otherRequest : PreparedToolRequest :=
  ⟨idempotencyId, "payments.transfer", .ofJson (.object [("amount", .number (.int 200))])⟩

/-- The handle that the Proxy of the test returns. -/
def pendingHandle : PendingAuthorization where
  contract := pendingAuthorizationContract
  status := "pending"
  pendingId := correlationId
  idempotencyId := idempotencyId
  correlationId := correlationId
  payloadSha256 := authorization.authorization.payloadSha256
  ttlSeconds := 3600
  pollAfterMs := 1000

/-- The crates on the inputs of a run that pends and is resumed. -/
@[reducible] def pendingCrates : Crates :=
  cratesOn [toJson pendingHandle, toJson authorization, toJson preparedRequest] digests []

attribute [local instance] pendingCrates

/-- The handle is valid for the request. -/
theorem pendingHandle_valid : validatePendingAuthorization pendingHandle idempotencyId
    (Prepared.tool preparedRequest).envelope = .ok () := by
  decide +kernel

/-- The handle is parsed from its text. -/
theorem parseJson_pendingHandle :
    parseJson (toJson pendingHandle).text = .ok (toJson pendingHandle) :=
  parseJson_cratesOn (find?_text_head _ _)

/-- The request is parsed from its text. -/
theorem parseJson_preparedRequest :
    parseJson (toJson preparedRequest).text = .ok (toJson preparedRequest) := by
  have hhandle : (toJson pendingHandle).text ≠ (toJson preparedRequest).text :=
    Json.text_ne_text (by decide)
  have hauthorization : (toJson authorization).text ≠ (toJson preparedRequest).text :=
    Json.text_ne_text (by decide)
  refine parseJson_cratesOn ?_
  rw [List.find?_cons_of_neg (by simpa using hhandle),
    List.find?_cons_of_neg (by simpa using hauthorization)]
  exact find?_text_head _ _

/-- The request is valid. -/
theorem validate_preparedRequest : preparedRequest.validate = .ok () := by
  decide +kernel

/-- A begin of the request passes its checks. -/
theorem gate_preparedRequest :
    (Prepared.tool preparedRequest).begin.gate (client ()) = .ok (dependencies ()) := by
  simp [Prepared.begin, GovernedCall.gate, validate_preparedRequest, executionDependencies_client]

/-- A begin of the request that is answered with the handle makes a chain. -/
theorem pending_chain : (Prepared.tool preparedRequest).Chain pendingHandle pendingHandle := by
  have hstate : decodeAuthorizationState idempotencyId (Prepared.tool preparedRequest).envelope
      none (.ofText 202 (toJson pendingHandle).text) = .ok (.pending pendingHandle) :=
    decodeAuthorizationState_eq_pending_iff.mpr ⟨rfl,
      ⟨_, readTextLimited_ofText (length_utf8Bytes_text_le (by decide +kernel)),
        fromStr_eq parseJson_pendingHandle (pendingAuthorization_roundTrips _)⟩,
      pendingHandle_valid⟩
  exact .begin (.refl _) (GovernedCall.returns_pending gate_preparedRequest rfl hstate rfl)

/-- The resumed call invokes the executor. -/
theorem resumed_invokes : ∃ history request,
    (((Prepared.tool preparedRequest).resume pendingHandle).run (client ())).Invokes history
      (.execute request) := by
  have hgate : ((Prepared.tool preparedRequest).resume pendingHandle).gate (client ()) =
      .ok (dependencies ()) := by
    have hvalid : validatePendingAuthorization pendingHandle preparedRequest.idempotencyId
        (toolEnvelope preparedRequest.idempotencyId preparedRequest.name
          preparedRequest.arguments) = .ok () := pendingHandle_valid
    simp [Prepared.resume, GovernedCall.gate, validate_preparedRequest,
      executionDependencies_client, requireSingleUseStore, dependencies, hvalid]
  have hdecide : ((Prepared.tool preparedRequest).resume pendingHandle).decide
      (.ok (.ofText 200 (toJson authorization).text)) = .ok (.inr authorization) := by
    have hcorrelation : ∀ handle ∈ ((Prepared.tool preparedRequest).resume pendingHandle).pending,
        authorization.authorization.correlationId = handle.correlationId := by
      rintro _ ⟨⟩
      rfl
    have hne : (toJson pendingHandle).text ≠ (toJson authorization).text :=
      Json.text_ne_text (by decide)
    have hvalid : authorization.Valid idempotencyId :=
      { contract := rfl, stage := rfl, idempotencyId := rfl, payloadSha256 := by decide +kernel,
        algorithm := rfl }
    refine GovernedCall.decide_ofText ⟨hvalid, fun _ => envelope_call, hcorrelation,
      rfl⟩ (length_utf8Bytes_text_le (by decide +kernel)) (parseJson_cratesOn ?_)
      (by simp [Authorization.DiffDecoded, authorization])
    rw [List.find?_cons_of_neg (by simpa using hne)]
    exact find?_text_head _ _
  exact ⟨_, _, GovernedCall.invokes_execute hgate rfl hdecide⟩

/-- All numbers of the arguments are integers. -/
theorem integral_amount (n : Int) :
    Value.Integral (.ofJson (.object [("amount", .number (.int n))])) := by
  simp only [Value.Integral, Value.ofJson, Json.normalize, Json.normalizeMembers,
    Json.insertMember]
  exact .object trivial (by simpa using Json.Checked.number trivial)

/-- The handle of the test resumes its own request with a single-use attempt, and no request for
another amount. -/
theorem pending_bound_call :
    (∃ history request authorization executorId,
      (((Prepared.tool preparedRequest).resume pendingHandle).run (client ())).Invokes history
        (.execute request) ∧
      (⟨.beginEffectAttempt (intentOf executorId authorization) .singleUse, .ok .started⟩ :
        Event Answer) ∈ history ∧
      authorization.authorization.correlationId = pendingHandle.correlationId) ∧
    ∃ error, ((Prepared.tool otherRequest).resume pendingHandle).run (client ()) = .fail error := by
  have hbound := (pending_bound pending_chain parseJson_preparedRequest parseJson_pendingHandle).2
    _ _ (.refl _) (.inl rfl) (client ())
  refine ⟨?_, ?_⟩
  · obtain ⟨history, request, hinvokes⟩ := resumed_invokes
    obtain ⟨executor, _, _, authorization, -, hhistory, -, -, hcorrelation, -⟩ :=
      hbound.2.1 history request hinvokes
    exact ⟨history, request, authorization, executor.id, hinvokes, by simp [hhistory], hcorrelation⟩
  · have hne : (Prepared.tool otherRequest).envelope ≠
        (Prepared.tool preparedRequest).envelope := by
      intro h
      have hrequests := Prepared.envelope_injective h
      revert hrequests
      simp only [Prepared.tool.injEq, otherRequest, preparedRequest, PreparedToolRequest.mk.injEq,
        true_and]
      decide +kernel
    refine hbound.2.2 _ hne (integral_toolEnvelope (integral_amount 100))
      (integral_toolEnvelope (integral_amount 200)) fun h => ?_
    exact absurd h (by decide +kernel)

end Fixture

end ClavenarSdk
