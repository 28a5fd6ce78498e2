import ClavenarSdk.Execution.AtMostOnce
import ClavenarSdk.Execution.Recovery

/-!
# Linked evidence

In every reachable state of any number of calls over one in-memory store, an authorization
whose executor was invoked has its exact intent stored, and every stored completion is
linked field by field to a stored intent.
-/

namespace ClavenarSdk

open Interaction ClavenarClient MemoryExecutionStore

section

variable [Crates]

/-- The completion is evidence about the intent: the same authorization, request and
executor, the signed authorization itself with its claims and payload digest, and the
digest and identity of one effect. -/
structure Linked (intent : ExecutionIntent) (completion : ExecutionCompletion) : Prop where
  authorizationId : completion.authorizationId = intent.authorizationId
  idempotencyId : completion.idempotencyId = intent.idempotencyId
  executorId : completion.executorId = intent.executorId
  authorization : completion.receipt.authorization = intent.authorization
  receiptAuthorizationId : completion.receipt.authorizationId =
    intent.authorization.authorization.authorizationId
  receiptIdempotencyId : completion.receipt.idempotencyId =
    intent.authorization.authorization.idempotencyId
  correlationId : completion.receipt.correlationId =
    intent.authorization.authorization.correlationId
  agentId : completion.receipt.agentId = intent.authorization.authorization.agentId
  agentSpiffe : completion.receipt.agentSpiffe = intent.authorization.authorization.agentSpiffe
  tenant : completion.receipt.tenant = intent.authorization.authorization.tenant
  credentialFingerprint : completion.receipt.credentialFingerprint =
    intent.authorization.authorization.credentialFingerprint
  method : completion.receipt.method = intent.authorization.authorization.method
  receiptPayloadSha256 : completion.receipt.payloadSha256 =
    intent.authorization.authorization.payloadSha256
  payloadSha256 : intent.authorization.authorization.payloadSha256 =
    sha256 intent.authorization.authorization.executionPayload.canonical
  resultSha256 : completion.actualResultSha256 = sha256 completion.actualResult.canonical
  receiptResultSha256 : completion.receipt.resultSha256 = completion.actualResultSha256
  effectId : completion.receipt.effectId = completion.effectId

/-- The intent is the one that the SDK builds from an authorization with a valid digest. -/
def WellFormedIntent (intent : ExecutionIntent) : Prop :=
  ∃ executorId authorization, intent = intentOf executorId authorization ∧
    authorization.Valid authorization.authorization.idempotencyId

/-- The authorization is in flight or completed. -/
def Attempted (store : MemoryExecutionStore) (authorizationId : Uuid) : Prop :=
  authorizationId ∈ store.inFlightAuthorizations ∨
    authorizationId ∈ store.completedAuthorizations

/-- The executor's input is exactly what a stored intent authorizes. -/
def Recorded (store : MemoryExecutionStore) (request : ToolExecutionRequest) : Prop :=
  ∃ intent ∈ store.intents, WellFormedIntent intent ∧
    request = requestOf intent.executorId intent.authorization ∧
    intent.authorizationId = request.authorizationId ∧ Attempted store request.authorizationId

/-- What holds of the store in every reachable state. -/
structure EvidenceInv (store : MemoryExecutionStore) : Prop where
  wellFormed : ∀ intent ∈ store.intents, WellFormedIntent intent
  linked : ∀ completion ∈ store.completions, ∃ intent ∈ store.intents, Linked intent completion
  kept : ∀ completion ∈ store.completions, outboxEntry completion ∈ store.pending ∨
    ∃ recorded, ((outboxEntry completion).outboxId, recorded) ∈ store.delivered
  enqueued : ∀ entry ∈ store.pending, ∃ completion ∈ store.completions,
    entry = outboxEntry completion

/-- What a call must ensure before it invokes an operation. -/
def Evident (store : MemoryExecutionStore) : Op → Prop
  | .beginEffectAttempt intent _ => WellFormedIntent intent
  | .execute request => Recorded store request
  | .commitEffectAndEnqueueReceipt completion =>
    ∃ intent ∈ store.intents, Linked intent completion
  | _ => True

/-- Intents are never removed, and attempts are never forgotten. -/
def Grows (store store' : MemoryExecutionStore) : Prop :=
  store.intents ⊆ store'.intents ∧
    ∀ authorizationId, Attempted store authorizationId → Attempted store' authorizationId

/-- What a call ensured for an operation still holds of a store that has grown. -/
theorem Evident.later {store store' : MemoryExecutionStore} {op : Op}
    (hgrows : Grows store store') (h : Evident store op) : Evident store' op := by
  cases op with
  | execute request =>
    obtain ⟨intent, hintent, hwell, hrequest, hid, hattempted⟩ := h
    exact ⟨intent, hgrows.1 hintent, hwell, hrequest, hid, hgrows.2 _ hattempted⟩
  | commitEffectAndEnqueueReceipt completion =>
    obtain ⟨intent, hintent, hlinked⟩ := h
    exact ⟨intent, hgrows.1 hintent, hlinked⟩
  | beginEffectAttempt => exact h
  | _ => trivial

/-- Every answer keeps the invariant, if the call ensured what the operation needs. -/
theorem evidence_step (store store' : MemoryExecutionStore) (event : Event Answer)
    (hinv : EvidenceInv store) (hevident : Evident store event.1)
    (h : store.Answers event.1 event.2 store') : EvidenceInv store' ∧ Grows store store' := by
  have hattempted := fun authorizationId => (answers_inFlight_or_completed h authorizationId).1
  cases Answers.change event h with
  | @started intent =>
    refine ⟨⟨fun intent' hintent' => ?_, fun completion hcompletion => ?_, hinv.kept,
      hinv.enqueued⟩, List.subset_append_left _ _, hattempted⟩
    · rcases List.mem_append.mp hintent' with hintent' | hintent'
      · exact hinv.wellFormed intent' hintent'
      · obtain rfl := List.mem_singleton.mp hintent'
        exact hevident
    · obtain ⟨intent', hintent', hlinked⟩ := hinv.linked completion hcompletion
      exact ⟨intent', List.mem_append_left _ hintent', hlinked⟩
  | @committed completion =>
    refine ⟨⟨hinv.wellFormed, fun completion' hcompletion' => ?_,
      fun completion' hcompletion' => ?_, fun entry hentry => ?_⟩, fun _ => id, hattempted⟩
    · rcases List.mem_append.mp hcompletion' with hcompletion' | hcompletion'
      · exact hinv.linked completion' hcompletion'
      · obtain rfl := List.mem_singleton.mp hcompletion'
        exact hevident
    · rcases List.mem_append.mp hcompletion' with hcompletion' | hcompletion'
      · exact (hinv.kept completion' hcompletion').imp_left (List.mem_append_left _)
      · obtain rfl := List.mem_singleton.mp hcompletion'
        exact .inl List.mem_concat_self
    · rcases List.mem_append.mp hentry with hentry | hentry
      · obtain ⟨completion', hcompletion', rfl⟩ := hinv.enqueued entry hentry
        exact ⟨completion', List.mem_append_left _ hcompletion', rfl⟩
      · obtain rfl := List.mem_singleton.mp hentry
        exact ⟨completion, List.mem_concat_self, rfl⟩
  | @delivered outboxId recorded index entry hentry hid =>
    refine ⟨⟨hinv.wellFormed, hinv.linked, fun completion hcompletion => ?_,
      fun entry' hentry' => hinv.enqueued entry' (List.mem_of_mem_eraseIdx hentry')⟩,
      fun _ => id, hattempted⟩
    rcases hinv.kept completion hcompletion with hpending | ⟨recorded', hdelivered⟩
    · obtain ⟨i, hi⟩ := List.mem_iff_getElem?.mp hpending
      by_cases hindex : i = index
      · subst hindex
        obtain rfl : entry = outboxEntry completion := Option.some.inj (hentry.symm.trans hi)
        rw [hid]
        exact .inr ⟨recorded, List.mem_concat_self⟩
      · exact .inl (List.mem_eraseIdx_iff_getElem?.mpr ⟨i, hindex, hi⟩)
    · exact .inr ⟨recorded', List.mem_append_left _ hdelivered⟩
  | notStarted | loaded | listed | notPending | outside =>
    exact ⟨hinv, fun _ => id, hattempted⟩

/-- The discipline of linked evidence. -/
def evidence : Discipline MemoryExecutionStore.env where
  inv := EvidenceInv
  rely := Grows
  demand := Evident
  rely_refl _ := ⟨fun _ => id, fun _ => id⟩
  rely_trans h h' := ⟨List.Subset.trans h.1 h'.1, fun _ => h'.2 _ ∘ h.2 _⟩
  demand_stable := Evident.later
  inv_init := by
    rintro store rfl
    exact ⟨by simp [initial], by simp [initial], by simp [initial], by simp [initial]⟩
  inv_drift := by
    rintro store _ (_ | _) hinv <;>
      exact ⟨⟨hinv.wellFormed, hinv.linked, hinv.kept, hinv.enqueued⟩, fun _ => id, fun _ => id⟩

/-- The operations of a delivery need nothing ensured. -/
theorem evident_of_delivers {store : MemoryExecutionStore} {op : Op}
    (h : delivers op = true) : Evident store op := by
  cases op <;> trivial

/-- Every operation of a call takes the invariant from one store to the next. -/
theorem evidence_steps : evidence.Steps := evidence_step

/-! ### Every call keeps the discipline -/

/-- What the SDK completes for a stored intent is linked to it. -/
theorem WellFormedIntent.linked {intent : ExecutionIntent} (h : WellFormedIntent intent)
    {executorId : String} (hexecutor : executorId = intent.executorId) (signingKey : SigningKey)
    (effect : ExecutionEffect) :
    Linked intent (completionOf executorId intent.authorization effect
      (receiptOf signingKey intent.authorization effect)) := by
  obtain ⟨executorId', authorization, rfl, hvalid⟩ := h
  subst hexecutor
  exact { authorizationId := rfl, idempotencyId := rfl, executorId := rfl, authorization := rfl,
          receiptAuthorizationId := rfl, receiptIdempotencyId := rfl, correlationId := rfl,
          agentId := rfl, agentSpiffe := rfl, tenant := rfl, credentialFingerprint := rfl,
          method := rfl, receiptPayloadSha256 := rfl, payloadSha256 := hvalid.payloadSha256,
          resultSha256 := rfl, receiptResultSha256 := rfl, effectId := rfl }

/-- Once the intent is stored and its attempt started, the rest of the call is in order. -/
theorem executeStarted_evident {store : MemoryExecutionStore} {client : ClavenarClient}
    {executor : RegisteredToolExecutor} {signingKey : SigningKey}
    {authorization : SignedAuthorization} {uncertain : UncertainExecution}
    (hwell : WellFormedIntent (intentOf executor.id authorization))
    (hstored : intentOf executor.id authorization ∈ store.intents)
    (hattempted : Attempted store authorization.authorization.authorizationId) :
    evidence.Keeps (fun _ _ => True) store
      (client.executeStarted executor signingKey authorization uncertain) := by
  refine evidence_steps.keeps_of_always [] (executeStarted_always ?_ ?_
    fun _ _ => evident_of_delivers)
  · exact ⟨_, hstored, hwell, rfl, rfl, hattempted⟩
  · intro _ effect
    exact ⟨_, hstored, hwell.linked rfl signingKey effect⟩

/-- An execution of a well-formed intent ensures what each of its operations needs. -/
theorem executeAuthorization_evident {store : MemoryExecutionStore} {client : ClavenarClient}
    {executor : RegisteredToolExecutor} {signingKey : SigningKey}
    {authorization : SignedAuthorization} {singleUse : Bool}
    (hwell : WellFormedIntent (intentOf executor.id authorization)) :
    evidence.Keeps (fun _ _ => True) store
      (client.executeAuthorization executor signingKey authorization singleUse) := by
  refine evidence_steps.keeps_await hwell fun answer s' s'' _ _ hanswer _ _ => ?_
  match answer with
  | .error error => simp
  | .ok .alreadyInFlight => simp
  | .ok .alreadyCompleted => simp
  | .ok .started =>
    have hchange := Answers.change
      ⟨.beginEffectAttempt (intentOf executor.id authorization) _, .ok .started⟩ hanswer
    cases hchange with
    | started =>
      exact executeStarted_evident hwell List.mem_concat_self (.inl (Finset.mem_insert_self _ _))
    | notStarted h => exact absurd rfl h
    | outside h => simp [Op.outside] at h

/-- A call that executes ensures what each of its operations needs: the intent that it begins with
comes of a validated authorization. -/
theorem governed_evident {store : MemoryExecutionStore} (client : ClavenarClient)
    (call : GovernedCall) : evidence.Keeps (fun _ _ => True) store (call.run client) := by
  rw [GovernedCall.run_eq_shape, GovernedCall.shape]
  cases call.gate client with
  | error error => simp
  | ok dependencies =>
    simp only
    cases joinUrl client.baseUrl "mcp" with
    | error error => simp
    | ok endpoint =>
      refine evidence_steps.keeps_await trivial fun answer s' s'' _ _ _ _ _ => ?_
      unfold GovernedCall.afterDecision
      cases hdecide : call.decide answer with
      | error error => simp
      | ok decision =>
        cases decision with
        | inl value => simp
        | inr authorization =>
          have hvalid := (GovernedCall.decide_eq_inr_iff.mp hdecide).1.valid
          have hwell : WellFormedIntent (intentOf dependencies.executor.id authorization) :=
            ⟨_, authorization, rfl, hvalid.own⟩
          exact Discipline.keeps_bind_pure (executeAuthorization_evident hwell) _

/-- So does a reconcile: the intent that it commits for is the one that the store returned. -/
theorem reconcile_evident {store : MemoryExecutionStore} (client : ClavenarClient)
    (uncertain : UncertainExecution) :
    evidence.Keeps (fun _ _ => True) store
      ((ApiCall.reconcileUncertainEffect uncertain).run client) := by
  refine Discipline.keeps_bind_pure ?_ _
  unfold reconcileUncertainEffect
  cases validateUncertainExecution uncertain with
  | error error => simp
  | ok _ =>
    simp only [Prog.lift_ok, Prog.done_ok_bind]
    cases client.executionDependencies with
    | error error => simp
    | ok dependencies =>
      simp only [Prog.lift_ok, Prog.done_ok_bind]
      split_ifs with hid
      · simp
      refine evidence_steps.keeps_await trivial fun answer s' s'' _ hinv hanswer _ _ => ?_
      match answer with
      | .error error => simp
      | .ok none => simp
      | .ok (some intent) =>
        obtain ⟨hload, rfl⟩ := hanswer
        have hstored : intent ∈ s''.intents := by
          have hload := (Except.ok.inj hload).symm
          simp only [loadUncertainIntent] at hload
          split_ifs at hload
          exact List.mem_of_find?_eq_some hload
        refine evidence_steps.keeps_of_always []
          (reconcileIntent_always trivial (fun hbinds _ effect => ⟨intent, hstored, ?_⟩)
            fun _ _ => evident_of_delivers)
        have hexecutor : dependencies.executor.id = intent.executorId :=
          (not_not.mp hid).trans hbinds.executorId.symm
        exact (hinv.wellFormed intent hstored).linked hexecutor _ effect

/-- Every call of the execution API ensures what its operations need. -/
theorem apiCall_evident {store : MemoryExecutionStore} (client : ClavenarClient)
    (call : ApiCall) : evidence.Keeps (fun _ _ => True) store (call.run client) := by
  cases call with
  | governed call => exact governed_evident client call
  | reconcileUncertainEffect uncertain => exact reconcile_evident client uncertain
  | flushExecutionReceiptOutbox limit =>
    exact evidence_steps.keeps_of_always []
      ((flushExecutionReceiptOutbox_always trivial fun _ _ => evident_of_delivers).bind_pure _)

/-! ### Every reachable state -/

/-- In every reachable state the invariant holds, and every invoked operation has what it
needs. -/
theorem evident_of_reachable {c : Sys MemoryExecutionStore Op Answer ClavenarError ApiResult}
    (h : c.Reachable MemoryExecutionStore.env Allowed) :
    EvidenceInv c.shared ∧ ∀ t ∈ c.tasks, ∀ op ∈ t.invoked, Evident c.shared op := by
  have hallowed : ∀ p, Allowed p → ∀ store, evidence.inv store →
      evidence.Keeps (fun _ _ => True) store p := by
    rintro p ⟨client, call, rfl⟩ store -
    exact apiCall_evident client call
  obtain ⟨hinv, htasks⟩ := evidence.of_reachable hallowed h
  exact ⟨hinv, fun t ht => (htasks t ht).1⟩

/-- No executed effect is lost, and all evidence is linked: an executor invocation acts on
what a stored intent authorizes, which is in flight or completed; a stored completion is
linked to a stored intent, and its receipt waits in the outbox or was delivered; and the
outbox holds nothing else. -/
theorem evidence_of_reachable
    {c : Sys MemoryExecutionStore Op Answer ClavenarError ApiResult}
    (h : c.Reachable MemoryExecutionStore.env Allowed) :
    (∀ t ∈ c.tasks, ∀ request, .execute request ∈ t.invoked → Recorded c.shared request) ∧
    (∀ completion ∈ c.shared.completions, ∃ intent ∈ c.shared.intents,
      Linked intent completion) ∧
    (∀ completion ∈ c.shared.completions, outboxEntry completion ∈ c.shared.pending ∨
      ∃ recorded, ((outboxEntry completion).outboxId, recorded) ∈ c.shared.delivered) ∧
    ∀ entry ∈ c.shared.pending, ∃ completion ∈ c.shared.completions,
      entry = outboxEntry completion := by
  obtain ⟨hinv, htasks⟩ := evident_of_reachable h
  exact ⟨fun t ht request hmem => htasks t ht _ hmem, hinv.linked, hinv.kept, hinv.enqueued⟩

end

namespace Fixture

attribute [local instance] crates

/-- The system after the call of the test ran to its end. -/
def finished : Sys MemoryExecutionStore Op Answer ClavenarError ApiResult :=
  .alone surroundings.handler initial (call.run (client ()))

/-- The state after the call has returned is reachable. -/
theorem finished_reachable : finished.Reachable MemoryExecutionStore.env Allowed :=
  Sys.reachable_alone rfl ⟨client (), .governed call, rfl⟩ (Surroundings.handler_answers rfl)

/-- The run of the test leaves its completion. -/
theorem completions_finished : finished.shared.completions = [completion] := by
  have hrun := (Surroundings.eval_run (obtains_call surroundings rfl) starts_call).1
  have hreturned : surroundings.executor (requestOf (dependencies ()).executor.id authorization) =
      .ok effect := rfl
  have heffect : validateExecutionEffect effect = .ok () := by decide +kernel
  have hstarted : (initial.start (intentOf (dependencies ()).executor.id authorization)
      call.authorizationUse).completions = [] := rfl
  rw [Surroundings.eval_executeStarted_returned hreturned heffect rfl] at hrun
  rw [finished, Sys.alone_shared, hrun, Surroundings.completions_completed, hstarted]
  rfl

/-- In the run of the test, which has one completion. -/
theorem evidence_of_finished : finished.Reachable MemoryExecutionStore.env Allowed ∧
    finished.shared.completions = [completion] ∧
    (∃ intent ∈ finished.shared.intents, Linked intent completion) ∧
    (outboxEntry completion ∈ finished.shared.pending ∨
      ∃ recorded, ((outboxEntry completion).outboxId, recorded) ∈ finished.shared.delivered) := by
  have hmem : completion ∈ finished.shared.completions := by
    rw [completions_finished]
    exact List.mem_singleton_self completion
  obtain ⟨-, hlinked, hkept, -⟩ := evidence_of_reachable finished_reachable
  exact ⟨finished_reachable, completions_finished, hlinked _ hmem, hkept _ hmem⟩

end Fixture

end ClavenarSdk
