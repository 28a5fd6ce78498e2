import ClavenarSdk.Execution.MemoryStore

/-!
# At most one invocation of the executor

Any number of clients run any calls over one durable store, interleaved and cut off at
every await point. If the store starts each authorization at most once, the executor is
invoked at most once for it.
-/

namespace ClavenarSdk

open Interaction ClavenarClient

/-- The operation invokes the executor for this authorization. -/
def Op.executes (authorizationId : Uuid) : Op → Bool
  | .execute request => request.authorizationId = authorizationId
  | _ => false

/-- The operation invokes the executor. -/
def Op.isExecute : Op → Bool
  | .execute _ => true
  | _ => false

/-- The operation belongs to an effect attempt: it begins one or invokes the executor. -/
def Op.attempts : Op → Bool
  | .beginEffectAttempt _ _ | .execute _ => true
  | _ => false

/-- The store started an effect attempt for this authorization. -/
def startedFor (authorizationId : Uuid) : Event Answer → Bool
  | ⟨.beginEffectAttempt intent _, .ok .started⟩ => intent.authorizationId = authorizationId
  | _ => false

/-- The contract of `begin_effect_attempt`: after `Started` was returned for an
authorization, no later call returns it for the same authorization. -/
def StartedOnce (log : List (Event Answer)) : Prop :=
  log.Pairwise fun earlier later => ∀ authorizationId,
    startedFor authorizationId earlier = true → startedFor authorizationId later = false

/-- How an attempt that was not started ends: the handle says that a prior attempt is in
flight, or the authorization is already completed. -/
def RejectedAttempt (intent : ExecutionIntent) : Except ClavenarError ApiResult → Prop
  | .error (.executionUncertain uncertain) => uncertain.reason = .inFlightAfterPriorAttempt ∧
      uncertain.authorizationId = intent.authorizationId
  | .error (.executionAlreadyCompleted authorizationId idempotencyId) =>
      authorizationId = intent.authorizationId ∧ idempotencyId = intent.idempotencyId
  | _ => False

/-- Under the contract at most one attempt of an authorization was started. -/
theorem StartedOnce.countP_le_one {log : List (Event Answer)} (h : StartedOnce log)
    (authorizationId : Uuid) : log.countP (startedFor authorizationId) ≤ 1 := by
  induction log with
  | nil => simp
  | cons event log ih =>
    obtain ⟨hevent, hlog⟩ := List.pairwise_cons.mp h
    have hrest := ih hlog
    by_cases hstarted : startedFor authorizationId event = true
    · have hnone : log.countP (startedFor authorizationId) = 0 := by
        rw [List.countP_eq_zero]
        intro later hlater
        simp [hevent later hlater authorizationId hstarted]
      rw [List.countP_cons_of_pos hstarted, hnone]
    · rw [List.countP_cons_of_neg hstarted]
      exact hrest

/-- The delivery of a receipt is no part of an attempt. -/
theorem not_attempts_of_delivers {op : Op} (h : delivers op = true) : op.attempts = false := by
  cases op <;> simp_all [delivers, Op.attempts]

/-- An operation outside of attempts does not invoke the executor for an authorization. -/
theorem not_executes_of_not_attempts {authorizationId : Uuid} {op : Op}
    (h : op.attempts = false) : op.executes authorizationId = false := by
  cases op <;> simp_all [Op.attempts, Op.executes]

/-- An operation outside of attempts does not invoke the executor. -/
theorem not_isExecute_of_not_attempts {op : Op} (h : op.attempts = false) :
    op.isExecute = false := by
  cases op <;> simp_all [Op.attempts, Op.isExecute]

/-! ### The in-memory store -/

/-- Every started attempt is in flight or completed, and none was started twice. -/
def StartedRecorded (store : MemoryExecutionStore) (log : List (Event Answer)) : Prop :=
  StartedOnce log ∧ ∀ authorizationId, ∀ event ∈ log,
    startedFor authorizationId event = true →
      authorizationId ∈ store.inFlightAuthorizations ∨
        authorizationId ∈ store.completedAuthorizations

/-- Attempts enter the in-flight set when they are started, and leave it only for the
completed set. -/
theorem answers_inFlight_or_completed {store store' : MemoryExecutionStore}
    {event : Event Answer} (h : store.Answers event.1 event.2 store') (authorizationId : Uuid) :
    (authorizationId ∈ store.inFlightAuthorizations ∨
      authorizationId ∈ store.completedAuthorizations →
        authorizationId ∈ store'.inFlightAuthorizations ∨
          authorizationId ∈ store'.completedAuthorizations) ∧
    (startedFor authorizationId event = true →
      (authorizationId ∉ store.inFlightAuthorizations ∧
        authorizationId ∉ store.completedAuthorizations) ∧
      authorizationId ∈ store'.inFlightAuthorizations) := by
  cases MemoryExecutionStore.Answers.change event h with
  | started hflight hcompleted =>
    refine ⟨fun hmem => hmem.imp_left Finset.mem_insert_of_mem, fun hstarted => ?_⟩
    obtain rfl := of_decide_eq_true hstarted
    exact ⟨⟨hflight, hcompleted⟩, Finset.mem_insert_self _ _⟩
  | notStarted hanswer =>
    refine ⟨id, fun hstarted => ?_⟩
    simp only [startedFor] at hstarted
    split at hstarted
    · simp_all
    · simp at hstarted
  | @committed completion =>
    refine ⟨fun hmem => ?_, by simp [startedFor]⟩
    by_cases hid : authorizationId = completion.authorizationId
    · exact .inr (by simp [MemoryExecutionStore.commitEffectAndEnqueueReceipt, hid])
    · simpa [MemoryExecutionStore.commitEffectAndEnqueueReceipt, hid] using hmem
  | loaded | listed | delivered | notPending => exact ⟨id, by simp [startedFor]⟩
  | outside houtside =>
    obtain ⟨op, answer⟩ := event
    exact ⟨id, by cases op <;> simp_all [startedFor, Op.outside]⟩

/-- Each answer of the store keeps the record of started attempts. -/
theorem StartedRecorded.answer {store store' : MemoryExecutionStore} {log : List (Event Answer)}
    {event : Event Answer} (h : StartedRecorded store log)
    (hanswer : store.Answers event.1 event.2 store') :
    StartedRecorded store' (log ++ [event]) := by
  obtain ⟨honce, hrecorded⟩ := h
  constructor
  · refine List.pairwise_append.mpr ⟨honce, List.pairwise_singleton _ _, ?_⟩
    intro earlier hearlier later hlater authorizationId hstarted
    obtain rfl := List.mem_singleton.mp hlater
    by_contra hagain
    obtain ⟨hfresh, -⟩ := (answers_inFlight_or_completed hanswer authorizationId).2
      (by simpa using hagain)
    exact (hrecorded authorizationId earlier hearlier hstarted).elim hfresh.1 hfresh.2
  · intro authorizationId event' hevent' hstarted
    obtain ⟨hkeeps, hstarts⟩ := answers_inFlight_or_completed hanswer authorizationId
    rcases List.mem_append.mp hevent' with hevent' | hevent'
    · exact hkeeps (hrecorded authorizationId event' hevent' hstarted)
    · obtain rfl := List.mem_singleton.mp hevent'
      exact .inl (hstarts hstarted).2

/-- The in-memory store meets the contract of `begin_effect_attempt` in every run. -/
theorem memory_startedOnce {c : Sys MemoryExecutionStore Op Answer ClavenarError ApiResult}
    {allowed : Call ApiResult → Prop} (h : c.Reachable MemoryExecutionStore.env allowed) :
    StartedOnce c.log := by
  have hrecorded : StartedRecorded c.shared c.log := by
    refine h.invariant (fun _ _ => ⟨List.Pairwise.nil, by simp⟩)
      (fun _ _ _ _ hanswer hlog => hlog.answer hanswer) ?_
    rintro store _ log (_ | _) ⟨honce, hlog⟩ <;> exact ⟨honce, hlog⟩
  exact hrecorded.1

variable [Crates]

/-- Calls of the execution API, on any clients. -/
def Allowed (p : Call ApiResult) : Prop := ∃ (client : ClavenarClient) (call : ApiCall),
  p = call.run client

/-! ### One call -/

/-- The executor is invoked only while fewer invocations than started attempts were made. -/
def Balanced (authorizationId : Uuid) (history : List (Event Answer)) (op : Op) : Prop :=
  op.executes authorizationId = true →
    (history.map Sigma.fst).countP (Op.executes authorizationId) <
      history.countP (startedFor authorizationId)

/-- An execution begins an attempt before it invokes the executor. -/
theorem executeAuthorization_balanced (client : ClavenarClient)
    (executor : RegisteredToolExecutor) (signingKey : SigningKey)
    (authorization : SignedAuthorization) (singleUse : Bool) (authorizationId : Uuid)
    {history : List (Event Answer)}
    (hnone : (history.map Sigma.fst).countP (Op.executes authorizationId) = 0) :
    Prog.Always (Balanced authorizationId) (fun _ _ => True) history
      (client.executeAuthorization executor signingKey authorization singleUse) := by
  refine executeAuthorization_always (by simp [Balanced, Op.executes]) ?_
  refine executeStarted_always (fun hexecutes => ?_) (by simp [Balanced, Op.executes])
    fun history op hop hexecutes => ?_
  · have hid : authorization.authorization.authorizationId = authorizationId :=
      of_decide_eq_true hexecutes
    simp [hnone, Op.executes, startedFor, intentOf, hid]
  · rw [not_executes_of_not_attempts (not_attempts_of_delivers hop)] at hexecutes
    exact absurd hexecutes (by decide)

/-- A call that executes begins an attempt before it invokes the executor. -/
theorem governed_balanced (client : ClavenarClient) (call : GovernedCall)
    (authorizationId : Uuid) :
    Prog.Always (Balanced authorizationId) (fun _ _ => True) [] (call.run client) := by
  refine GovernedCall.run_always (by simp [Balanced, Op.executes]) fun _ _ _ _ _ _ => ?_
  exact executeAuthorization_balanced _ _ _ _ _ authorizationId (by simp [Op.executes])

/-- Delivering the outbox never attempts an effect. -/
theorem flush_not_attempts (client : ClavenarClient) (limit : ℕ) :
    Prog.Always (fun _ op => op.attempts = false) (fun _ _ => True) []
      ((ApiCall.flushExecutionReceiptOutbox limit).run client) :=
  (flushExecutionReceiptOutbox_always rfl fun _ _ => not_attempts_of_delivers).bind_pure _

/-- Reconciling an uncertain effect never attempts it. -/
theorem reconcile_not_attempts (client : ClavenarClient) (uncertain : UncertainExecution) :
    Prog.Always (fun _ op => op.attempts = false) (fun _ _ => True) []
      ((ApiCall.reconcileUncertainEffect uncertain).run client) := by
  refine Prog.Always.bind_pure ?_ _
  unfold reconcileUncertainEffect
  cases validateUncertainExecution uncertain with
  | error error => simp
  | ok _ =>
    simp only [Prog.lift_ok, Prog.done_ok_bind]
    cases client.executionDependencies with
    | error error => simp
    | ok dependencies =>
      simp only [Prog.lift_ok, Prog.done_ok_bind]
      split_ifs
      · simp
      refine ⟨rfl, fun answer => ?_⟩
      match answer with
      | .error error => simp
      | .ok none => simp
      | .ok (some intent) =>
        exact reconcileIntent_always rfl (fun _ _ _ => rfl) fun _ _ => not_attempts_of_delivers

/-- Every call of the execution API begins an attempt before it invokes the executor. -/
theorem apiCall_balanced (client : ClavenarClient) (call : ApiCall) (authorizationId : Uuid) :
    Prog.Always (Balanced authorizationId) (fun _ _ => True) [] (call.run client) := by
  have hquiet : ∀ p : Call ApiResult,
      Prog.Always (fun _ op => op.attempts = false) (fun _ _ => True) [] p →
      Prog.Always (Balanced authorizationId) (fun _ _ => True) [] p := by
    intro p hp
    refine hp.mono (fun _ op hop hexecutes => ?_) (fun _ _ => id)
    rw [not_executes_of_not_attempts hop] at hexecutes
    exact absurd hexecutes (by decide)
  cases call with
  | governed call => exact governed_balanced client call authorizationId
  | reconcileUncertainEffect uncertain => exact hquiet _ (reconcile_not_attempts client uncertain)
  | flushExecutionReceiptOutbox limit => exact hquiet _ (flush_not_attempts client limit)

/-! ### Attempts that were not started -/

/-- A call whose attempt was answered, but not started, returns one of two errors. -/
theorem executeAuthorization_rejected {client : ClavenarClient}
    {executor : RegisteredToolExecutor} {signingKey : SigningKey}
    {authorization : SignedAuthorization} {singleUse : Bool} {history : List (Event Answer)}
    {result : Except ClavenarError ExecutionOutcome}
    (hreturns : (client.executeAuthorization executor signingKey authorization singleUse).Returns
      history result)
    {intent : ExecutionIntent} {authorizationUse : EffectAuthorizationUse}
    {claim : EffectAttemptClaim}
    (hmem : (⟨.beginEffectAttempt intent authorizationUse, .ok claim⟩ : Event Answer) ∈ history)
    (hclaim : claim ≠ .started) :
    ∃ error, result = .error error ∧ RejectedAttempt intent (.error error) := by
  obtain ⟨answer, rest, rfl, hrest⟩ := Prog.returns_await_iff.mp hreturns
  have hhead : (⟨.beginEffectAttempt intent authorizationUse, .ok claim⟩ : Event Answer) ∉ rest →
      intent = intentOf executor.id authorization ∧ answer = .ok claim := by
    intro hrest
    rcases List.mem_cons.mp hmem with heq | hmem
    · simp only [Sigma.mk.injEq, Op.beginEffectAttempt.injEq] at heq
      obtain ⟨⟨rfl, rfl⟩, heq⟩ := heq
      exact ⟨rfl, (eq_of_heq heq).symm⟩
    · exact absurd hmem hrest
  match answer, hrest with
  | .error error, hrest =>
    obtain ⟨rfl, rfl⟩ := Prog.returns_done_iff.mp hrest
    obtain ⟨-, h⟩ := hhead (by simp)
    cases h
  | .ok .alreadyInFlight, hrest =>
    obtain ⟨rfl, rfl⟩ := Prog.returns_done_iff.mp hrest
    obtain ⟨rfl, -⟩ := hhead (by simp)
    exact ⟨_, rfl, rfl, rfl⟩
  | .ok .alreadyCompleted, hrest =>
    obtain ⟨rfl, rfl⟩ := Prog.returns_done_iff.mp hrest
    obtain ⟨rfl, -⟩ := hhead (by simp)
    exact ⟨_, rfl, rfl, rfl⟩
  | .ok .started, hrest =>
    -- nothing after the start of an attempt returns to the attempt boundary
    have halways : ∀ uncertain, Prog.Always
        (fun _ op => ∀ intent authorizationUse, op ≠ .beginEffectAttempt intent authorizationUse)
        (fun _ _ => True) []
        (client.executeStarted executor signingKey authorization uncertain) := by
      intro uncertain
      refine executeStarted_always (by simp) (by simp) fun _ op hop => ?_
      cases op <;> simp_all [delivers]
    have hlater := (halways _).forall_mem hrest
    obtain ⟨-, h⟩ := hhead fun hmem => hlater _ hmem intent authorizationUse rfl
    exact absurd (Except.ok.inj h).symm hclaim

/-- The attempt of a governed call is the attempt of the authorization it executes. -/
theorem governed_rejected {client : ClavenarClient} {call : GovernedCall}
    {history : List (Event Answer)} {result : Except ClavenarError ApiResult}
    (hreturns : (call.run client).Returns history result)
    {intent : ExecutionIntent} {authorizationUse : EffectAuthorizationUse}
    {claim : EffectAttemptClaim}
    (hmem : (⟨.beginEffectAttempt intent authorizationUse, .ok claim⟩ : Event Answer) ∈ history)
    (hclaim : claim ≠ .started) : RejectedAttempt intent result := by
  cases GovernedCall.run_of_returns hreturns with
  | refused | noEndpoint | undecided | pending => simp at hmem
  | executed _ _ _ hexecuted =>
    have hmem := (List.mem_cons.mp hmem).resolve_left (by simp)
    obtain ⟨error, rfl, hrejected⟩ := executeAuthorization_rejected hexecuted hmem hclaim
    exact hrejected

/-! ### All calls together -/

/-- At most one effect for each authorization. Over every environment and every
interleaving, if the store starts each authorization once: the executor is invoked at most
once for an authorization, never by a reconciliation or a flush, at most one call is told
that it started the attempt, and every other call whose attempt was answered returns that
the effect is in flight or completed. The in-memory store starts each authorization once. -/
theorem executor_invoked_at_most_once :
    (∀ c : Sys MemoryExecutionStore Op Answer ClavenarError ApiResult,
      c.Reachable MemoryExecutionStore.env Allowed → StartedOnce c.log) ∧
    ∀ {σ : Type} (E : Env σ Answer) (c : Sys σ Op Answer ClavenarError ApiResult),
      c.Reachable E Allowed → StartedOnce c.log →
      (∀ authorizationId,
        (c.tasks.map fun t => t.invoked.countP (Op.executes authorizationId)).sum ≤ 1) ∧
      (∀ t ∈ c.tasks, ∀ (client : ClavenarClient) (call : ApiCall), t.start = call.run client →
        (∀ governed, call ≠ .governed governed) → ∀ op ∈ t.invoked, op.isExecute = false) ∧
      (∀ authorizationId,
        (c.tasks.map fun t => t.history.countP (startedFor authorizationId)).sum ≤ 1) ∧
      ∀ t ∈ c.tasks, ∀ intent authorizationUse claim,
        (⟨.beginEffectAttempt intent authorizationUse, .ok claim⟩ : Event Answer) ∈ t.history →
        claim ≠ .started → ∀ result, t.Returned result → RejectedAttempt intent result := by
  refine ⟨fun c => memory_startedOnce, fun E c hreachable honce => ?_⟩
  have hconsistent := hreachable.consistent
  have hstarted : ∀ authorizationId,
      (c.tasks.map fun t => t.history.countP (startedFor authorizationId)).sum ≤ 1 :=
    fun authorizationId => (hreachable.sum_countP_history_le _).trans
      (honce.countP_le_one authorizationId)
  refine ⟨fun authorizationId => ?_, fun t ht client call hstart hcall => ?_, hstarted,
    fun t ht intent authorizationUse claim hmem hclaim result hreturned => ?_⟩
  · refine (List.sum_le_sum fun t ht => ?_).trans (hstarted authorizationId)
    obtain ⟨⟨client, call, hstart⟩, htask⟩ := hconsistent t ht
    refine htask.countP_invoked_le fun history op hop => ?_
    rw [hstart] at hop
    exact (apiCall_balanced client call authorizationId).of_invokes hop
  · intro op hop
    obtain ⟨history, -, hinvokes⟩ := (hconsistent t ht).2.invokes hop
    rw [hstart] at hinvokes
    cases call with
    | governed call => exact absurd rfl (hcall call)
    | reconcileUncertainEffect uncertain =>
      exact not_isExecute_of_not_attempts
        ((reconcile_not_attempts client uncertain).of_invokes hinvokes)
    | flushExecutionReceiptOutbox limit =>
      exact not_isExecute_of_not_attempts
        ((flush_not_attempts client limit).of_invokes hinvokes)
  · obtain ⟨⟨client, call, hstart⟩, htask⟩ := hconsistent t ht
    have hreturns : (call.run client).Returns t.history result := by
      rw [← hstart]
      exact htask.returns hreturned
    cases call with
    | governed call => exact governed_rejected hreturns hmem hclaim
    | reconcileUncertainEffect uncertain =>
      have hquiet := (reconcile_not_attempts client uncertain).forall_mem hreturns _ hmem
      simp [Op.attempts] at hquiet
    | flushExecutionReceiptOutbox limit =>
      have hquiet := (flush_not_attempts client limit).forall_mem hreturns _ hmem
      simp [Op.attempts] at hquiet

end ClavenarSdk
