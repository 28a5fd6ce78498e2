import ClavenarSdk.Execution.Uncertain

/-!
# Recovery

A lost execution that is reconciled later ends as the execution that was not lost: in the same
store, with the same receipt and the same outcome. All calls that obtain an authorization
execute it alike.
-/

namespace ClavenarSdk

open Interaction ClavenarClient MemoryExecutionStore

/-- How an execution of the call consumes its authorization. -/
def GovernedCall.authorizationUse (call : GovernedCall) : EffectAuthorizationUse :=
  if call.pending.isSome then .singleUse else .direct

/-- The stores differ at most in the record of consumed authorizations. -/
def SameButClaims (store store' : MemoryExecutionStore) : Prop :=
  ∃ claimed, store' = { store with claimedAuthorizations := claimed }

/-- The store starts the attempt of the call for this intent. -/
def Starts (store : MemoryExecutionStore) (call : GovernedCall) (intent : ExecutionIntent) : Prop :=
  (store.beginEffectAttempt intent call.authorizationUse).1 = .ok .started

/-- What a started attempt does to the store, and that no other intent stood for its authorization.
-/
theorem Starts.eq {store : MemoryExecutionStore} {call : GovernedCall} {intent : ExecutionIntent}
    (h : Starts store call intent) :
    store.beginEffectAttempt intent call.authorizationUse =
        (.ok .started, store.start intent call.authorizationUse) ∧
      ∀ existing ∈ store.intentFor intent.authorizationId, existing = intent := by
  obtain ⟨heq, -, -, hintent⟩ | ⟨answer, heq, hne⟩ :=
    store.beginEffectAttempt_cases intent call.authorizationUse
  · exact ⟨heq, hintent⟩
  · exact absurd (by simpa [Starts, heq] using h) hne

/-- The intent of a started attempt can be loaded again. -/
theorem Starts.load {store : MemoryExecutionStore} {call : GovernedCall}
    {intent : ExecutionIntent} (h : Starts store call intent) :
    (store.start intent call.authorizationUse).loadUncertainIntent intent.authorizationId =
      some intent := by
  have hflight : intent.authorizationId ∈
      (store.start intent call.authorizationUse).inFlightAuthorizations :=
    Finset.mem_insert_self _ _
  rw [loadUncertainIntent, if_neg (not_not.mpr hflight)]
  have hintent := h.eq.2
  simp only [intentFor, start, List.find?_append] at hintent ⊢
  cases hfound : store.intents.find? fun existing =>
      existing.authorizationId = intent.authorizationId with
  | none => simp
  | some existing => simpa using hintent existing hfound

/-- The executor's answer never reaches the store: the executor fails, or the commit does. -/
def AnswerLost (w : Surroundings) (request : ToolExecutionRequest) : Prop :=
  (∃ error, w.executor request = .error error) ∨
    ∃ effect error, w.executor request = .ok effect ∧ validateExecutionEffect effect = .ok () ∧
      w.commitFault = some error

/-- The lookup reports no effect. -/
def ReportsNoEffect (w : Surroundings) (request : EffectLookupRequest) : Prop :=
  ∀ effect, w.effectLookup request ≠ .ok (.found effect)

section

variable [Crates]

/-- The call obtains this authorization. -/
def Obtains (w : Surroundings) (client : ClavenarClient) (dependencies : ExecutionDependencies)
    (call : GovernedCall) (authorization : SignedAuthorization) : Prop :=
  call.gate client = .ok dependencies ∧ ∃ endpoint, joinUrl client.baseUrl "mcp" = .ok endpoint ∧
    call.decide (w.decision (call.decisionRequest client endpoint)) = .ok (.inr authorization)

/-- The handle of the attempt. -/
def handleOf (dependencies : ExecutionDependencies) (authorization : SignedAuthorization) :
    UncertainExecution :=
  uncertainFromIntent (intentOf dependencies.executor.id authorization) .executorOutcomeUnknown
    dependencies.executor.effectLookup

namespace Surroundings

variable {w w' : Surroundings} {client : ClavenarClient} {dependencies : ExecutionDependencies}
  {call : GovernedCall} {authorization : SignedAuthorization} {store : MemoryExecutionStore}

/-- A call that obtains an authorization and starts its attempt goes on to execute it. -/
theorem eval_run (hobtains : Obtains w client dependencies call authorization)
    (hstarts : Starts store call (intentOf dependencies.executor.id authorization)) :
    let execution := client.executeStarted dependencies.executor dependencies.signingKey
      authorization (handleOf dependencies authorization)
    let started := store.start (intentOf dependencies.executor.id authorization)
      call.authorizationUse
    (call.run client).eval w.handler store =
      ((execution.eval w.handler started).1,
        call.onCompleted <$> (execution.eval w.handler started).2) ∧
    ∃ decision, (call.run client).trace w.handler store = decision ::
      ⟨.beginEffectAttempt (intentOf dependencies.executor.id authorization)
        call.authorizationUse, .ok .started⟩ :: execution.trace w.handler started := by
  obtain ⟨hgate, endpoint, hjoin, hdecide⟩ := hobtains
  have hbegin := hstarts.eq.1
  unfold GovernedCall.authorizationUse at hbegin
  simp only [GovernedCall.run_eq_await hgate hjoin, Prog.eval_await, Prog.trace, handler,
    GovernedCall.afterDecision_eq hdecide, Prog.eval_bind_pure, Prog.trace_bind_pure,
    executeAuthorization, hbegin]
  exact ⟨rfl, _, rfl⟩

/-- The rest of an execution is the same whatever claims the store remembers. -/
theorem executeStarted_sameButClaims (w : Surroundings) (client : ClavenarClient)
    (dependencies : ExecutionDependencies) (authorization : SignedAuthorization)
    (uncertain : UncertainExecution) {store store' : MemoryExecutionStore}
    (hstores : SameButClaims store store') :
    let execution := client.executeStarted dependencies.executor dependencies.signingKey
      authorization uncertain
    (execution.eval w.handler store).2 = (execution.eval w.handler store').2 ∧
    execution.trace w.handler store = execution.trace w.handler store' ∧
    SameButClaims (execution.eval w.handler store).1 (execution.eval w.handler store').1 := by
  have halways : Prog.Always
      (fun _ op => ∀ intent authorizationUse, op ≠ .beginEffectAttempt intent authorizationUse)
      (fun _ _ => True) [] (client.executeStarted dependencies.executor dependencies.signingKey
        authorization uncertain) := by
    refine executeStarted_always (by simp) (by simp) fun _ op hop => ?_
    cases op <;> simp_all [delivers]
  refine Prog.eval_simulation ?_ halways hstores
  rintro s _ op ⟨claimed, rfl⟩ hop
  cases op with
  | beginEffectAttempt intent authorizationUse => exact absurd rfl (hop intent authorizationUse)
  | commitEffectAndEnqueueReceipt completion =>
    simp only [handler]
    cases w.commitFault <;> exact ⟨rfl, claimed, rfl⟩
  | markReceiptDelivered outboxId recorded =>
    simp only [handler, markReceiptDelivered]
    cases s.pending.findIdx? fun entry => entry.outboxId = outboxId <;> exact ⟨rfl, claimed, rfl⟩
  | postDecision | postReceipt | execute | lookupEffect | loadUncertainIntent | pendingReceipts =>
    exact ⟨rfl, claimed, rfl⟩

/-- Delivery depends on the Proxy and the store alone. -/
theorem deliverOutboxEntry_congr (hreceipt : w.receipt = w'.receipt) (entry : ReceiptOutboxEntry) :
    (client.deliverOutboxEntry entry).eval w.handler store =
      (client.deliverOutboxEntry entry).eval w'.handler store := by
  have hR : ∀ (s s' : MemoryExecutionStore) (op : Op), s = s' → delivers op = true →
      (w.handler s op).1 = (w'.handler s' op).1 ∧ (w.handler s op).2 = (w'.handler s' op).2 := by
    rintro s _ op rfl hop
    cases op <;> simp_all [delivers, handler]
  obtain ⟨hresult, -, hstore⟩ :=
    Prog.eval_simulation hR (client.deliverOutboxEntry_delivers entry []) (rfl : store = store)
  exact Prod.ext hstore hresult

/-- Where an execution ends that completes an effect: its store and its outcome. -/
def completed (w : Surroundings) (client : ClavenarClient) (dependencies : ExecutionDependencies)
    (authorization : SignedAuthorization) (effect : ExecutionEffect)
    (store : MemoryExecutionStore) : MemoryExecutionStore × Except ClavenarError ExecutionOutcome :=
  let completion := completionOf dependencies.executor.id authorization effect
    (receiptOf dependencies.signingKey authorization effect)
  let delivery := (client.deliverOutboxEntry (outboxEntry completion)).eval w.handler
    (store.commitEffectAndEnqueueReceipt completion)
  (delivery.1, (fun recorded => ⟨recorded, effect.result, effect.effectId⟩) <$> delivery.2)

/-- How an effect is completed depends on the answer to its receipt only. -/
theorem completed_congr (hreceipt : w.receipt = w'.receipt) (effect : ExecutionEffect) :
    completed w client dependencies authorization effect store =
      completed w' client dependencies authorization effect store := by
  simp only [completed, deliverOutboxEntry_congr hreceipt]

/-- Completing an effect adds one completion. -/
theorem completions_completed (effect : ExecutionEffect) :
    (completed w client dependencies authorization effect store).1.completions =
      store.completions ++ [completionOf dependencies.executor.id authorization effect
        (receiptOf dependencies.signingKey authorization effect)] :=
  eval_delivers (client.deliverOutboxEntry_delivers _ []) _

/-- An execution whose executor answers completes its effect. -/
theorem eval_executeStarted_returned {effect : ExecutionEffect} {uncertain : UncertainExecution}
    (hexecutor : w.executor (requestOf dependencies.executor.id authorization) = .ok effect)
    (heffect : validateExecutionEffect effect = .ok ()) (hcommit : w.commitFault = none) :
    (client.executeStarted dependencies.executor dependencies.signingKey authorization
      uncertain).eval w.handler store =
      completed w client dependencies authorization effect store := by
  simp only [executeStarted, Prog.eval_await, handler, hexecutor, heffect, Prog.eval_mapError,
    eval_completeKnownEffect hcommit, completed]
  refine Prod.ext rfl ?_
  cases (Prog.eval w.handler _ (client.deliverOutboxEntry _)).2 <;> rfl

/-- An execution whose answer is lost changes nothing and returns the handle. -/
theorem eval_executeStarted_lost {uncertain : UncertainExecution}
    (hlost : AnswerLost w (requestOf dependencies.executor.id authorization)) :
    (client.executeStarted dependencies.executor dependencies.signingKey authorization
      uncertain).eval w.handler store = (store, .error (.executionUncertain uncertain)) := by
  obtain ⟨error, hexecutor⟩ | ⟨effect, error, hexecutor, heffect, hcommit⟩ := hlost
  · simp only [executeStarted, Prog.eval_await, handler, hexecutor, Prog.eval_fail]
  · simp only [executeStarted, Prog.eval_await, handler, hexecutor, heffect, Prog.eval_mapError,
      completeKnownEffect, canonicalJson, hcommit, Prog.eval_fail, Except.mapError]

/-- A reconciliation with a handle of the attempt goes on with the stored intent. -/
theorem eval_reconcile {uncertain : UncertainExecution}
    (hdependencies : client.executionDependencies = .ok dependencies)
    (hminted : Minted dependencies.executor.id authorization uncertain)
    (hhandle : validateUncertainExecution uncertain = .ok ())
    (hload : store.loadUncertainIntent authorization.authorization.authorizationId =
      some (intentOf dependencies.executor.id authorization)) :
    (client.reconcileUncertainEffect uncertain).eval w.handler store =
      (client.reconcileIntent dependencies.executor dependencies.signingKey uncertain
        (intentOf dependencies.executor.id authorization)).eval w.handler store := by
  obtain ⟨reason, registered, rfl⟩ := hminted
  rw [reconcileUncertainEffect_eq hdependencies hhandle rfl, Prog.eval_await]
  simp only [handler, uncertainFromIntent, hload,
    show (intentOf dependencies.executor.id authorization).authorizationId =
      authorization.authorization.authorizationId from rfl]

/-- A reconciliation that finds the effect completes it. -/
theorem eval_reconcile_found {effect : ExecutionEffect} {uncertain : UncertainExecution}
    (hdependencies : client.executionDependencies = .ok dependencies)
    (hminted : Minted dependencies.executor.id authorization uncertain)
    (hvalid : authorization.Valid authorization.authorization.idempotencyId)
    (hhandle : validateUncertainExecution uncertain = .ok ())
    (hload : store.loadUncertainIntent authorization.authorization.authorizationId =
      some (intentOf dependencies.executor.id authorization))
    (hregistered : dependencies.executor.effectLookup = true)
    (hlookup : w.effectLookup (lookupOf (intentOf dependencies.executor.id authorization)) =
      .ok (.found effect))
    (heffect : validateExecutionEffect effect = .ok ()) (hcommit : w.commitFault = none) :
    (client.reconcileUncertainEffect uncertain).eval w.handler store =
      ((completed w client dependencies authorization effect store).1,
        .completed <$> (completed w client dependencies authorization effect store).2) := by
  have hbinds := validateUncertainIntent_eq_ok_iff.mpr (hminted.binds hvalid)
  rw [eval_reconcile hdependencies hminted hhandle hload, reconcileIntent_eq hbinds hregistered]
  simp only [Prog.eval_await, handler, hlookup, reconcileFound, heffect, Prog.eval_andThen,
    show (intentOf dependencies.executor.id authorization).authorization = authorization from rfl,
    eval_completeKnownEffect hcommit, completed]
  cases (Prog.eval w.handler _ (client.deliverOutboxEntry _)).2 <;> rfl

/-- A reconciliation that does not find the effect changes nothing and returns the handle. -/
theorem eval_reconcile_notFound {uncertain : UncertainExecution}
    (hdependencies : client.executionDependencies = .ok dependencies)
    (hminted : Minted dependencies.executor.id authorization uncertain)
    (hvalid : authorization.Valid authorization.authorization.idempotencyId)
    (hhandle : validateUncertainExecution uncertain = .ok ())
    (hload : store.loadUncertainIntent authorization.authorization.authorizationId =
      some (intentOf dependencies.executor.id authorization))
    (hregistered : dependencies.executor.effectLookup = true)
    (hlookup : ReportsNoEffect w (lookupOf (intentOf dependencies.executor.id authorization))) :
    ∃ reason, (client.reconcileUncertainEffect uncertain).eval w.handler store =
      (store, .ok (.uncertain (uncertainWithReason uncertain reason true))) := by
  have hbinds := validateUncertainIntent_eq_ok_iff.mpr (hminted.binds hvalid)
  rw [eval_reconcile hdependencies hminted hhandle hload, reconcileIntent_eq hbinds hregistered]
  simp only [Prog.eval_await, handler]
  cases hanswer : w.effectLookup (lookupOf (intentOf dependencies.executor.id authorization)) with
  | error error => exact ⟨_, rfl⟩
  | ok report =>
    cases report with
    | notFound => exact ⟨_, rfl⟩
    | ambiguous => exact ⟨_, rfl⟩
    | found effect => exact absurd hanswer (hlookup effect)

end Surroundings

open Surroundings

/-- The reconciliations of a handle, one after the other, each with what surrounds it. -/
def reconcileAll (client : ClavenarClient) :
    List (Surroundings × UncertainExecution) → MemoryExecutionStore → MemoryExecutionStore
  | [], store => store
  | (w, uncertain) :: attempts, store =>
    reconcileAll client attempts
      ((client.reconcileUncertainEffect uncertain).eval w.handler store).1

/-- One call, run directly and with its answer lost, and what is done about the lost run: some
reconciliations that find nothing and one that finds the effect. -/
structure Recovery (client : ClavenarClient) (dependencies : ExecutionDependencies)
    (authorization : SignedAuthorization) (effect : ExecutionEffect)
    (store : MemoryExecutionStore) where
  call : GovernedCall
  starts : Starts store call (intentOf dependencies.executor.id authorization)
  direct : Surroundings
  directObtains : Obtains direct client dependencies call authorization
  directReturns : direct.executor (requestOf dependencies.executor.id authorization) = .ok effect
  directCommits : direct.commitFault = none
  lost : Surroundings
  lostObtains : Obtains lost client dependencies call authorization
  lostAnswer : AnswerLost lost (requestOf dependencies.executor.id authorization)
  attempts : List (Surroundings × UncertainExecution)
  attemptsFail : ∀ attempt ∈ attempts, Minted dependencies.executor.id authorization attempt.2 ∧
    ReportsNoEffect attempt.1 (lookupOf (intentOf dependencies.executor.id authorization))
  found : Surroundings
  foundLookup : found.effectLookup (lookupOf (intentOf dependencies.executor.id authorization)) =
    .ok (.found effect)
  foundCommits : found.commitFault = none
  sameProxy : found.receipt = direct.receipt
  uncertain : UncertainExecution
  minted : Minted dependencies.executor.id authorization uncertain
  registered : dependencies.executor.effectLookup = true
  passes : validateUncertainExecution (handleOf dependencies authorization) = .ok ()

namespace Recovery

variable {client : ClavenarClient} {dependencies : ExecutionDependencies}
  {authorization : SignedAuthorization} {effect : ExecutionEffect} {store : MemoryExecutionStore}

/-- The store after the lost run. -/
def lostStore (r : Recovery client dependencies authorization effect store) :
    MemoryExecutionStore :=
  ((r.call.run client).eval r.lost.handler store).1

/-- The authorization of the runs is valid. -/
theorem valid (r : Recovery client dependencies authorization effect store) :
    authorization.Valid authorization.authorization.idempotencyId := by
  obtain ⟨-, endpoint, -, hdecide⟩ := r.directObtains
  exact (GovernedCall.decide_eq_inr_iff.mp hdecide).1.valid.own

/-- The client of the runs has its dependencies. -/
theorem executionDependencies (r : Recovery client dependencies authorization effect store) :
    client.executionDependencies = .ok dependencies :=
  (GovernedCall.gate_eq_ok r.directObtains.1).1

/-- Every handle of the attempt passes its check if the one that the run returned does. -/
theorem passes_of_minted (r : Recovery client dependencies authorization effect store)
    {uncertain : UncertainExecution}
    (hminted : Minted dependencies.executor.id authorization uncertain) :
    validateUncertainExecution uncertain = .ok () := by
  have hexecutor := (executionDependencies_eq_ok_iff.mp r.executionDependencies).2.1
  rw [validateUncertainExecution_minted hminted r.valid hexecutor,
    ← validateUncertainExecution_minted ⟨_, _, rfl⟩ r.valid hexecutor]
  exact r.passes

/-- The lost run leaves the started attempt behind. -/
theorem eval_lost (r : Recovery client dependencies authorization effect store) :
    (r.call.run client).eval r.lost.handler store =
      (store.start (intentOf dependencies.executor.id authorization) r.call.authorizationUse,
        .error (.executionUncertain (handleOf dependencies authorization))) := by
  rw [(eval_run r.lostObtains r.starts).1, eval_executeStarted_lost r.lostAnswer]
  rfl

/-- Reconciliations that find nothing change nothing. -/
theorem eval_attempt (r : Recovery client dependencies authorization effect store)
    {attempt : Surroundings × UncertainExecution} (hattempt : attempt ∈ r.attempts) :
    ∃ reason, (client.reconcileUncertainEffect attempt.2).eval attempt.1.handler r.lostStore =
      (r.lostStore, .ok (.uncertain (uncertainWithReason attempt.2 reason true))) := by
  obtain ⟨hminted, hnone⟩ := r.attemptsFail attempt hattempt
  rw [lostStore, r.eval_lost]
  exact eval_reconcile_notFound r.executionDependencies hminted r.valid
    (r.passes_of_minted hminted) r.starts.load r.registered hnone

/-- The reconciles that fail leave the store as the lost run left it. -/
theorem reconcileAll_attempts (r : Recovery client dependencies authorization effect store) :
    reconcileAll client r.attempts r.lostStore = r.lostStore := by
  have hattempts : ∀ attempts ⊆ r.attempts,
      reconcileAll client attempts r.lostStore = r.lostStore := by
    intro attempts hsub
    induction attempts with
    | nil => rfl
    | cons attempt attempts ih =>
      rw [List.cons_subset] at hsub
      obtain ⟨reason, hattempt⟩ := r.eval_attempt hsub.1
      rw [reconcileAll, hattempt]
      exact ih hsub.2
  exact hattempts _ (List.Subset.refl _)

end Recovery

/-- Recovery is equivalent to direct success. All calls that obtain an authorization and whose
executor returns the effect run alike after the start of their attempt: the same operations, the
same outcome and the same store but for the consumed claims. And a lost run, reconciled any
number of times until the lookup finds the effect, ends in the store and with the outcome of the
run whose executor answered. -/
theorem recovery_equals_direct {client : ClavenarClient} {dependencies : ExecutionDependencies}
    {authorization : SignedAuthorization} {effect : ExecutionEffect}
    (heffect : validateExecutionEffect effect = .ok ()) (store : MemoryExecutionStore) :
    (∀ (w : Surroundings) (call call' : GovernedCall),
      w.executor (requestOf dependencies.executor.id authorization) = .ok effect →
      Obtains w client dependencies call authorization →
      Obtains w client dependencies call' authorization →
      Starts store call (intentOf dependencies.executor.id authorization) →
      Starts store call' (intentOf dependencies.executor.id authorization) →
      ∃ outcome decision decision' rest,
        ((call.run client).eval w.handler store).2 = call.onCompleted <$> outcome ∧
        ((call'.run client).eval w.handler store).2 = call'.onCompleted <$> outcome ∧
        (call.run client).trace w.handler store = decision :: ⟨.beginEffectAttempt
          (intentOf dependencies.executor.id authorization) call.authorizationUse,
            .ok .started⟩ :: rest ∧
        (call'.run client).trace w.handler store = decision' :: ⟨.beginEffectAttempt
          (intentOf dependencies.executor.id authorization) call'.authorizationUse,
            .ok .started⟩ :: rest ∧
        SameButClaims ((call.run client).eval w.handler store).1
          ((call'.run client).eval w.handler store).1) ∧
    ∀ r : Recovery client dependencies authorization effect store,
      ((r.call.run client).eval r.lost.handler store).2 =
        .error (.executionUncertain (handleOf dependencies authorization)) ∧
      (∀ attempt ∈ r.attempts, ∃ reason,
        (client.reconcileUncertainEffect attempt.2).eval attempt.1.handler r.lostStore =
          (r.lostStore, .ok (.uncertain (uncertainWithReason attempt.2 reason true)))) ∧
      ∃ final outcome,
        (client.reconcileUncertainEffect r.uncertain).eval r.found.handler
          (reconcileAll client r.attempts r.lostStore) = (final, .completed <$> outcome) ∧
        (r.call.run client).eval r.direct.handler store =
          (final, r.call.onCompleted <$> outcome) := by
  refine ⟨fun w call call' _ hobtains hobtains' hstarts hstarts' => ?_, fun r =>
    ⟨by rw [r.eval_lost], fun attempt => r.eval_attempt, ?_⟩⟩
  · obtain ⟨heval, decision, htrace⟩ := eval_run hobtains hstarts
    obtain ⟨heval', decision', htrace'⟩ := eval_run hobtains' hstarts'
    have hstores : SameButClaims
        (store.start (intentOf dependencies.executor.id authorization) call.authorizationUse)
        (store.start (intentOf dependencies.executor.id authorization) call'.authorizationUse) :=
      ⟨_, rfl⟩
    obtain ⟨houtcome, hrest, hsame⟩ := executeStarted_sameButClaims w client dependencies
      authorization (handleOf dependencies authorization) hstores
    rw [heval, heval', htrace, htrace', houtcome, hrest]
    exact ⟨_, decision, decision', _, rfl, rfl, rfl, rfl, hsame⟩
  · have hfound := eval_reconcile_found r.executionDependencies r.minted r.valid
      (r.passes_of_minted r.minted) r.starts.load r.registered r.foundLookup heffect r.foundCommits
    have hdirect := (eval_run r.directObtains r.starts).1
    rw [eval_executeStarted_returned r.directReturns heffect r.directCommits,
      ← completed_congr r.sameProxy] at hdirect
    rw [r.reconcileAll_attempts, Recovery.lostStore, r.eval_lost]
    exact ⟨_, _, hfound, hdirect⟩

end

namespace Fixture

attribute [local instance] crates

/-- The authorization of the test names everything that a handle needs. -/
theorem authorization_complete : authorization.Complete where
  authorizationId := by decide
  idempotencyId := by decide
  tenant := by decide
  agentId := by decide
  agentSpiffe := by decide

/-- The handles of the attempt of the test pass their check. -/
theorem validateUncertainExecution_handle {uncertain : UncertainExecution}
    (h : Minted executor.id authorization uncertain) :
    validateUncertainExecution uncertain = .ok () :=
  (validateUncertainExecution_minted h authorization_valid validateExecutorId_executor).mpr
    authorization_complete

/-- The store of the test starts the attempt of the call. -/
theorem starts_call : Starts initial call (intentOf executor.id authorization) := by
  simp [Starts, beginEffectAttempt, initial, intentFor, GovernedCall.authorizationUse, call,
    GovernedCall.pending]

/-- The call obtains the authorization wherever the decision is that of the test. -/
theorem obtains_call (w : Surroundings) (h : w.decision = surroundings.decision) :
    Obtains w (client ()) (dependencies ()) call authorization :=
  ⟨gate_call (), _, rfl, by rw [h]; exact decide_call⟩

/-- The call of the test: its executor times out, a first lookup finds nothing, and a second one
finds the effect. -/
def recovery : Recovery (client ()) (dependencies ()) authorization effect initial where
  call := call
  starts := starts_call
  direct := surroundings
  directObtains := obtains_call _ rfl
  directReturns := rfl
  directCommits := rfl
  lost := { surroundings with executor := fun _ => .error (.transport "timeout") }
  lostObtains := obtains_call _ rfl
  lostAnswer := .inl ⟨_, rfl⟩
  attempts := [({ surroundings with effectLookup := fun _ => .ok .notFound },
    handleOf (dependencies ()) authorization)]
  attemptsFail := by
    rintro _ (_ | ⟨_, ⟨⟩⟩)
    exact ⟨⟨_, _, rfl⟩, fun _ h => by cases h⟩
  found := { surroundings with effectLookup := fun _ => .ok (.found effect) }
  foundLookup := rfl
  foundCommits := rfl
  sameProxy := rfl
  uncertain := handleOf (dependencies ()) authorization
  minted := ⟨_, _, rfl⟩
  registered := rfl
  passes := validateUncertainExecution_handle ⟨_, _, rfl⟩

/-- In the recovery of the test. -/
theorem recovery_equals_direct_call : ∃ final outcome,
    ((client ()).reconcileUncertainEffect recovery.uncertain).eval recovery.found.handler
      (reconcileAll (client ()) recovery.attempts recovery.lostStore) =
        (final, .completed <$> outcome) ∧
    (call.run (client ())).eval surroundings.handler initial =
      (final, call.onCompleted <$> outcome) :=
  ((recovery_equals_direct (by decide +kernel) initial).2 recovery).2.2

end Fixture

end ClavenarSdk
