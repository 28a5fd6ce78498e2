import ClavenarSdk.Execution.Gate
import ClavenarSdk.Execution.Outbox
import ClavenarSdk.Execution.Recovery

/-!
# How a reconciliation ends

A reconciliation is refused locally, it settles the effect that the lookup found for the stored
intent, or it returns the handle again with the reason why the effect is still uncertain.
-/

namespace ClavenarSdk

open Interaction ClavenarClient

section

variable [Crates]

/-- The handle is well formed. -/
structure UncertainExecution.WellFormed (uncertain : UncertainExecution) : Prop where
  contract : uncertain.contract = uncertainEffectContract
  status : uncertain.status = "uncertain"
  authorizationId : uncertain.authorizationId.isNil = false
  idempotencyId : uncertain.idempotencyId.isNil = false
  tenant : uncertain.tenant ≠ ""
  workloadId : uncertain.workloadId ≠ ""
  workloadSpiffe : uncertain.workloadSpiffe ≠ ""
  payloadSha256 : uncertain.payloadSha256.utf8ByteSize = 71 ∧
    "sha256:".toList <+: uncertain.payloadSha256.toList
  executorId : VisibleId uncertain.executorId

omit [Crates] in
/-- A handle is accepted exactly if it is well formed. -/
theorem validateUncertainExecution_eq_ok_iff {uncertain : UncertainExecution} :
    validateUncertainExecution uncertain = .ok () ↔ uncertain.WellFormed := by
  rw [validateUncertainExecution, ite_eq_iff]
  simp only [reduceCtorEq, and_false, false_or, validateExecutorId_eq_ok_iff, not_or, not_not,
    Bool.not_eq_true, List.isPrefixOf_iff_prefix]
  constructor
  · rintro ⟨⟨h1, h2, h3, h4, h5, h6, h7, h8, h9⟩, hexecutor⟩
    exact ⟨h1, h2, h3, h4, h5, h6, h7, ⟨h8, h9⟩, hexecutor⟩
  · intro h
    exact ⟨⟨h.contract, h.status, h.authorizationId, h.idempotencyId, h.tenant, h.workloadId,
      h.workloadSpiffe, h.payloadSha256.1, h.payloadSha256.2⟩, h.executorId⟩

/-- The reconciliation is refused: the handle is malformed, the client lacks a dependency, or the
handle is bound to another executor. -/
def Refused (client : ClavenarClient) (uncertain : UncertainExecution) : Prop :=
  ¬uncertain.WellFormed ∨ client.CannotExecute ∨
    ∃ executor ∈ client.toolExecutor, executor.id ≠ uncertain.executorId

/-! ### The ends of a reconciliation -/

/-- The operations of a reconciliation that leaves the effect uncertain, and why. -/
inductive Unsettled (executor : RegisteredToolExecutor) (signingKey : SigningKey)
    (uncertain : UncertainExecution) : List (Event Answer) → UncertainEffectReason → Prop where
  | noIntent {loaded : Except ClavenarError (Option ExecutionIntent)}
      (h : ∀ intent, loaded ≠ .ok (some intent)) :
      Unsettled executor signingKey uncertain
        [⟨.loadUncertainIntent uncertain.authorizationId, loaded⟩] .durableIntentUnavailable
  | mismatch {intent : ExecutionIntent} (h : ¬uncertain.Binds intent) :
      Unsettled executor signingKey uncertain
        [⟨.loadUncertainIntent uncertain.authorizationId, .ok (some intent)⟩] .lookupInvalid
  | noLookup {intent : ExecutionIntent} (hbinds : uncertain.Binds intent)
      (h : executor.effectLookup = false) :
      Unsettled executor signingKey uncertain
        [⟨.loadUncertainIntent uncertain.authorizationId, .ok (some intent)⟩] .lookupNotRegistered
  | lookupFailed {intent : ExecutionIntent} {error : ClavenarError}
      (hbinds : uncertain.Binds intent) :
      Unsettled executor signingKey uncertain
        [⟨.loadUncertainIntent uncertain.authorizationId, .ok (some intent)⟩,
          ⟨.lookupEffect (lookupOf intent), .error error⟩] .lookupUnavailable
  | notFound {intent : ExecutionIntent} (hbinds : uncertain.Binds intent) :
      Unsettled executor signingKey uncertain
        [⟨.loadUncertainIntent uncertain.authorizationId, .ok (some intent)⟩,
          ⟨.lookupEffect (lookupOf intent), .ok .notFound⟩] .effectNotFound
  | ambiguous {intent : ExecutionIntent} (hbinds : uncertain.Binds intent) :
      Unsettled executor signingKey uncertain
        [⟨.loadUncertainIntent uncertain.authorizationId, .ok (some intent)⟩,
          ⟨.lookupEffect (lookupOf intent), .ok .ambiguous⟩] .lookupAmbiguous
  | invalidEffect {intent : ExecutionIntent} {effect : ExecutionEffect}
      (hbinds : uncertain.Binds intent) (h : ¬Bounded effect.effectId) :
      Unsettled executor signingKey uncertain
        [⟨.loadUncertainIntent uncertain.authorizationId, .ok (some intent)⟩,
          ⟨.lookupEffect (lookupOf intent), .ok (.found effect)⟩] .lookupInvalid
  | uncommitted {intent : ExecutionIntent} {effect : ExecutionEffect}
      {queued : Except ClavenarError ReceiptOutboxEntry} (hbinds : uncertain.Binds intent)
      (heffect : Bounded effect.effectId)
      (h : ∀ entry, queued = .ok entry →
        entry.receipt ≠ receiptOf signingKey intent.authorization effect) :
      Unsettled executor signingKey uncertain
        [⟨.loadUncertainIntent uncertain.authorizationId, .ok (some intent)⟩,
          ⟨.lookupEffect (lookupOf intent), .ok (.found effect)⟩,
          ⟨.commitEffectAndEnqueueReceipt (completionOf executor.id intent.authorization effect
            (receiptOf signingKey intent.authorization effect)), queued⟩]
        .reconciledEffectPersistenceFailed

/-- The operations of a reconciliation that settles an effect, and how the delivery of its receipt
ended: the stored intent agrees with the handle and with its own authorization, the lookup found a
valid effect, and the store committed it with the very receipt. -/
inductive Settled (client : ClavenarClient) (executor : RegisteredToolExecutor)
    (signingKey : SigningKey) (uncertain : UncertainExecution) :
    List (Event Answer) → ExecutionEffect → Except ClavenarError ReceiptRecorded → Prop where
  | committed {intent : ExecutionIntent} {effect : ExecutionEffect} {entry : ReceiptOutboxEntry}
      {rest : List (Event Answer)} {delivery : Except ClavenarError ReceiptRecorded}
      (hbinds : uncertain.Binds intent) (heffect : Bounded effect.effectId)
      (hentry : entry.receipt = receiptOf signingKey intent.authorization effect)
      (hdelivery : DeliveryRun client entry rest delivery) :
      Settled client executor signingKey uncertain
        (⟨.loadUncertainIntent uncertain.authorizationId, .ok (some intent)⟩ ::
          ⟨.lookupEffect (lookupOf intent), .ok (.found effect)⟩ ::
          ⟨.commitEffectAndEnqueueReceipt (completionOf executor.id intent.authorization effect
            (receiptOf signingKey intent.authorization effect)), .ok entry⟩ :: rest)
        effect delivery

/-- Only a receipt that differs from the one of the effect can be committed and leave the effect
uncertain. -/
theorem Unsettled.receipt_ne {executor : RegisteredToolExecutor} {signingKey : SigningKey}
    {uncertain : UncertainExecution} {history : List (Event Answer)}
    {reason : UncertainEffectReason} (h : Unsettled executor signingKey uncertain history reason)
    {completion : ExecutionCompletion} {entry : ReceiptOutboxEntry}
    (hmem : (⟨.commitEffectAndEnqueueReceipt completion, .ok entry⟩ : Event Answer) ∈ history) :
    entry.receipt ≠ completion.receipt := by
  cases h with
  | uncommitted _ _ hqueued =>
    simp only [List.mem_cons, Sigma.mk.injEq, reduceCtorEq, false_and, false_or,
      Op.commitEffectAndEnqueueReceipt.injEq, List.not_mem_nil, or_false] at hmem
    obtain ⟨rfl, hqueued'⟩ := hmem
    exact hqueued entry (eq_of_heq hqueued').symm
  | _ => simp at hmem

omit [Crates] in
/-- An effect is accepted exactly if its identity is bounded. -/
theorem validateExecutionEffect_eq_ok_iff_bounded {effect : ExecutionEffect} :
    validateExecutionEffect effect = .ok () ↔ Bounded effect.effectId := by
  rw [validateExecutionEffect_eq_ok_iff, bounded_iff, not_or, not_lt]

/-- From the effect that the lookup found on. -/
theorem reconcileFound_ends {client : ClavenarClient} {executor : RegisteredToolExecutor}
    {signingKey : SigningKey} {uncertain : UncertainExecution} {intent : ExecutionIntent}
    {effect : ExecutionEffect} (hbinds : uncertain.Binds intent) {rest : List (Event Answer)}
    {result : Except ClavenarError ExecutionReconciliationOutcome}
    (h : (client.reconcileFound executor signingKey uncertain intent effect).Returns rest result) :
    let history : List (Event Answer) :=
      ⟨.loadUncertainIntent uncertain.authorizationId, .ok (some intent)⟩ ::
        ⟨.lookupEffect (lookupOf intent), .ok (.found effect)⟩ :: rest
    (∃ delivery, Settled client executor signingKey uncertain history effect delivery ∧
      result = (fun recorded => .completed ⟨recorded, effect.result, effect.effectId⟩) <$>
        delivery) ∨
    ∃ reason, Unsettled executor signingKey uncertain history reason ∧
      result = .ok (.uncertain (uncertainWithReason uncertain reason true)) := by
  unfold reconcileFound at h
  cases heffect : validateExecutionEffect effect with
  | error error =>
    rw [heffect] at h
    obtain ⟨rfl, rfl⟩ := Prog.returns_done_iff.mp h
    have hbounded : ¬Bounded effect.effectId := by
      rw [← validateExecutionEffect_eq_ok_iff_bounded, heffect]
      simp
    exact .inr ⟨_, .invalidEffect hbinds hbounded, rfl⟩
  | ok _ =>
    have hbounded := validateExecutionEffect_eq_ok_iff_bounded.mp heffect
    simp only [heffect] at h
    obtain ⟨_, _, -, hawait⟩ | ⟨first, last, completed, rfl, hcompleted, hlast⟩ :=
      Prog.reach_andThen_iff.mp h
    · simp at hawait
    cases completionRun_of_returns hcompleted with
    | uncommitted hqueued =>
      obtain ⟨rfl, rfl⟩ := Prog.returns_done_iff.mp hlast
      exact .inr ⟨_, .uncommitted hbinds hbounded hqueued, rfl⟩
    | @committed _ _ delivery hentry hdelivery =>
      have hdone : last = [] ∧ result =
          (fun recorded => .completed ⟨recorded, effect.result, effect.effectId⟩) <$> delivery := by
        cases delivery <;> exact Prog.returns_done_iff.mp hlast
      obtain ⟨rfl, rfl⟩ := hdone
      rw [List.append_nil]
      exact .inl ⟨delivery, .committed hbinds hbounded hentry hdelivery, rfl⟩

/-- All ends of a reconciliation that is not refused. -/
theorem reconcile_ends {client : ClavenarClient} {dependencies : ExecutionDependencies}
    {uncertain : UncertainExecution}
    (hdependencies : client.executionDependencies = .ok dependencies)
    (hhandle : uncertain.WellFormed)
    (hexecutor : dependencies.executor.id = uncertain.executorId) {history : List (Event Answer)}
    {result : Except ClavenarError ExecutionReconciliationOutcome}
    (h : (client.reconcileUncertainEffect uncertain).Returns history result) :
    (∃ effect delivery, Settled client dependencies.executor dependencies.signingKey uncertain
        history effect delivery ∧
      result = (fun recorded => .completed ⟨recorded, effect.result, effect.effectId⟩) <$>
        delivery) ∨
    ∃ reason, Unsettled dependencies.executor dependencies.signingKey uncertain history reason ∧
      result = .ok (.uncertain (uncertainWithReason uncertain reason
        dependencies.executor.effectLookup)) := by
  rw [reconcileUncertainEffect_eq hdependencies (validateUncertainExecution_eq_ok_iff.mpr hhandle)
    hexecutor] at h
  obtain ⟨loaded, rest, rfl, hloaded⟩ := Prog.returns_await_iff.mp h
  match loaded with
  | .error error =>
    obtain ⟨rfl, rfl⟩ := Prog.returns_done_iff.mp hloaded
    exact .inr ⟨_, .noIntent (by simp), rfl⟩
  | .ok none =>
    obtain ⟨rfl, rfl⟩ := Prog.returns_done_iff.mp hloaded
    exact .inr ⟨_, .noIntent (by simp), rfl⟩
  | .ok (some intent) =>
    cases hvalid : validateUncertainIntent uncertain intent with
    | error error =>
      have hbinds : ¬uncertain.Binds intent := by
        rw [← validateUncertainIntent_eq_ok_iff, hvalid]
        simp
      simp only [reconcileIntent, hvalid] at hloaded
      obtain ⟨rfl, rfl⟩ := Prog.returns_done_iff.mp hloaded
      exact .inr ⟨_, .mismatch hbinds, rfl⟩
    | ok _ =>
      have hbinds := validateUncertainIntent_eq_ok_iff.mp hvalid
      cases hregistered : dependencies.executor.effectLookup with
      | false =>
        simp only [reconcileIntent, hvalid, hregistered] at hloaded
        obtain ⟨rfl, rfl⟩ := Prog.returns_done_iff.mp hloaded
        exact .inr ⟨_, .noLookup hbinds hregistered, rfl⟩
      | true =>
        simp only [reconcileIntent_eq hvalid hregistered] at hloaded
        obtain ⟨found, rest, rfl, hfound⟩ := Prog.returns_await_iff.mp hloaded
        match found with
        | .error error =>
          obtain ⟨rfl, rfl⟩ := Prog.returns_done_iff.mp hfound
          exact .inr ⟨_, .lookupFailed hbinds, rfl⟩
        | .ok .notFound =>
          obtain ⟨rfl, rfl⟩ := Prog.returns_done_iff.mp hfound
          exact .inr ⟨_, .notFound hbinds, rfl⟩
        | .ok .ambiguous =>
          obtain ⟨rfl, rfl⟩ := Prog.returns_done_iff.mp hfound
          exact .inr ⟨_, .ambiguous hbinds, rfl⟩
        | .ok (.found effect) =>
          obtain ⟨delivery, hsettled, hresult⟩ | hunsettled := reconcileFound_ends hbinds hfound
          · exact .inl ⟨effect, delivery, hsettled, hresult⟩
          · exact .inr hunsettled

/-! ### Refusals -/

/-- The check fails with a configuration error only. -/
def ConfigOnly {α : Type} (check : Except ClavenarError α) : Prop :=
  ∀ error, check = .error error → ∃ message, error = .invalidConfig message

omit [Crates] in
/-- A further check that refuses with a configuration error changes nothing about that. -/
theorem ConfigOnly.ite {α : Type} {p : Prop} [Decidable p] {message : String}
    {check : Except ClavenarError α} (h : ConfigOnly check) :
    ConfigOnly (if p then .error (.invalidConfig message) else check) := by
  intro error herror
  split_ifs at herror
  · obtain rfl := Except.error.inj herror
    exact ⟨message, rfl⟩
  · exact h error herror

omit [Crates] in
/-- Checks that fail with configuration errors only do so one after the other. -/
theorem ConfigOnly.bind {α β : Type} {check : Except ClavenarError α}
    {next : α → Except ClavenarError β} (h : ConfigOnly check)
    (hnext : ∀ a, ConfigOnly (next a)) : ConfigOnly (check >>= next) := by
  intro error herror
  cases check with
  | error error' =>
    obtain rfl := Except.error.inj herror
    exact h error' rfl
  | ok a => exact hnext a error herror

omit [Crates] in
/-- What succeeds does not fail. -/
theorem configOnly_ok {α : Type} (a : α) : ConfigOnly (.ok a) := by
  intro error herror
  cases herror

omit [Crates] in
/-- A configuration error is one. -/
theorem configOnly_invalidConfig {α : Type} (message : String) :
    ConfigOnly (.error (.invalidConfig message) : Except ClavenarError α) := by
  rintro error ⟨⟩
  exact ⟨message, rfl⟩

omit [Crates] in
/-- The check of a handle fails with a configuration error only. -/
theorem configOnly_validateUncertainExecution (uncertain : UncertainExecution) :
    ConfigOnly (validateUncertainExecution uncertain) :=
  ConfigOnly.ite (ConfigOnly.ite (configOnly_ok _))

/-- So does the look for the dependencies. -/
theorem configOnly_executionDependencies (client : ClavenarClient) :
    ConfigOnly client.executionDependencies := by
  have helim : ∀ {α : Type} (x : Option α) (message : String),
      ConfigOnly (x.elim (.error (.invalidConfig message)) .ok) := by
    intro α x message
    cases x with
    | none => exact configOnly_invalidConfig message
    | some a => exact configOnly_ok a
  exact (helim _ _).bind fun _ => (ConfigOnly.ite (configOnly_ok _)).bind fun _ =>
    (helim _ _).bind fun _ => (helim _ _).bind fun _ =>
      (ConfigOnly.ite (configOnly_ok _)).bind fun _ => configOnly_ok _

/-- A refused reconciliation fails without any operation. -/
theorem reconcile_refused {client : ClavenarClient} {uncertain : UncertainExecution}
    (h : Refused client uncertain) :
    ∃ message, client.reconcileUncertainEffect uncertain = .fail (.invalidConfig message) := by
  unfold reconcileUncertainEffect
  cases hhandle : validateUncertainExecution uncertain with
  | error error =>
    obtain ⟨message, rfl⟩ := configOnly_validateUncertainExecution uncertain error hhandle
    exact ⟨message, rfl⟩
  | ok _ =>
    cases hdependencies : client.executionDependencies with
    | error error =>
      obtain ⟨message, rfl⟩ := configOnly_executionDependencies client error hdependencies
      exact ⟨message, rfl⟩
    | ok dependencies =>
      have hother : dependencies.executor.id ≠ uncertain.executorId := by
        obtain hmalformed | hlacks | ⟨executor, hmem, hother⟩ := h
        · exact absurd (validateUncertainExecution_eq_ok_iff.mp hhandle) hmalformed
        · exact absurd hlacks (exists_executionDependencies_iff.mp ⟨_, hdependencies⟩)
        · have hexecutor := (executionDependencies_eq_ok_iff.mp hdependencies).1
          obtain rfl := Option.some.inj (hexecutor.symm.trans hmem)
          exact hother
      exact ⟨_, if_pos hother⟩

/-! ### Chains of handles -/

/-- A reconciliation of the first handle, on some client and with some answers, returns the second
one. -/
def ReturnsHandle (uncertain uncertain' : UncertainExecution) : Prop :=
  ∃ (client : ClavenarClient) (history : List (Event Answer)),
    (client.reconcileUncertainEffect uncertain).Returns history (.ok (.uncertain uncertain'))

/-- The handles agree on the contract, the status and the seven bindings. -/
def SameBindings (uncertain uncertain' : UncertainExecution) : Prop :=
  ∃ reason registered, uncertain' = uncertainWithReason uncertain reason registered

omit [Crates] in
/-- The check of a handle looks at nothing else. -/
theorem SameBindings.wellFormed_iff {uncertain uncertain' : UncertainExecution}
    (h : SameBindings uncertain uncertain') : uncertain'.WellFormed ↔ uncertain.WellFormed := by
  obtain ⟨reason, registered, rfl⟩ := h
  constructor
  · intro h
    exact ⟨h.contract, h.status, h.authorizationId, h.idempotencyId, h.tenant, h.workloadId,
      h.workloadSpiffe, h.payloadSha256, h.executorId⟩
  · intro h
    exact ⟨h.contract, h.status, h.authorizationId, h.idempotencyId, h.tenant, h.workloadId,
      h.workloadSpiffe, h.payloadSha256, h.executorId⟩

/-- What is not refused has its dependencies. -/
theorem exists_dependencies_of_not_refused {client : ClavenarClient}
    {uncertain : UncertainExecution} (h : ¬Refused client uncertain) :
    uncertain.WellFormed ∧ ∃ dependencies, client.executionDependencies = .ok dependencies ∧
      dependencies.executor.id = uncertain.executorId := by
  simp only [Refused, not_or, not_not, not_exists, not_and] at h
  obtain ⟨hhandle, hlacks, hexecutor⟩ := h
  obtain ⟨dependencies, hdependencies⟩ := exists_executionDependencies_iff.mpr hlacks
  exact ⟨hhandle, dependencies, hdependencies,
    hexecutor _ (executionDependencies_eq_ok_iff.mp hdependencies).1⟩

/-- A reconcile returns a handle with the bindings of the one that it was given. -/
theorem ReturnsHandle.sameBindings {uncertain uncertain' : UncertainExecution}
    (h : ReturnsHandle uncertain uncertain') : SameBindings uncertain uncertain' := by
  obtain ⟨client, history, hreturns⟩ := h
  by_cases hrefused : Refused client uncertain
  · obtain ⟨message, hfail⟩ := reconcile_refused hrefused
    rw [hfail] at hreturns
    obtain ⟨-, hresult⟩ := Prog.returns_done_iff.mp hreturns
    cases hresult
  obtain ⟨hhandle, dependencies, hdependencies, hexecutor⟩ :=
    exists_dependencies_of_not_refused hrefused
  obtain ⟨effect, delivery, -, hresult⟩ | ⟨reason, -, hresult⟩ :=
    reconcile_ends hdependencies hhandle hexecutor hreturns
  · cases delivery <;> cases hresult
  · exact ⟨reason, _, by simpa using hresult⟩

/-- The outcome of a reconciliation. It is refused with a configuration error and without any
operation; or it completes the effect that the lookup found for an intent that agrees with the
handle and with its own authorization, and returns its completion or the error of the delivery of
its receipt; or it returns the handle with the reason why the effect is still uncertain, and the
store has not committed the receipt of an effect. Handles that come from each other by
reconciliations have the same bindings. -/
theorem reconciliation_outcome (client : ClavenarClient) (uncertain : UncertainExecution) :
    (Refused client uncertain →
      ∃ message, client.reconcileUncertainEffect uncertain = .fail (.invalidConfig message)) ∧
    (¬Refused client uncertain → ∃ dependencies,
      client.executionDependencies = .ok dependencies ∧ ∀ history result,
        (client.reconcileUncertainEffect uncertain).Returns history result →
        (∃ effect delivery, Settled client dependencies.executor dependencies.signingKey uncertain
            history effect delivery ∧
          result = (fun recorded => .completed ⟨recorded, effect.result, effect.effectId⟩) <$>
            delivery) ∨
        ∃ reason, Unsettled dependencies.executor dependencies.signingKey uncertain history reason ∧
          result = .ok (.uncertain (uncertainWithReason uncertain reason
            dependencies.executor.effectLookup)) ∧
          ∀ completion entry, (⟨.commitEffectAndEnqueueReceipt completion, .ok entry⟩ :
            Event Answer) ∈ history → entry.receipt ≠ completion.receipt) ∧
    ∀ uncertain', Relation.ReflTransGen ReturnsHandle uncertain uncertain' →
      SameBindings uncertain uncertain' ∧ (uncertain'.WellFormed ↔ uncertain.WellFormed) := by
  refine ⟨reconcile_refused, fun h => ?_, fun uncertain' hchain => ?_⟩
  · obtain ⟨hhandle, dependencies, hdependencies, hexecutor⟩ := exists_dependencies_of_not_refused h
    refine ⟨dependencies, hdependencies, fun history result hreturns => ?_⟩
    obtain hsettled | ⟨reason, hunsettled, hresult⟩ :=
      reconcile_ends hdependencies hhandle hexecutor hreturns
    · exact .inl hsettled
    · exact .inr ⟨reason, hunsettled, hresult, fun _ _ => hunsettled.receipt_ne⟩
  · have hbindings : SameBindings uncertain uncertain' := by
      induction hchain with
      | refl => exact ⟨uncertain.reason, uncertain.effectLookupRegistered, rfl⟩
      | tail _ hstep ih =>
        obtain ⟨_, _, rfl⟩ := ih
        obtain ⟨reason, registered, rfl⟩ := hstep.sameBindings
        exact ⟨reason, registered, rfl⟩
    exact ⟨hbindings, hbindings.wellFormed_iff⟩

end

namespace Fixture

attribute [local instance] crates

/-- The handle of the call passes its check. -/
theorem validateUncertainExecution_handleOf :
    validateUncertainExecution (handleOf (dependencies ()) authorization) = .ok () :=
  validateUncertainExecution_handle ⟨_, _, rfl⟩

/-- The handle of the test, while the store holds no intent. -/
theorem trace_reconcile_initial :
    ((client ()).reconcileUncertainEffect (handleOf (dependencies ()) authorization)).trace
      surroundings.handler MemoryExecutionStore.initial =
        [⟨.loadUncertainIntent authorizationId, .ok none⟩] := by
  rw [reconcileUncertainEffect_eq (executionDependencies_client ())
    validateUncertainExecution_handleOf rfl]
  rfl

/-- The handle of the test is refused by a client without an executor, and returned while the store
holds no intent. -/
theorem reconciliation_outcome_handle :
    (∃ message, ({ client () with toolExecutor := none } :
      ClavenarClient).reconcileUncertainEffect (handleOf (dependencies ()) authorization) =
        .fail (.invalidConfig message)) ∧
    ∃ reason, (((client ()).reconcileUncertainEffect
      (handleOf (dependencies ()) authorization)).eval surroundings.handler
        MemoryExecutionStore.initial).2 = .ok (.uncertain (uncertainWithReason
          (handleOf (dependencies ()) authorization) reason true)) := by
  refine ⟨(reconciliation_outcome _ _).1 (.inr (.inl (.inl rfl))), ?_⟩
  have hrefused : ¬Refused (client ()) (handleOf (dependencies ()) authorization) := by
    have hhandle := validateUncertainExecution_eq_ok_iff.mp validateUncertainExecution_handleOf
    have hlacks := exists_executionDependencies_iff.mp ⟨_, executionDependencies_client ()⟩
    simp only [Refused, not_or, not_not, not_exists, not_and]
    refine ⟨hhandle, hlacks, ?_⟩
    rintro _ ⟨⟩
    rfl
  obtain ⟨_, hdependencies, hends⟩ := (reconciliation_outcome (client ()) _).2.1 hrefused
  obtain rfl := Except.ok.inj ((executionDependencies_client ()).symm.trans hdependencies)
  have hreturns := @Prog.returns_trace _ _ _ _ _ surroundings.handler
    MemoryExecutionStore.initial
    ((client ()).reconcileUncertainEffect (handleOf (dependencies ()) authorization))
  obtain ⟨_, _, hsettled, -⟩ | ⟨reason, -, hresult, -⟩ := hends _ _ hreturns
  · rw [trace_reconcile_initial] at hsettled
    cases hsettled
  · exact ⟨reason, hresult⟩

end Fixture

end ClavenarSdk
