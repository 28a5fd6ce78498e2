import ClavenarSdk.Execution.Evidence
import ClavenarSdk.Execution.Recovery

/-!
# One completion for each authorization

The attempt boundary lets one caller through to the executor, but a completion is committed
without looking at it again. As long as every commit finds its authorization in flight, there
is at most one completion for each authorization; a commit that does not find it so adds a
second one.
-/

namespace ClavenarSdk

open Interaction ClavenarClient MemoryExecutionStore

/-- The store committed a completion for this authorization and enqueued its receipt. -/
def commitFor (authorizationId : Uuid) : Event Answer → Bool
  | ⟨.commitEffectAndEnqueueReceipt completion, .ok _⟩ =>
    completion.authorizationId = authorizationId
  | _ => false

/-- A commit finds its authorization in flight. -/
def CommitsInFlight (store : MemoryExecutionStore) (event : Event Answer) : Prop :=
  ∀ completion, event.1 = .commitEffectAndEnqueueReceipt completion →
    completion.authorizationId ∈ store.inFlightAuthorizations

/-- The number of completions for an authorization. -/
def completionsFor (store : MemoryExecutionStore) (authorizationId : Uuid) : ℕ :=
  store.completions.countP fun completion => completion.authorizationId = authorizationId

/-- What holds while every commit finds its authorization in flight. -/
structure CompletedOnce (store : MemoryExecutionStore) (log : List (Event Answer)) : Prop where
  counted : ∀ authorizationId, log.countP (commitFor authorizationId) =
    completionsFor store authorizationId
  once : ∀ authorizationId, completionsFor store authorizationId ≤ 1
  completed : ∀ authorizationId, authorizationId ∈ store.completedAuthorizations ↔
    0 < completionsFor store authorizationId
  flight : ∀ authorizationId ∈ store.inFlightAuthorizations,
    authorizationId ∉ store.completedAuthorizations
  attempted : ∀ intent ∈ store.intents, intent.authorizationId ∈ store.inFlightAuthorizations ∨
    intent.authorizationId ∈ store.completedAuthorizations

/-- A commit adds one completion, for its own authorization. -/
theorem completionsFor_commit (store : MemoryExecutionStore) (completion : ExecutionCompletion)
    (authorizationId : Uuid) :
    completionsFor (store.commitEffectAndEnqueueReceipt completion) authorizationId =
      completionsFor store authorizationId +
        if completion.authorizationId = authorizationId then 1 else 0 := by
  simp [completionsFor, commitEffectAndEnqueueReceipt, List.countP_append, List.countP_singleton]

/-- Each answer keeps the invariant if commits find their authorization in flight. -/
theorem CompletedOnce.answer {store store' : MemoryExecutionStore} {log : List (Event Answer)}
    {event : Event Answer} (h : CompletedOnce store log)
    (hanswer : store.Answers event.1 event.2 store') (hflight : CommitsInFlight store event) :
    CompletedOnce store' (log ++ [event]) := by
  have hquiet : (∀ authorizationId, commitFor authorizationId event = false) →
      ∀ authorizationId, (log ++ [event]).countP (commitFor authorizationId) =
        completionsFor store authorizationId := by
    intro hnone authorizationId
    rw [List.countP_append, h.counted, List.countP_singleton, hnone]
    rfl
  cases Answers.change event hanswer with
  | @started intent _ hnotFlight hnotCompleted =>
    refine ⟨hquiet fun _ => rfl, h.once, h.completed, ?_, ?_⟩
    · intro authorizationId hmem
      rcases Finset.mem_insert.mp hmem with rfl | hmem
      · exact hnotCompleted
      · exact h.flight authorizationId hmem
    · intro intent' hintent'
      rcases List.mem_append.mp hintent' with hintent' | hintent'
      · exact (h.attempted intent' hintent').imp_left Finset.mem_insert_of_mem
      · obtain rfl := List.mem_singleton.mp hintent'
        exact .inl (Finset.mem_insert_self _ _)
  | @committed completion =>
    have hmem : completion.authorizationId ∈ store.inFlightAuthorizations := hflight _ rfl
    have hzero : completionsFor store completion.authorizationId = 0 := by
      have hnot := h.flight _ hmem
      rw [h.completed] at hnot
      omega
    refine ⟨fun authorizationId => ?_, fun authorizationId => ?_, fun authorizationId => ?_,
      fun authorizationId hin => ?_, fun intent hintent => ?_⟩
    · rw [completionsFor_commit, List.countP_append, h.counted, List.countP_singleton]
      simp [commitFor]
    · rw [completionsFor_commit]
      split_ifs with hid
      · subst hid
        omega
      · exact h.once authorizationId
    · rw [completionsFor_commit]
      simp only [commitEffectAndEnqueueReceipt, Finset.mem_insert, h.completed]
      split_ifs with hid
      · simp [hid]
      · simp [Ne.symm hid]
    · simp only [commitEffectAndEnqueueReceipt, Finset.mem_erase, Finset.mem_insert,
        not_or] at hin ⊢
      exact ⟨hin.1, h.flight authorizationId hin.2⟩
    · simp only [commitEffectAndEnqueueReceipt, Finset.mem_erase, Finset.mem_insert]
      have hattempted := h.attempted intent hintent
      tauto
  | notStarted | loaded | listed | delivered | notPending =>
    exact ⟨hquiet fun _ => rfl, h.once, h.completed, h.flight, h.attempted⟩
  | outside houtside =>
    refine ⟨hquiet fun _ => ?_, h.once, h.completed, h.flight, h.attempted⟩
    obtain ⟨op, answer⟩ := event
    cases op <;> simp_all [commitFor, Op.outside]

section

variable [Crates]

/-! ### A reconciliation that overtakes the executor -/

section Overtaking

variable {w : Surroundings} {client : ClavenarClient} {dependencies : ExecutionDependencies}
  {authorization : SignedAuthorization} {store : MemoryExecutionStore}
  {uncertain : UncertainExecution}

/-- An effect that the executor returns and the store commits adds its completion. -/
theorem completions_executeStarted_returned {effect : ExecutionEffect}
    (hexecutor : w.executor (requestOf dependencies.executor.id authorization) = .ok effect)
    (heffect : validateExecutionEffect effect = .ok ()) (hcommit : w.commitFault = none) :
    ((client.executeStarted dependencies.executor dependencies.signingKey authorization
      uncertain).eval w.handler store).1.completions =
        store.completions ++ [completionOf dependencies.executor.id authorization effect
          (receiptOf dependencies.signingKey authorization effect)] := by
  rw [Surroundings.eval_executeStarted_returned hexecutor heffect hcommit]
  exact Surroundings.completions_completed effect

/-- An effect that a reconcile finds and the store commits adds its completion. -/
theorem completions_reconcile_found {effect : ExecutionEffect}
    (hdependencies : client.executionDependencies = .ok dependencies)
    (hminted : Minted dependencies.executor.id authorization uncertain)
    (hvalid : authorization.Valid authorization.authorization.idempotencyId)
    (hhandle : validateUncertainExecution uncertain = .ok ())
    (hload : store.loadUncertainIntent authorization.authorization.authorizationId =
      some (intentOf dependencies.executor.id authorization))
    (hregistered : dependencies.executor.effectLookup = true)
    (hlookup : w.effectLookup (lookupOf (intentOf dependencies.executor.id authorization)) =
      .ok (.found effect))
    (heffect : validateExecutionEffect effect = .ok ()) (hcommit : w.commitFault = none) :
    ((client.reconcileUncertainEffect uncertain).eval w.handler store).1.completions =
      store.completions ++ [completionOf dependencies.executor.id authorization effect
        (receiptOf dependencies.signingKey authorization effect)] := by
  rw [Surroundings.eval_reconcile_found hdependencies hminted hvalid hhandle hload hregistered
    hlookup heffect hcommit]
  dsimp only
  rw [Surroundings.completions_completed]

/-- While an executor is at work, a reconciliation of its attempt can find another effect and
complete it; then the executor answers. -/
theorem overtaken {c : Sys MemoryExecutionStore Op Answer ClavenarError ApiResult} {i : ℕ}
    {start : Call ApiResult} {history : List (Event Answer)} {f : ExecutionOutcome → ApiResult}
    {effect other : ExecutionEffect} (hc : c.Reachable env Allowed)
    (htask : c.tasks[i]? = some ⟨start, history, .ready (client.executeStarted dependencies.executor
      dependencies.signingKey authorization uncertain >>= fun outcome => pure (f outcome))⟩)
    (hdependencies : client.executionDependencies = .ok dependencies)
    (hminted : Minted dependencies.executor.id authorization uncertain)
    (hvalid : authorization.Valid authorization.authorization.idempotencyId)
    (hhandle : validateUncertainExecution uncertain = .ok ())
    (hload : c.shared.loadUncertainIntent authorization.authorization.authorizationId =
      some (intentOf dependencies.executor.id authorization))
    (hregistered : dependencies.executor.effectLookup = true)
    (hexecutor : w.executor (requestOf dependencies.executor.id authorization) = .ok effect)
    (hlookup : w.effectLookup (lookupOf (intentOf dependencies.executor.id authorization)) =
      .ok (.found other))
    (heffect : validateExecutionEffect effect = .ok ())
    (hother : validateExecutionEffect other = .ok ()) (hcommit : w.commitFault = none) :
    ∃ c', Sys.Reachable env Allowed c' ∧ c'.shared.completions = c.shared.completions ++
      [completionOf dependencies.executor.id authorization other
          (receiptOf dependencies.signingKey authorization other),
        completionOf dependencies.executor.id authorization effect
          (receiptOf dependencies.signingKey authorization effect)] := by
  have hanswers := Surroundings.handler_answers hcommit
  have hlt := (List.getElem?_eq_some_iff.mp htask).1
  have hreconciling := hc.spawn ⟨client, .reconcileUncertainEffect uncertain, rfl⟩
  have hreconciled := hreconciling.finish hanswers (i := c.tasks.length)
    List.getElem?_concat_length
  have hwaiting : ∀ t, ((c.tasks ++ [Task.fresh ((ApiCall.reconcileUncertainEffect uncertain).run
      client)]).set c.tasks.length t)[i]? = c.tasks[i]? := by
    intro t
    rw [List.getElem?_set_ne (by omega), List.getElem?_append_left hlt]
  refine ⟨_, hreconciled.finish hanswers ((hwaiting _).trans htask), ?_⟩
  simp only [ApiCall.run, Prog.eval_bind_pure]
  rw [completions_executeStarted_returned hexecutor heffect hcommit,
    completions_reconcile_found hdependencies hminted hvalid hhandle hload hregistered hlookup
      hother hcommit, List.append_assoc]
  rfl

end Overtaking

/-- At most one completion for each authorization, and at most one enqueued receipt, while
every commit finds its authorization in flight. The condition is exact: a commit that is under
way and does not find it so adds a second completion. -/
theorem completed_once
    {c : Sys MemoryExecutionStore Op Answer ClavenarError ApiResult}
    (h : c.Reachable (MemoryExecutionStore.env.restrict CommitsInFlight) Allowed) :
    (∀ authorizationId, completionsFor c.shared authorizationId ≤ 1 ∧
      c.log.countP (commitFor authorizationId) ≤ 1) ∧
    ∀ t ∈ c.tasks, ∀ completion,
      t.phase.pending = some (.commitEffectAndEnqueueReceipt completion) →
      completion.authorizationId ∉ c.shared.inFlightAuthorizations →
      completionsFor (c.shared.commitEffectAndEnqueueReceipt completion)
        completion.authorizationId = 2 := by
  have honce : CompletedOnce c.shared c.log := by
    refine h.invariant ?_ (fun _ _ _ _ hanswer hlog => hlog.answer hanswer.1 hanswer.2) ?_
    · rintro store rfl
      exact ⟨by simp [completionsFor, initial], by simp [completionsFor, initial],
        by simp [completionsFor, initial], by simp [initial], by simp [initial]⟩
    · rintro store _ log (_ | _) hlog <;>
        exact ⟨hlog.counted, hlog.once, hlog.completed, hlog.flight, hlog.attempted⟩
  refine ⟨fun authorizationId =>
    ⟨honce.once _, (honce.counted _).trans_le (honce.once _)⟩, ?_⟩
  intro t ht completion hpending hflight
  have hinvoked : .commitEffectAndEnqueueReceipt completion ∈ t.invoked := by
    simp [Task.invoked, hpending]
  obtain ⟨intent, hintent, hlinked⟩ := (evident_of_reachable h.of_restrict).2 t ht _ hinvoked
  have hcompleted : completion.authorizationId ∈ c.shared.completedAuthorizations := by
    have hattempted := honce.attempted intent hintent
    rw [← hlinked.authorizationId] at hattempted
    exact hattempted.resolve_left hflight
  have hone := honce.once completion.authorizationId
  have hpos := (honce.completed _).mp hcompleted
  rw [completionsFor_commit, if_pos rfl]
  omega

end

namespace Fixture

attribute [local instance] crates

/-- The decision request of the test, answered. -/
def decided : Event Answer :=
  ⟨.postDecision (call.decisionRequest (client ()) ((client ()).baseUrl ++ "mcp")), .ok decision⟩

/-- The attempt of the test, started. -/
def begun : Event Answer :=
  ⟨.beginEffectAttempt (intentOf executor.id authorization) call.authorizationUse, .ok .started⟩

/-- The system while the executor of the test is at work. -/
def executing : Sys MemoryExecutionStore Op Answer ClavenarError ApiResult where
  shared := initial.start (intentOf executor.id authorization) call.authorizationUse
  tasks := [⟨call.run (client ()), [decided, begun], .ready
    ((client ()).executeStarted (dependencies ()).executor (dependencies ()).signingKey
      authorization (handleOf (dependencies ()) authorization) >>= fun outcome =>
        pure (call.onCompleted outcome))⟩]
  log := [decided, begun]

/-- The state in which the executor is at work is reachable. -/
theorem executing_reachable :
    executing.Reachable (MemoryExecutionStore.env.restrict CommitsInFlight) Allowed := by
  have hinit : (MemoryExecutionStore.env.restrict CommitsInFlight).init initial := rfl
  have hspawned : Sys.Reachable (MemoryExecutionStore.env.restrict CommitsInFlight) Allowed
      ⟨initial, [.fresh (call.run (client ()))], []⟩ :=
    (Sys.Reachable.init hinit).spawn ⟨client (), .governed call, rfl⟩
  have hdecided : Sys.Reachable (MemoryExecutionStore.env.restrict CommitsInFlight) Allowed
      ⟨initial, [⟨call.run (client ()), [decided],
        .ready (call.afterDecision (client ()) (dependencies ()) (.ok decision))⟩], [decided]⟩ := by
    have htask : [Task.fresh (call.run (client ()))][0]? = some ⟨call.run (client ()), [],
        .ready (.await (.postDecision (call.decisionRequest (client ())
          ((client ()).baseUrl ++ "mcp")))
            (call.afterDecision (client ()) (dependencies ())))⟩ := by
      rw [← GovernedCall.run_eq_await (gate_call ()) rfl]
      rfl
    exact hspawned.turn htask ⟨rfl, by simp [CommitsInFlight]⟩
  rw [GovernedCall.afterDecision_eq decide_call] at hdecided
  exact hdecided.turn (i := 0) rfl ⟨starts_call.eq.1.symm, by simp [CommitsInFlight]⟩

/-- So is the one after the commit of the executing call. -/
theorem completing_reachable : ∃ c : Sys MemoryExecutionStore Op Answer ClavenarError ApiResult,
    c.Reachable (MemoryExecutionStore.env.restrict CommitsInFlight) Allowed ∧
    c.shared = executing.shared.commitEffectAndEnqueueReceipt completion := by
  have heffect : validateExecutionEffect effect = .ok () := by decide +kernel
  have hflight : ∀ completion', .commitEffectAndEnqueueReceipt completion =
      Op.commitEffectAndEnqueueReceipt completion' →
      completion'.authorizationId ∈ executing.shared.inFlightAuthorizations := by
    rintro _ ⟨⟩
    exact Finset.mem_insert_self _ _
  have hanswer : (MemoryExecutionStore.env.restrict CommitsInFlight).answers executing.shared
      (.execute (requestOf executor.id authorization)) (.ok effect) executing.shared :=
    ⟨rfl, by simp [CommitsInFlight]⟩
  have hexecuted := executing_reachable.turn (i := 0) rfl hanswer
  simp only [heffect, completeKnownEffect, canonicalJson, Prog.mapError_await] at hexecuted
  exact ⟨_, hexecuted.turn (i := 0) rfl ⟨⟨rfl, rfl⟩, hflight⟩, rfl⟩

/-- In the run of the test. -/
theorem completed_once_call : ∃ c : Sys MemoryExecutionStore Op Answer ClavenarError ApiResult,
    c.shared.completions = [completion] ∧ completionsFor c.shared authorizationId ≤ 1 ∧
    c.log.countP (commitFor authorizationId) ≤ 1 := by
  obtain ⟨c, hc, hshared⟩ := completing_reachable
  exact ⟨c, by rw [hshared]; rfl, (completed_once hc).1 authorizationId⟩

/-- While its executor is at work, a reconciliation of the attempt finds another effect, and then
the executor answers: two receipts are signed and enqueued for one authorization. -/
theorem completed_twice : ∃ c : Sys MemoryExecutionStore Op Answer ClavenarError ApiResult,
    c.Reachable MemoryExecutionStore.env Allowed ∧
    completionsFor c.shared authorizationId = 2 ∧
    c.shared.completions.map ExecutionCompletion.effectId =
      ["provider-operation-124", "provider-operation-123"] := by
  have hminted : Minted executor.id authorization (handleOf (dependencies ()) authorization) :=
    ⟨_, _, rfl⟩
  obtain ⟨c, hc, hcompletions⟩ := overtaken (w := surroundings) (i := 0)
    executing_reachable.of_restrict rfl (executionDependencies_client ()) hminted
    authorization_valid (validateUncertainExecution_handle hminted) starts_call.load rfl rfl rfl
    (by decide +kernel) (by decide +kernel) rfl
  refine ⟨c, hc, ?_, ?_⟩
  · rw [completionsFor, hcompletions]
    rfl
  · rw [hcompletions]
    rfl

end Fixture

end ClavenarSdk
