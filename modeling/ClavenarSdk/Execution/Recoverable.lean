import ClavenarSdk.Execution.Background
import ClavenarSdk.Execution.Completion
import ClavenarSdk.Execution.Drain
import ClavenarSdk.Execution.Lifecycle
import ClavenarSdk.Execution.Recovery

/-!
# Recovery from every reachable state

Wherever a run was cut off, reconciliations and flushes lead on to a state in which every attempt
whose effect is known is completed and every receipt is delivered, and no effect is executed on
the way.
-/

namespace ClavenarSdk

open Interaction ClavenarClient MemoryExecutionStore

/-- What deliveries leave alone: intents, attempts, and all but some entries of the outbox. -/
structure KeepsAttempts (store store' : MemoryExecutionStore) : Prop where
  intents : store'.intents = store.intents
  inFlightAuthorizations : store'.inFlightAuthorizations = store.inFlightAuthorizations
  completedAuthorizations : store'.completedAuthorizations = store.completedAuthorizations
  pending : store'.pending ⊆ store.pending

/-- Where nothing happens, attempts are left alone. -/
theorem KeepsAttempts.refl (store : MemoryExecutionStore) : KeepsAttempts store store :=
  ⟨rfl, rfl, rfl, fun _ => id⟩

/-- Two runs that leave attempts alone do so one after the other. -/
theorem KeepsAttempts.trans {store store' store'' : MemoryExecutionStore}
    (h : KeepsAttempts store store') (h' : KeepsAttempts store' store'') :
    KeepsAttempts store store'' where
  intents := h'.intents.trans h.intents
  inFlightAuthorizations := h'.inFlightAuthorizations.trans h.inFlightAuthorizations
  completedAuthorizations := h'.completedAuthorizations.trans h.completedAuthorizations
  pending := List.Subset.trans h'.pending h.pending

/-- Delivering entries from the front leaves attempts alone. -/
theorem KeepsAttempts.of_front {store store' : MemoryExecutionStore}
    {front : List (ReceiptOutboxEntry × ReceiptRecorded)} (h : DeliversFront store store' front) :
    KeepsAttempts store store' where
  intents := by rw [h.others]
  inFlightAuthorizations := by rw [h.others]
  completedAuthorizations := by rw [h.others]
  pending := by
    rw [h.pending]
    exact List.subset_append_right _ _

/-- So does any program that only posts and marks. -/
theorem KeepsAttempts.of_delivers {w : Surroundings} {ε α : Type} {p : Prog Op Answer ε α}
    (hp : p.Always (fun _ op => delivers op = true) (fun _ _ => True) [])
    (store : MemoryExecutionStore) : KeepsAttempts store (p.eval w.handler store).1 := by
  refine Prog.eval_invariant (I := KeepsAttempts store) ?_ hp (.refl store)
  intro s op hop hs
  cases op with
  | markReceiptDelivered outboxId recorded =>
    simp only [Surroundings.handler, MemoryExecutionStore.markReceiptDelivered]
    cases s.pending.findIdx? fun entry => entry.outboxId = outboxId with
    | none => exact hs
    | some index =>
      exact ⟨hs.intents, hs.inFlightAuthorizations, hs.completedAuthorizations,
        fun entry hentry => hs.pending (List.mem_of_mem_eraseIdx hentry)⟩
  | postReceipt => exact hs
  | _ => simp [delivers] at hop

section

variable [Crates]

/-! ### What is in the outbox can be sent -/

/-- A completion that is committed carries a receipt that the SDK signed. -/
def CommitsSigned : Op → Prop
  | .commitEffectAndEnqueueReceipt completion => ∃ executorId signingKey authorization effect,
    completion = completionOf executorId authorization effect
      (receiptOf signingKey authorization effect)
  | _ => True

/-- A delivery commits nothing. -/
theorem commitsSigned_of_delivers {op : Op} (h : delivers op = true) : CommitsSigned op := by
  cases op <;> trivial

/-- Every call commits signed receipts only. -/
theorem apiCall_commitsSigned (client : ClavenarClient) (call : ApiCall) :
    Prog.Always (fun _ op => CommitsSigned op) (fun _ _ => True) [] (call.run client) := by
  cases call with
  | governed call =>
    refine GovernedCall.run_always (fun _ => trivial) fun dependencies _ _ authorization _ _ => ?_
    exact executeAuthorization_always trivial (executeStarted_always trivial
      (fun _ effect => ⟨_, _, authorization, effect, rfl⟩) fun _ _ => commitsSigned_of_delivers)
  | flushExecutionReceiptOutbox limit =>
    exact (flushExecutionReceiptOutbox_always trivial
      fun _ _ => commitsSigned_of_delivers).bind_pure _
  | reconcileUncertainEffect uncertain =>
    refine Prog.Always.bind_pure ?_ _
    unfold reconcileUncertainEffect
    cases validateUncertainExecution uncertain with
    | error error => simp
    | ok _ =>
      simp only [Prog.lift_ok, Prog.done_ok_bind]
      cases client.executionDependencies with
      | error error => simp
      | ok dependencies =>
        simp only [Prog.lift_ok, Prog.done_ok_bind]
        split_ifs
        · simp
        refine ⟨trivial, fun answer => ?_⟩
        match answer with
        | .error error => simp
        | .ok none => simp
        | .ok (some intent) =>
          exact reconcileIntent_always trivial
            (fun _ _ effect => ⟨_, _, intent.authorization, effect, rfl⟩)
            fun _ _ => commitsSigned_of_delivers

/-- Every entry of the outbox of a reachable state passes the check of its delivery. -/
theorem pending_valid {c : Sys MemoryExecutionStore Op Answer ClavenarError ApiResult}
    (h : c.Reachable MemoryExecutionStore.env Allowed) :
    ∀ entry ∈ c.shared.pending, validateOutboxEntry entry = .ok () := by
  refine h.shared_invariant (P := CommitsSigned)
    (I := fun store => ∀ entry ∈ store.pending, validateOutboxEntry entry = .ok ()) ?_ ?_ ?_ ?_
  · rintro p ⟨client, call, rfl⟩
    exact apiCall_commitsSigned client call
  · rintro store rfl
    simp [initial]
  · intro store store' event hsigned hanswer hvalid
    cases Answers.change event hanswer with
    | committed =>
      obtain ⟨executorId, signingKey, authorization, effect, rfl⟩ := hsigned
      intro entry hentry
      rcases List.mem_append.mp hentry with hentry | hentry
      · exact hvalid entry hentry
      · rw [List.mem_singleton.mp hentry]
        exact validateOutboxEntry_outboxEntry executorId signingKey authorization effect
    | delivered => exact fun entry hentry => hvalid entry (List.mem_of_mem_eraseIdx hentry)
    | started | notStarted | loaded | listed | notPending | outside => exact hvalid
  · rintro store _ (_ | _) hvalid <;> exact hvalid

/-! ### Going on without an attempt -/

variable {c c' c'' : Sys MemoryExecutionStore Op Answer ClavenarError ApiResult}

/-- A run that attempts no effect leads from the first state to the second one. -/
def Resumes (c c' : Sys MemoryExecutionStore Op Answer ClavenarError ApiResult) : Prop :=
  c.Later MemoryExecutionStore.env Allowed c' ∧
    ∃ events, c'.log = c.log ++ events ∧ ∀ event ∈ events, event.1.attempts = false

/-- A state is led to by doing nothing. -/
theorem Resumes.refl (c : Sys MemoryExecutionStore Op Answer ClavenarError ApiResult) :
    Resumes c c :=
  ⟨.refl c, [], by simp, by simp⟩

/-- Runs without attempts can be put one after the other. -/
theorem Resumes.trans (h : Resumes c c') (h' : Resumes c' c'') : Resumes c c'' := by
  obtain ⟨hlater, events, hlog, hquiet⟩ := h
  obtain ⟨hlater', events', hlog', hquiet'⟩ := h'
  refine ⟨hlater.trans hlater', events ++ events', ?_, fun event hmem => ?_⟩
  · rw [hlog', hlog, List.append_assoc]
  · exact (List.mem_append.mp hmem).elim (hquiet event) (hquiet' event)

/-- A call that attempts no effect can run in surroundings without faults. -/
theorem Resumes.run {w : Surroundings} (hcommit : w.commitFault = none)
    (c : Sys MemoryExecutionStore Op Answer ClavenarError ApiResult) {client : ClavenarClient}
    {call : ApiCall} (hquiet : Prog.Always (fun _ op => op.attempts = false) (fun _ _ => True) []
      (call.run client)) :
    ∃ c', Resumes c c' ∧ c'.shared = ((call.run client).eval w.handler c.shared).1 := by
  obtain ⟨tasks, hlater⟩ := Sys.Later.run (Surroundings.handler_answers hcommit) c
    (show Allowed (call.run client) from ⟨client, call, rfl⟩)
  exact ⟨_, ⟨hlater, _, rfl, hquiet.forall_mem (Prog.returns_trace _ _)⟩, rfl⟩

/-! ### Settling one attempt -/

/-- The Proxy confirms the receipt whenever it is asked. -/
def Accepts (w : Surroundings) (client : ClavenarClient) (receipt : ExecutionReceipt) : Prop :=
  ∃ endpoint, joinUrl client.baseUrl "execution-receipts" = .ok endpoint ∧
    ∃ recorded, confirmReceipt receipt (w.receipt (receiptRequest client endpoint receipt)) =
      .ok recorded

/-- The attempt of the intent can be settled: it was made for the registered executor, its
authorization is complete, and the lookup finds a valid effect. -/
structure Settleable (w : Surroundings) (dependencies : ExecutionDependencies)
    (intent : ExecutionIntent) (effect : ExecutionEffect) : Prop where
  executorId : intent.executorId = dependencies.executor.id
  complete : intent.authorization.Complete
  found : w.effectLookup (lookupOf intent) = .ok (.found effect)
  valid : validateExecutionEffect effect = .ok ()

/-- A reconciliation settles an attempt that can be settled. -/
theorem settle {w : Surroundings} (hcommit : w.commitFault = none) {client : ClavenarClient}
    {dependencies : ExecutionDependencies}
    (hdependencies : client.executionDependencies = .ok dependencies)
    (hregistered : dependencies.executor.effectLookup = true)
    (h : c.Reachable MemoryExecutionStore.env Allowed) {intent : ExecutionIntent}
    (hintent : intent ∈ c.shared.intents)
    (hflight : intent.authorizationId ∈ c.shared.inFlightAuthorizations)
    {effect : ExecutionEffect} (hsettle : Settleable w dependencies intent effect) :
    ∃ c', Resumes c c' ∧ c'.shared.intents = c.shared.intents ∧
      c'.shared.inFlightAuthorizations =
        c.shared.inFlightAuthorizations.erase intent.authorizationId ∧
      c'.shared.completedAuthorizations =
        insert intent.authorizationId c.shared.completedAuthorizations ∧
      ∀ entry ∈ c'.shared.pending, entry ∈ c.shared.pending ∨
        entry.receipt = receiptOf dependencies.signingKey intent.authorization effect := by
  have hload : c.shared.loadUncertainIntent intent.authorizationId = some intent := by
    rw [loadUncertainIntent, if_neg (not_not.mpr hflight),
      (tracked_of_reachable h).intentFor_of_mem hintent]
  obtain ⟨executorId, authorization, rfl, hvalid⟩ :=
    (evident_of_reachable h).1.wellFormed intent hintent
  obtain rfl : executorId = dependencies.executor.id := hsettle.executorId
  have hminted : Minted dependencies.executor.id authorization
      (handleOf dependencies authorization) := ⟨_, _, rfl⟩
  have hexecutor := (executionDependencies_eq_ok_iff.mp hdependencies).2.1
  have hhandle := (validateUncertainExecution_minted hminted hvalid hexecutor).mpr
    hsettle.complete
  obtain ⟨c', hresumes, hshared⟩ := Resumes.run hcommit c
    (reconcile_not_attempts client (handleOf dependencies authorization))
  have heval := Surroundings.eval_reconcile_found hdependencies hminted hvalid hhandle hload
    hregistered hsettle.found hsettle.valid hcommit
  have hkeeps := KeepsAttempts.of_delivers (w := w) (client.deliverOutboxEntry_delivers
    (outboxEntry (completionOf dependencies.executor.id authorization effect
      (receiptOf dependencies.signingKey authorization effect))) [])
    (c.shared.commitEffectAndEnqueueReceipt (completionOf dependencies.executor.id authorization
      effect (receiptOf dependencies.signingKey authorization effect)))
  have hfinal : c'.shared = (Surroundings.completed w client dependencies authorization effect
      c.shared).1 := by
    rw [hshared, ApiCall.run, Prog.eval_bind_pure, heval]
  change KeepsAttempts _ (Surroundings.completed w client dependencies authorization effect
    c.shared).1 at hkeeps
  rw [← hfinal] at hkeeps
  refine ⟨c', hresumes, hkeeps.intents, hkeeps.inFlightAuthorizations,
    hkeeps.completedAuthorizations, fun entry hentry => ?_⟩
  rcases List.mem_append.mp (hkeeps.pending hentry) with hentry | hentry
  · exact .inl hentry
  · rw [List.mem_singleton.mp hentry]
    exact .inr rfl

/-- The effect of the attempt of an authorization is known to the lookup. -/
def CanSettle (w : Surroundings) (dependencies : ExecutionDependencies)
    (store : MemoryExecutionStore) (authorizationId : Uuid) : Prop :=
  ∃ intent ∈ store.intents, intent.authorizationId = authorizationId ∧
    ∃ effect, Settleable w dependencies intent effect

/-- The Proxy confirms what waits in the outbox and what settling an attempt adds to it. -/
structure AcceptsAll (w : Surroundings) (client : ClavenarClient)
    (dependencies : ExecutionDependencies) (store : MemoryExecutionStore) : Prop where
  pending : ∀ entry ∈ store.pending, Accepts w client entry.receipt
  settled : ∀ intent ∈ store.intents, ∀ effect, Settleable w dependencies intent effect →
    Accepts w client (receiptOf dependencies.signingKey intent.authorization effect)

section

variable {w : Surroundings} {client : ClavenarClient} {dependencies : ExecutionDependencies}

/-- Reconciliations settle all attempts that can be settled. -/
theorem settle_all (hcommit : w.commitFault = none)
    (hdependencies : client.executionDependencies = .ok dependencies)
    (hregistered : dependencies.executor.effectLookup = true)
    (h : c.Reachable MemoryExecutionStore.env Allowed)
    (haccepts : AcceptsAll w client dependencies c.shared) :
    ∃ c', Resumes c c' ∧ AcceptsAll w client dependencies c'.shared ∧ ∀ authorizationId,
      (authorizationId ∈ c'.shared.inFlightAuthorizations ↔
        authorizationId ∈ c.shared.inFlightAuthorizations ∧
          ¬CanSettle w dependencies c.shared authorizationId) ∧
      (authorizationId ∈ c'.shared.completedAuthorizations ↔
        authorizationId ∈ c.shared.completedAuthorizations ∨
          authorizationId ∈ c.shared.inFlightAuthorizations ∧
            CanSettle w dependencies c.shared authorizationId) := by
  classical
  induction hcount : (c.shared.inFlightAuthorizations.filter
      (CanSettle w dependencies c.shared)).card generalizing c with
  | zero =>
    have hnone : ∀ authorizationId ∈ c.shared.inFlightAuthorizations,
        ¬CanSettle w dependencies c.shared authorizationId := by
      rwa [Finset.card_eq_zero, Finset.filter_eq_empty_iff] at hcount
    refine ⟨c, .refl c, haccepts, fun authorizationId => ⟨?_, ?_⟩⟩
    · exact ⟨fun hmem => ⟨hmem, hnone _ hmem⟩, And.left⟩
    · exact ⟨.inl, fun hmem => hmem.elim id fun hsettles =>
        absurd hsettles.2 (hnone _ hsettles.1)⟩
  | succ n ih =>
    obtain ⟨authorizationId, hmem⟩ : (c.shared.inFlightAuthorizations.filter
        (CanSettle w dependencies c.shared)).Nonempty :=
      Finset.card_pos.mp (by rw [hcount]; exact n.succ_pos)
    obtain ⟨hflight, intent, hintent, rfl, effect, hsettle⟩ := Finset.mem_filter.mp hmem
    obtain ⟨c₁, hresumes, hintents, hinFlight, hcompleted, hpending⟩ :=
      settle hcommit hdependencies hregistered h hintent hflight hsettle
    have hcan : CanSettle w dependencies c₁.shared = CanSettle w dependencies c.shared := by
      funext authorizationId
      rw [CanSettle, hintents, CanSettle]
    have haccepts₁ : AcceptsAll w client dependencies c₁.shared := by
      refine ⟨fun entry hentry => ?_, hintents ▸ haccepts.settled⟩
      rcases hpending entry hentry with hentry | hreceipt
      · exact haccepts.pending entry hentry
      · exact hreceipt ▸ haccepts.settled intent hintent effect hsettle
    have hcount₁ : (c₁.shared.inFlightAuthorizations.filter
        (CanSettle w dependencies c₁.shared)).card = n := by
      rw [hcan, hinFlight, Finset.filter_erase, Finset.card_erase_of_mem hmem, hcount]
      rfl
    obtain ⟨c', hresumes', haccepts', hids⟩ := ih (h.later hresumes.1) haccepts₁ hcount₁
    refine ⟨c', hresumes.trans hresumes', haccepts', fun authorizationId => ?_⟩
    obtain ⟨hflight', hcompleted'⟩ := hids authorizationId
    have hsettles : CanSettle w dependencies c.shared intent.authorizationId :=
      ⟨intent, hintent, rfl, effect, hsettle⟩
    rw [hflight', hcompleted', hcan, hinFlight, hcompleted, Finset.mem_erase, Finset.mem_insert]
    by_cases hid : authorizationId = intent.authorizationId
    · subst hid
      simp [hsettles, hflight]
    · simp [hid]

/-- Flushes deliver the whole outbox. -/
theorem drain (hcommit : w.commitFault = none)
    (hdependencies : client.executionDependencies = .ok dependencies)
    (h : c.Reachable MemoryExecutionStore.env Allowed)
    (hpending : ∀ entry ∈ c.shared.pending, Accepts w client entry.receipt) :
    ∃ c', Resumes c c' ∧ KeepsAttempts c.shared c'.shared ∧ c'.shared.pending = [] := by
  have hstore := (executionDependencies_eq_ok_iff.mp hdependencies).2.2.2.1
  induction hlength : c.shared.pending.length using Nat.strong_induction_on generalizing c with
  | _ n ih =>
    by_cases hnil : c.shared.pending = []
    · exact ⟨c, .refl c, .refl _, hnil⟩
    have hconfirmed : ∀ entry ∈ c.shared.pending, AlwaysConfirmed w.handler client entry := by
      intro entry hentry
      obtain ⟨endpoint, hjoin, recorded, hconfirm⟩ := hpending entry hentry
      exact ⟨pending_valid h entry hentry, endpoint, hjoin, fun _ => ⟨recorded, hconfirm⟩⟩
    obtain ⟨c₁, hresumes, hshared⟩ :=
      Resumes.run hcommit c (flush_not_attempts client maxOutboxFlush)
    rw [ApiCall.run, Prog.eval_bind_pure] at hshared
    change c₁.shared = (Prog.eval w.handler c.shared _).1 at hshared
    obtain ⟨front, hdelivers, hends⟩ := w.servesOutbox.flush_front
      (show 0 < maxOutboxFlush ∧ maxOutboxFlush ≤ maxOutboxFlush by decide) hstore c.shared
    simp only [id, ← hshared] at hdelivers hends
    have hall : front.length = min maxOutboxFlush c.shared.pending.length := by
      rcases hends with ⟨-, hall⟩ | ⟨-, -, entry, hentry, hunconfirmed⟩
      · exact hall
      · exact absurd (hconfirmed entry hentry) hunconfirmed
    have hkeeps := KeepsAttempts.of_front hdelivers
    have hshorter : c₁.shared.pending.length < n := by
      have hmax : 0 < maxOutboxFlush := by decide
      have hsome := List.length_pos_of_ne_nil hnil
      rw [hdelivers.length_pending]
      omega
    obtain ⟨c', hresumes', hkeeps', hempty⟩ := ih _ hshorter (h.later hresumes.1)
      (fun entry hentry => hpending entry (hkeeps.pending hentry)) rfl
    exact ⟨c', hresumes.trans hresumes', hkeeps.trans hkeeps', hempty⟩

end

end

namespace Fixture

attribute [local instance] crates

/-- The Proxy of the test accepts the receipt of the call. -/
theorem accepts_receipt : Accepts recovery.found (client ()) (receiptOf () authorization effect) :=
  ⟨_, rfl, _, confirmReceipt_recorded⟩

/-- Nothing waits in the outbox while the executor of the test is at work, and its effect is the
only one that can be found. -/
theorem acceptsAll_executing :
    AcceptsAll recovery.found (client ()) (dependencies ()) executing.shared where
  pending := by
    intro entry hentry
    exact absurd hentry List.not_mem_nil
  settled := by
    intro intent hintent effect' hsettle
    obtain rfl : intent = intentOf executor.id authorization := List.mem_singleton.mp hintent
    obtain rfl : effect = effect' := EffectLookupOutcome.found.inj (Except.ok.inj hsettle.found)
    exact accepts_receipt

end Fixture

end ClavenarSdk
