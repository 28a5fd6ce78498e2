import ClavenarSdk.Execution.Evidence
import ClavenarSdk.Execution.Outbox
import ClavenarSdk.Interaction.Cells

/-!
# Where evidence comes from

Every receipt that reaches the Proxy, sent by the call that executed the tool, by a reconciliation
or by a flush of another process, is traced back through the store: to the call that signed it, to
the answer that reported its effect, and to the response that authorized it.
-/

namespace ClavenarSdk

open Interaction ClavenarClient MemoryExecutionStore

/-! ### Records -/

/-- The records of the store and the log agree: an intent was started, a completion was committed,
and an entry of the outbox is the one of a completion. -/
structure Archived (store : MemoryExecutionStore) (log : List (Event Answer)) : Prop where
  started : ∀ intent ∈ store.intents, ∃ authorizationUse,
    ⟨.beginEffectAttempt intent authorizationUse, .ok .started⟩ ∈ log
  completed : ∀ completion ∈ store.completions, ∃ answer,
    ⟨.commitEffectAndEnqueueReceipt completion, answer⟩ ∈ log
  committed : ∀ completion answer, ⟨.commitEffectAndEnqueueReceipt completion, answer⟩ ∈ log →
    completion ∈ store.completions
  pending : ∀ entry ∈ store.pending, ∃ completion ∈ store.completions,
    entry = outboxEntry completion
  listed : ∀ entry, Listed log entry → ∃ completion ∈ store.completions,
    entry = outboxEntry completion

/-- An answer that neither commits nor lists anything, and leaves the records as they are. -/
theorem Archived.append {store store' : MemoryExecutionStore} {log : List (Event Answer)}
    (h : Archived store log) {event : Event Answer} (hintents : store'.intents = store.intents)
    (hcompletions : store'.completions = store.completions)
    (hpending : store'.pending ⊆ store.pending)
    (hcommit : ∀ completion, event.1 ≠ .commitEffectAndEnqueueReceipt completion)
    (hlist : ∀ limit, event.1 ≠ .pendingReceipts limit) : Archived store' (log ++ [event]) where
  started intent hintent := by
    obtain ⟨authorizationUse, hmem⟩ := h.started intent (hintents ▸ hintent)
    exact ⟨authorizationUse, List.mem_append_left _ hmem⟩
  completed completion hcompletion := by
    obtain ⟨answer, hmem⟩ := h.completed completion (hcompletions ▸ hcompletion)
    exact ⟨answer, List.mem_append_left _ hmem⟩
  committed completion answer hmem := by
    rcases List.mem_append.mp hmem with hmem | hmem
    · exact hcompletions ▸ h.committed completion answer hmem
    · obtain rfl := List.mem_singleton.mp hmem
      exact absurd rfl (hcommit completion)
  pending entry hentry := by
    rw [hcompletions]
    exact h.pending entry (hpending hentry)
  listed := by
    rintro entry ⟨limit, entries, hmem, hentry⟩
    rw [hcompletions]
    rcases List.mem_append.mp hmem with hmem | hmem
    · exact h.listed entry ⟨limit, entries, hmem, hentry⟩
    · obtain rfl := List.mem_singleton.mp hmem
      exact absurd rfl (hlist limit)

/-- Each answer of the store keeps the archive. -/
theorem archived_answer (store store' : MemoryExecutionStore) (log : List (Event Answer))
    (event : Event Answer) (hanswers : store.Answers event.1 event.2 store')
    (h : Archived store log) : Archived store' (log ++ [event]) := by
  cases Answers.change event hanswers with
  | @started intent authorizationUse =>
    refine ⟨fun intent' hintent' => ?_, ?_, ?_, h.pending, ?_⟩
    · rcases List.mem_append.mp hintent' with hintent' | hintent'
      · obtain ⟨authorizationUse', hmem⟩ := h.started intent' hintent'
        exact ⟨authorizationUse', List.mem_append_left _ hmem⟩
      · obtain rfl := List.mem_singleton.mp hintent'
        exact ⟨authorizationUse, List.mem_concat_self⟩
    · intro completion hcompletion
      obtain ⟨answer, hmem⟩ := h.completed completion hcompletion
      exact ⟨answer, List.mem_append_left _ hmem⟩
    · intro completion answer hmem
      exact h.committed completion answer (by simpa using hmem)
    · rintro entry ⟨limit, entries, hmem, hentry⟩
      exact h.listed entry ⟨limit, entries, by simpa using hmem, hentry⟩
  | @committed completion =>
    refine ⟨?_, ?_, ?_, ?_, ?_⟩
    · intro intent hintent
      obtain ⟨authorizationUse, hmem⟩ := h.started intent hintent
      exact ⟨authorizationUse, List.mem_append_left _ hmem⟩
    · intro completion' hcompletion'
      rcases List.mem_append.mp hcompletion' with hcompletion' | hcompletion'
      · obtain ⟨answer, hmem⟩ := h.completed completion' hcompletion'
        exact ⟨answer, List.mem_append_left _ hmem⟩
      · obtain rfl := List.mem_singleton.mp hcompletion'
        exact ⟨_, List.mem_concat_self⟩
    · intro completion' answer hmem
      rcases List.mem_append.mp hmem with hmem | hmem
      · exact List.mem_append_left _ (h.committed completion' answer hmem)
      · obtain ⟨rfl, -⟩ : completion' = completion ∧ _ := by simpa using hmem
        exact List.mem_concat_self
    · intro entry hentry
      rcases List.mem_append.mp hentry with hentry | hentry
      · obtain ⟨completion', hcompletion', rfl⟩ := h.pending entry hentry
        exact ⟨completion', List.mem_append_left _ hcompletion', rfl⟩
      · obtain rfl := List.mem_singleton.mp hentry
        exact ⟨completion, List.mem_concat_self, rfl⟩
    · rintro entry ⟨limit, entries, hmem, hentry⟩
      obtain ⟨completion', hcompletion', rfl⟩ :=
        h.listed entry ⟨limit, entries, by simpa using hmem, hentry⟩
      exact ⟨completion', List.mem_append_left _ hcompletion', rfl⟩
  | @listed limit =>
    refine ⟨?_, ?_, ?_, h.pending, ?_⟩
    · intro intent hintent
      obtain ⟨authorizationUse, hmem⟩ := h.started intent hintent
      exact ⟨authorizationUse, List.mem_append_left _ hmem⟩
    · intro completion hcompletion
      obtain ⟨answer, hmem⟩ := h.completed completion hcompletion
      exact ⟨answer, List.mem_append_left _ hmem⟩
    · intro completion answer hmem
      exact h.committed completion answer (by simpa using hmem)
    · rintro entry ⟨limit', entries, hmem, hentry⟩
      rcases List.mem_append.mp hmem with hmem | hmem
      · exact h.listed entry ⟨limit', entries, hmem, hentry⟩
      · obtain ⟨rfl, heq⟩ : limit' = limit ∧ entries = store.pending.take limit := by
          simpa using hmem
        exact h.pending entry (List.mem_of_mem_take (heq ▸ hentry))
  | @delivered outboxId recorded index =>
    exact h.append rfl rfl (List.eraseIdx_subset) (by simp) (by simp)
  | notStarted | loaded | notPending =>
    exact h.append rfl rfl (List.Subset.refl _) (by simp) (by simp)
  | outside houtside =>
    refine h.append rfl rfl (List.Subset.refl _) ?_ ?_
    · intro completion heq
      rw [heq] at houtside
      cases houtside
    · intro limit heq
      rw [heq] at houtside
      cases houtside

/-! ### Calls -/

section

variable [Crates]

/-- Every operation of a call that is not a flush is justified by the history of the call. -/
theorem apiCall_justified (client : ClavenarClient) {call : ApiCall}
    (hcall : ∀ limit, call ≠ .flushExecutionReceiptOutbox limit) :
    Prog.Always (Justified client call) (fun _ _ => True) [] (call.run client) := by
  cases call with
  | governed call => exact (governed_ordered client call).mono (fun _ _ => id) fun _ _ _ => trivial
  | reconcileUncertainEffect uncertain =>
    simp only [ApiCall.run, Prog.always_bind]
    refine (reconcileUncertainEffect_ordered client uncertain).mono (fun _ _ => id) ?_
    intro history result _
    cases result <;> exact trivial
  | flushExecutionReceiptOutbox limit => exact absurd rfl (hcall limit)

/-- What a call has invoked was justified by some of its answers. -/
theorem justified_of_invoked {c : Sys MemoryExecutionStore Op Answer ClavenarError ApiResult}
    (h : c.Reachable MemoryExecutionStore.env Allowed)
    {t : Task Op Answer ClavenarError ApiResult} (ht : t ∈ c.tasks) {op : Op}
    (hop : op ∈ t.invoked) :
    ∃ (client : ClavenarClient) (call : ApiCall) (history : List (Event Answer)),
      t.start = call.run client ∧ history ⊆ t.history ∧
        (Justified client call history op ∨ Flushing history op) := by
  obtain ⟨⟨client, call, hstart⟩, hconsistent⟩ := h.consistent t ht
  obtain ⟨history, hprefix, hinvokes⟩ := hconsistent.invokes hop
  rw [hstart] at hinvokes
  refine ⟨client, call, history, hstart, hprefix.subset, ?_⟩
  by_cases hflush : ∃ limit, call = .flushExecutionReceiptOutbox limit
  · obtain ⟨limit, rfl⟩ := hflush
    exact .inr ((flush_flushing client limit).of_invokes hinvokes)
  · rw [not_exists] at hflush
    exact .inl ((apiCall_justified client hflush).of_invokes hinvokes)

/-- The archive holds in every reachable state. -/
theorem archived {c : Sys MemoryExecutionStore Op Answer ClavenarError ApiResult}
    (h : c.Reachable MemoryExecutionStore.env Allowed) : Archived c.shared c.log := by
  refine h.invariant ?_ archived_answer ?_
  · rintro store rfl
    exact ⟨by simp [initial], by simp [initial], by simp, by simp [initial], by simp [Listed]⟩
  · intro store store' log hdrift harchived
    cases hdrift <;> exact ⟨harchived.started, harchived.completed, harchived.committed,
      harchived.pending, harchived.listed⟩

/-! ### Receipts -/

/-- A reported effect stays in the history. -/
theorem EffectReported.mono {history history' : List (Event Answer)} {executorId : String}
    {call : ApiCall} {authorization : SignedAuthorization} {effect : ExecutionEffect}
    (h : EffectReported history executorId call authorization effect) (hsub : history ⊆ history') :
    EffectReported history' executorId call authorization effect := by
  cases h with
  | executed hexecuted => exact .executed (hsub hexecuted)
  | found hload hbinds hlookup => exact .found (hsub hload) hbinds (hsub hlookup)

/-- The completion was signed by the client of one call, for a bounded effect that was reported to
this call by the executor or the lookup, and for an authorization that a governed call had
validated in the response of the Proxy. -/
def Authentic (tasks : List (Task Op Answer ClavenarError ApiResult))
    (completion : ExecutionCompletion) : Prop :=
  ∃ t ∈ tasks, ∃ (client : ClavenarClient) (call : ApiCall) (executor : RegisteredToolExecutor)
    (signingKey : SigningKey) (authorization : SignedAuthorization) (effect : ExecutionEffect)
    (text : String), t.start = call.run client ∧ client.toolExecutor = some executor ∧
    client.executionSigningKey = some signingKey ∧
    (effect.effectId ≠ "" ∧ effect.effectId.utf8ByteSize ≤ 256) ∧
    EffectReported t.history executor.id call authorization effect ∧
    canonicalJson (unsignedReceipt authorization effect) = .ok text ∧
    completion = completionOf executor.id authorization effect
      (signedReceipt signingKey authorization effect text) ∧
    ∃ t' ∈ tasks, ∃ (client' : ClavenarClient) (governed : GovernedCall),
      t'.start = (ApiCall.governed governed).run client' ∧
      governed.Validated t'.history authorization

variable {c : Sys MemoryExecutionStore Op Answer ClavenarError ApiResult}

/-- A stored intent was made of an authorization that a governed call had validated. -/
theorem validated_of_mem_intents (h : c.Reachable MemoryExecutionStore.env Allowed)
    {intent : ExecutionIntent} (hintent : intent ∈ c.shared.intents) :
    ∃ t ∈ c.tasks, ∃ (client : ClavenarClient) (governed : GovernedCall),
      t.start = (ApiCall.governed governed).run client ∧
      governed.Validated t.history intent.authorization := by
  obtain ⟨authorizationUse, hmem⟩ := (archived h).started intent hintent
  obtain ⟨t, ht, hop⟩ := h.log_invoked _ hmem
  obtain ⟨client, call, history, hstart, hsub, hjustified | hflushing⟩ :=
    justified_of_invoked h ht hop
  · obtain ⟨governed, executor, authorization, rfl, -, hvalidated, rfl⟩ := hjustified
    exact ⟨t, ht, client, governed, hstart, hvalidated.mono hsub⟩
  · cases hflushing

/-- A stored completion was signed by a call whose executor reported the effect, for an
authorization that a governed call had validated. -/
theorem authentic_of_mem_completions (h : c.Reachable MemoryExecutionStore.env Allowed)
    {completion : ExecutionCompletion} (hcompletion : completion ∈ c.shared.completions) :
    Authentic c.tasks completion := by
  obtain ⟨answer, hmem⟩ := (archived h).completed completion hcompletion
  obtain ⟨t, ht, hop⟩ := h.log_invoked _ hmem
  obtain ⟨client, call, history, hstart, hsub, hjustified | hflushing⟩ :=
    justified_of_invoked h ht hop
  · obtain ⟨executor, signingKey, authorization, effect, text, hexecutor, hkey, hbounded,
      hreported, htext, rfl⟩ := hjustified
    obtain ⟨intent, hintent, hlinked⟩ := (evident_of_reachable h).1.linked _ hcompletion
    have hauthorization : authorization = intent.authorization := hlinked.authorization
    obtain ⟨t', ht', client', governed, hstart', hvalidated⟩ := validated_of_mem_intents h hintent
    rw [← hauthorization] at hvalidated
    exact ⟨t, ht, client, call, executor, signingKey, authorization, effect, text, hstart,
      hexecutor, hkey, hbounded, hreported.mono hsub, htext, rfl, t', ht', client', governed,
      hstart', hvalidated⟩
  · cases hflushing

/-- A receipt that was sent belongs to a stored completion. -/
theorem completion_of_postReceipt (h : c.Reachable MemoryExecutionStore.env Allowed)
    {t : Task Op Answer ClavenarError ApiResult} (ht : t ∈ c.tasks) {request : PostRequest}
    (hop : .postReceipt request ∈ t.invoked) :
    ∃ completion ∈ c.shared.completions, request.json = toJson completion.receipt := by
  obtain ⟨client, call, history, -, hsub, hjustified | hflushing⟩ := justified_of_invoked h ht hop
  · obtain ⟨completion, entry, ⟨hcommitted, -⟩, hjson⟩ := hjustified
    have hmem := h.history_subset t ht (hsub hcommitted)
    exact ⟨completion, (archived h).committed completion _ hmem, hjson⟩
  · obtain ⟨entry, hlisted, hjson⟩ := hflushing
    obtain ⟨completion, hcompletion, rfl⟩ :=
      (archived h).listed entry ((hlisted.mono hsub).mono (h.history_subset t ht))
    exact ⟨completion, hcompletion, hjson⟩

/-- No receipt is made up. In every run of any number of calls on any clients, dropped ones
included, every receipt that was sent is the receipt of a stored completion, whoever sent it, and
every stored completion was signed by a client for an effect that the executor or the lookup had
reported to the same call, under an authorization that the Proxy had returned to a governed call
and that this call had validated. -/
theorem receipts_authentic (h : c.Reachable MemoryExecutionStore.env Allowed) :
    (∀ t ∈ c.tasks, ∀ request, .postReceipt request ∈ t.invoked →
      ∃ completion ∈ c.shared.completions, request.json = toJson completion.receipt) ∧
    ∀ completion ∈ c.shared.completions, Authentic c.tasks completion :=
  ⟨fun _ ht _ hop => completion_of_postReceipt h ht hop, fun _ => authentic_of_mem_completions h⟩

end

namespace Fixture

attribute [local instance] crates

/-- In the run of the test. -/
theorem receipts_authentic_finished :
    (∀ t ∈ finished.tasks, ∀ request, .postReceipt request ∈ t.invoked →
      ∃ completion ∈ finished.shared.completions, request.json = toJson completion.receipt) ∧
    ∀ completion ∈ finished.shared.completions, Authentic finished.tasks completion :=
  receipts_authentic finished_reachable

end Fixture

end ClavenarSdk
