import ClavenarSdk.Execution.MemoryStore
import ClavenarSdk.Interaction.Handler

/-!
# One call at a time

What surrounds a call that runs alone: the Proxy, the executor and the effect lookup answer
each request in one way, and the store is the in-memory one, whose commits may fail without
an effect.
-/

namespace ClavenarSdk

open Interaction ClavenarClient MemoryExecutionStore

/-- The answers of everything but the store, and whether commits fail. -/
structure Surroundings where
  decision : PostRequest → Except String Response
  receipt : PostRequest → Except String Response
  executor : ToolExecutionRequest → Except ClavenarError ExecutionEffect
  effectLookup : EffectLookupRequest → Except ClavenarError EffectLookupOutcome
  commitFault : Option ClavenarError

namespace Surroundings

/-- The answer to each operation, and the store afterwards. -/
def handler (w : Surroundings) : Handler MemoryExecutionStore Answer
  | store, .postDecision request => (w.decision request, store)
  | store, .postReceipt request => (w.receipt request, store)
  | store, .execute request => (w.executor request, store)
  | store, .lookupEffect request => (w.effectLookup request, store)
  | store, .beginEffectAttempt intent authorizationUse =>
    store.beginEffectAttempt intent authorizationUse
  | store, .loadUncertainIntent authorizationId =>
    (.ok (store.loadUncertainIntent authorizationId), store)
  | store, .commitEffectAndEnqueueReceipt completion =>
    match w.commitFault with
    | some error => (.error error, store)
    | none => (.ok (MemoryExecutionStore.outboxEntry completion),
        store.commitEffectAndEnqueueReceipt completion)
  | store, .pendingReceipts limit => (.ok (store.pending.take limit), store)
  | store, .markReceiptDelivered outboxId recorded => store.markReceiptDelivered outboxId recorded

/-- Without faults these are answers of the in-memory store. -/
theorem handler_answers {w : Surroundings} (h : w.commitFault = none)
    (store : MemoryExecutionStore) (op : Op) :
    MemoryExecutionStore.env.answers store op (w.handler store op).1 (w.handler store op).2 := by
  cases op with
  | commitEffectAndEnqueueReceipt completion => simp [handler, h, MemoryExecutionStore.env,
      MemoryExecutionStore.Answers]
  | beginEffectAttempt | loadUncertainIntent | pendingReceipts | markReceiptDelivered =>
    simp [handler, MemoryExecutionStore.env, MemoryExecutionStore.Answers]
  | postDecision | postReceipt | execute | lookupEffect => rfl

/-- Delivering receipts leaves the recorded intents and completions alone. -/
theorem eval_delivers {w : Surroundings} {ε α : Type} {p : Prog Op Answer ε α}
    {history : List (Event Answer)}
    (hp : p.Always (fun _ op => delivers op = true) (fun _ _ => True) history)
    (store : MemoryExecutionStore) :
    (p.eval w.handler store).1.completions = store.completions := by
  refine Prog.eval_invariant
    (I := fun s : MemoryExecutionStore => s.completions = store.completions) ?_ hp rfl
  intro s op hop hs
  cases op with
  | markReceiptDelivered outboxId recorded =>
    simp only [handler, MemoryExecutionStore.markReceiptDelivered]
    cases s.pending.findIdx? fun entry => entry.outboxId = outboxId <;> exact hs
  | postReceipt => exact hs
  | _ => simp [delivers] at hop

variable [Crates]

/-- Completing an effect commits one completion and delivers its outbox entry. -/
theorem eval_completeKnownEffect {w : Surroundings} (h : w.commitFault = none)
    (client : ClavenarClient) (signingKey : SigningKey) (authorization : SignedAuthorization)
    (effect : ExecutionEffect) (executorId : String) (store : MemoryExecutionStore) :
    let completion := completionOf executorId authorization effect
      (receiptOf signingKey authorization effect)
    let delivery := (client.deliverOutboxEntry (outboxEntry completion)).eval w.handler
      (store.commitEffectAndEnqueueReceipt completion)
    (client.completeKnownEffect signingKey authorization effect executorId).eval w.handler store =
      (delivery.1, (fun recorded => ⟨recorded, effect.result, effect.effectId⟩) <$>
        delivery.2.mapError .receiptDelivery) := by
  simp only [completeKnownEffect, canonicalJson, Prog.eval_await, handler, h]
  have hreceipt : ∀ receipt, (outboxEntry
      (completionOf executorId authorization effect receipt)).receipt = receipt := fun _ => rfl
  simp only [hreceipt, ne_eq, not_true, if_false, Prog.eval_bind_pure, Prog.eval_mapError]
  rfl

end Surroundings

end ClavenarSdk
