import ClavenarSdk.Execution.Calls
import ClavenarSdk.Interaction.System
import Mathlib.Data.Finset.Erase
import Mathlib.Data.Finset.Insert

/-!
# The in-memory store of the integration tests

`MemoryExecutionStore` of `tests/integration.rs`, operation by operation, and the
environment in which any number of calls share one such store while every other answer is
arbitrary.
-/

namespace ClavenarSdk

open Interaction

/-- `MemoryExecutionState` together with the flag `fail_intent`. -/
structure MemoryExecutionStore where
  intents : List ExecutionIntent
  completions : List ExecutionCompletion
  pending : List ReceiptOutboxEntry
  delivered : List (String × ReceiptRecorded)
  ordering : List String
  claimedAuthorizations : Finset Uuid
  inFlightAuthorizations : Finset Uuid
  completedAuthorizations : Finset Uuid
  failIntent : Bool
  deriving DecidableEq

/-- The operation goes to the Proxy, the executor or the effect lookup. -/
def Op.outside : Op → Bool
  | .postDecision _ | .postReceipt _ | .execute _ | .lookupEffect _ => true
  | _ => false

namespace MemoryExecutionStore

/-- `MemoryExecutionStore::default`. -/
def initial : MemoryExecutionStore := ⟨[], [], [], [], [], ∅, ∅, ∅, false⟩

/-- The first stored intent of an authorization. -/
def intentFor (store : MemoryExecutionStore) (authorizationId : Uuid) : Option ExecutionIntent :=
  store.intents.find? fun intent => intent.authorizationId = authorizationId

/-- The state after an attempt was started. -/
def start (store : MemoryExecutionStore) (intent : ExecutionIntent)
    (authorizationUse : EffectAuthorizationUse) : MemoryExecutionStore :=
  { store with
    claimedAuthorizations :=
      if authorizationUse = .singleUse then
        insert intent.authorizationId store.claimedAuthorizations
      else store.claimedAuthorizations
    ordering := store.ordering ++ ["intent", "in_flight"]
    intents := store.intents ++ [intent]
    inFlightAuthorizations := insert intent.authorizationId store.inFlightAuthorizations }

/-- `begin_effect_attempt`. -/
def beginEffectAttempt (store : MemoryExecutionStore) (intent : ExecutionIntent)
    (authorizationUse : EffectAuthorizationUse) :
    Except ClavenarError EffectAttemptClaim × MemoryExecutionStore :=
  if store.failIntent then
    (.error (.invalidConfig "durable intent store unavailable"), store)
  else if (store.intentFor intent.authorizationId).any (fun existing => existing ≠ intent) then
    (.error (.invalidConfig "authorization intent substitution rejected"), store)
  else if intent.authorizationId ∈ store.completedAuthorizations then
    (.ok .alreadyCompleted, store)
  else if intent.authorizationId ∈ store.inFlightAuthorizations then
    (.ok .alreadyInFlight, store)
  else if authorizationUse = .singleUse ∧ intent.authorizationId ∈ store.claimedAuthorizations then
    (.ok .alreadyInFlight, store)
  else (.ok .started, store.start intent authorizationUse)

/-- What beginning an attempt can do: start it for an authorization that is neither in
flight nor completed and has no other intent, or leave the store alone. -/
theorem beginEffectAttempt_cases (store : MemoryExecutionStore) (intent : ExecutionIntent)
    (authorizationUse : EffectAuthorizationUse) :
    (store.beginEffectAttempt intent authorizationUse =
        (.ok .started, store.start intent authorizationUse) ∧
      intent.authorizationId ∉ store.inFlightAuthorizations ∧
      intent.authorizationId ∉ store.completedAuthorizations ∧
      ∀ existing ∈ store.intentFor intent.authorizationId, existing = intent) ∨
    ∃ answer, store.beginEffectAttempt intent authorizationUse = (answer, store) ∧
      answer ≠ .ok .started := by
  unfold beginEffectAttempt
  split_ifs with hfail hother hcompleted hflight hclaimed
  all_goals first
    | exact .inr ⟨_, rfl, by simp⟩
    | refine .inl ⟨rfl, hflight, hcompleted, fun existing hexisting => ?_⟩
  rw [Option.mem_def.mp hexisting] at hother
  by_contra hne
  exact hother (by simpa using hne)

/-- `load_uncertain_intent`. -/
def loadUncertainIntent (store : MemoryExecutionStore) (authorizationId : Uuid) :
    Option ExecutionIntent :=
  if authorizationId ∉ store.inFlightAuthorizations then none else store.intentFor authorizationId

/-- The outbox entry of a completion. -/
def outboxEntry (completion : ExecutionCompletion) : ReceiptOutboxEntry :=
  ⟨"receipt-" ++ completion.authorizationId.toText, completion.receipt⟩

/-- `commit_effect_and_enqueue_receipt`. -/
def commitEffectAndEnqueueReceipt (store : MemoryExecutionStore)
    (completion : ExecutionCompletion) : MemoryExecutionStore :=
  { store with
    ordering := store.ordering ++ ["completion"]
    inFlightAuthorizations := store.inFlightAuthorizations.erase completion.authorizationId
    completedAuthorizations := insert completion.authorizationId store.completedAuthorizations
    completions := store.completions ++ [completion]
    pending := store.pending ++ [outboxEntry completion] }

/-- The state after the entry at an index was delivered. -/
def deliver (store : MemoryExecutionStore) (index : ℕ) (outboxId : String)
    (recorded : ReceiptRecorded) : MemoryExecutionStore :=
  { store with
    pending := store.pending.eraseIdx index
    ordering := store.ordering ++ ["delivered"]
    delivered := store.delivered ++ [(outboxId, recorded)] }

/-- `mark_receipt_delivered`. -/
def markReceiptDelivered (store : MemoryExecutionStore) (outboxId : String)
    (recorded : ReceiptRecorded) : Except ClavenarError Unit × MemoryExecutionStore :=
  match store.pending.findIdx? fun entry => entry.outboxId = outboxId with
  | none => (.error (.invalidConfig "receipt outbox entry is not pending"), store)
  | some index => (.ok (), store.deliver index outboxId recorded)

/-- How the store answers an operation, with its state afterwards. The Proxy, the executor
and the effect lookup answer as they please and leave the store alone. -/
def Answers (store : MemoryExecutionStore) :
    (op : Op) → Answer op → MemoryExecutionStore → Prop
  | .beginEffectAttempt intent authorizationUse, answer, store' =>
    (answer, store') = store.beginEffectAttempt intent authorizationUse
  | .loadUncertainIntent authorizationId, answer, store' =>
    answer = .ok (store.loadUncertainIntent authorizationId) ∧ store' = store
  | .commitEffectAndEnqueueReceipt completion, answer, store' =>
    answer = .ok (outboxEntry completion) ∧
      store' = store.commitEffectAndEnqueueReceipt completion
  | .pendingReceipts limit, answer, store' =>
    answer = .ok (store.pending.take limit) ∧ store' = store
  | .markReceiptDelivered outboxId recorded, answer, store' =>
    (answer, store') = store.markReceiptDelivered outboxId recorded
  | .postDecision _, _, store' | .postReceipt _, _, store' | .execute _, _, store'
  | .lookupEffect _, _, store' => store' = store

/-- The ways in which one answered operation can change the store. -/
inductive Change (store : MemoryExecutionStore) : Event Answer → MemoryExecutionStore → Prop where
  | started {intent : ExecutionIntent} {authorizationUse : EffectAuthorizationUse}
      (hflight : intent.authorizationId ∉ store.inFlightAuthorizations)
      (hcompleted : intent.authorizationId ∉ store.completedAuthorizations)
      (hintent : ∀ existing ∈ store.intentFor intent.authorizationId, existing = intent) :
      Change store ⟨.beginEffectAttempt intent authorizationUse, .ok .started⟩
        (store.start intent authorizationUse)
  | notStarted {intent : ExecutionIntent} {authorizationUse : EffectAuthorizationUse}
      {answer : Except ClavenarError EffectAttemptClaim} (h : answer ≠ .ok .started) :
      Change store ⟨.beginEffectAttempt intent authorizationUse, answer⟩ store
  | loaded {authorizationId : Uuid} :
      Change store ⟨.loadUncertainIntent authorizationId,
        .ok (store.loadUncertainIntent authorizationId)⟩ store
  | committed {completion : ExecutionCompletion} :
      Change store ⟨.commitEffectAndEnqueueReceipt completion, .ok (outboxEntry completion)⟩
        (store.commitEffectAndEnqueueReceipt completion)
  | listed {limit : ℕ} :
      Change store ⟨.pendingReceipts limit, .ok (store.pending.take limit)⟩ store
  | delivered {outboxId : String} {recorded : ReceiptRecorded} {index : ℕ}
      {entry : ReceiptOutboxEntry} (hentry : store.pending[index]? = some entry)
      (hid : entry.outboxId = outboxId) :
      Change store ⟨.markReceiptDelivered outboxId recorded, .ok ()⟩
        (store.deliver index outboxId recorded)
  | notPending {outboxId : String} {recorded : ReceiptRecorded} {error : ClavenarError} :
      Change store ⟨.markReceiptDelivered outboxId recorded, .error error⟩ store
  | outside {event : Event Answer} (h : event.1.outside = true) : Change store event store

/-- Every answer of the store is one of these changes. -/
theorem Answers.change {store store' : MemoryExecutionStore} (event : Event Answer)
    (h : store.Answers event.1 event.2 store') : store.Change event store' := by
  match event, h with
  | ⟨.beginEffectAttempt intent authorizationUse, answer⟩, h =>
    obtain ⟨hbegin, hflight, hcompleted, hintent⟩ | ⟨answer', hbegin, hanswer⟩ :=
      store.beginEffectAttempt_cases intent authorizationUse
    · obtain ⟨rfl, rfl⟩ := Prod.mk.inj (h.trans hbegin)
      exact .started hflight hcompleted hintent
    · obtain ⟨rfl, rfl⟩ := Prod.mk.inj (h.trans hbegin)
      exact .notStarted hanswer
  | ⟨.loadUncertainIntent _, _⟩, h =>
    obtain ⟨rfl, rfl⟩ := h
    exact .loaded
  | ⟨.commitEffectAndEnqueueReceipt _, _⟩, h =>
    obtain ⟨rfl, rfl⟩ := h
    exact .committed
  | ⟨.pendingReceipts _, _⟩, h =>
    obtain ⟨rfl, rfl⟩ := h
    exact .listed
  | ⟨.markReceiptDelivered outboxId recorded, answer⟩, h =>
    simp only [Answers, markReceiptDelivered] at h
    cases hindex : store.pending.findIdx? fun entry => entry.outboxId = outboxId with
    | none =>
      rw [hindex] at h
      obtain ⟨rfl, rfl⟩ := Prod.mk.inj h
      exact .notPending
    | some index =>
      rw [hindex] at h
      obtain ⟨rfl, rfl⟩ := Prod.mk.inj h
      obtain ⟨hlt, hid, -⟩ := List.findIdx?_eq_some_iff_getElem.mp hindex
      exact .delivered (List.getElem?_eq_getElem hlt) (by simpa using hid)
  | ⟨.postDecision _, _⟩, h | ⟨.postReceipt _, _⟩, h | ⟨.execute _, _⟩, h
  | ⟨.lookupEffect _, _⟩, h =>
    obtain rfl : store' = store := h
    exact .outside rfl

/-- What the tests change directly: they make new intents fail, and they record when the
effect happens. -/
inductive Drift (store : MemoryExecutionStore) : MemoryExecutionStore → Prop where
  | failIntent : Drift store { store with failIntent := true }
  | recordEffectOrder : Drift store { store with ordering := store.ordering ++ ["effect"] }

/-- Any number of calls over one store that starts out empty. -/
def env : Env MemoryExecutionStore Answer where
  init store := store = initial
  answers := Answers
  drift := Drift

end MemoryExecutionStore

end ClavenarSdk
