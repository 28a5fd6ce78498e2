import ClavenarSdk.Execution.Ordering

/-!
# The receipt outbox

Any number of flushes over one store, however they interleave and wherever they are cut off. The
store of any past is the starting point; its entries leave the outbox one by one, each after the
Proxy confirmed its receipt.
-/

namespace ClavenarSdk

open Interaction ClavenarClient MemoryExecutionStore

/-! ### Listed and moved entries -/

/-- The store listed this entry. -/
def Listed (history : List (Event Answer)) (entry : ReceiptOutboxEntry) : Prop :=
  ∃ limit entries, (⟨.pendingReceipts limit, .ok entries⟩ : Event Answer) ∈ history ∧
    entry ∈ entries

/-- The outbox id and the confirmation of a mark that the store accepted. -/
def marked : Event Answer → Option (String × ReceiptRecorded)
  | ⟨.markReceiptDelivered outboxId recorded, .ok _⟩ => some (outboxId, recorded)
  | _ => none

/-- A post marks nothing. -/
@[simp] theorem marked_postReceipt {request : PostRequest} {answer : Except String Response} :
    marked ⟨.postReceipt request, answer⟩ = none := rfl

/-- Nor does listing the entries. -/
@[simp] theorem marked_pendingReceipts {limit : ℕ}
    {answer : Except ClavenarError (List ReceiptOutboxEntry)} :
    marked ⟨.pendingReceipts limit, answer⟩ = none := rfl

/-- An accepted mark marks its entry. -/
@[simp] theorem marked_accepted {outboxId : String} {recorded : ReceiptRecorded} {u : Unit} :
    marked ⟨.markReceiptDelivered outboxId recorded, .ok u⟩ = some (outboxId, recorded) := rfl

/-- A refused mark does not. -/
@[simp] theorem marked_refused {outboxId : String} {recorded : ReceiptRecorded}
    {error : ClavenarError} :
    marked ⟨.markReceiptDelivered outboxId recorded, .error error⟩ = none := rfl

/-- The entries that were moved out of the outbox, in order. -/
def moved (log : List (Event Answer)) : List (String × ReceiptRecorded) := log.filterMap marked

/-- An entry that was listed stays so. -/
theorem Listed.mono {history history' : List (Event Answer)} {entry : ReceiptOutboxEntry}
    (h : Listed history entry) (hsub : history ⊆ history') : Listed history' entry := by
  obtain ⟨limit, entries, hmem, hentry⟩ := h
  exact ⟨limit, entries, hsub hmem, hentry⟩

/-- There are as many moved entries as accepted marks. -/
theorem length_moved (log : List (Event Answer)) :
    (moved log).length = log.countP fun event => (marked event).isSome :=
  List.length_filterMap_eq_countP

/-! ### One delivery -/

section

variable [Crates]

/-- What `deliver_outbox_entry` makes of the Proxy's answer to a receipt. -/
def confirmReceipt (receipt : ExecutionReceipt) (answer : Except String Response) :
    Except ClavenarError ReceiptRecorded := do
  let response ← answer.mapError .transport
  let recorded ← decodeReceiptRecorded response
  if recorded.authorizationId ≠ receipt.authorizationId ∨
      recorded.contract ≠ executionContract ∨ recorded.stage ≠ "execution.completed" then
    .error (.invalidConfig "Proxy returned invalid receipt persistence metadata")
  else return recorded

/-- The request with which a client sends a receipt. -/
def receiptRequest (client : ClavenarClient) (endpoint : String) (receipt : ExecutionReceipt) :
    PostRequest :=
  ⟨endpoint, [], client.auth.token, toJson receipt⟩

/-- What is left of a delivery after the Proxy answered. -/
def markConfirmed (entry : ReceiptOutboxEntry) (answer : Except String Response) :
    Call ReceiptRecorded :=
  match confirmReceipt entry.receipt answer with
  | .error error => .fail error
  | .ok recorded => .await (.markReceiptDelivered entry.outboxId recorded) fun
    | .error error => .fail error
    | .ok () => pure recorded

/-- A delivery checks the entry, sends its receipt and marks it. -/
theorem deliverOutboxEntry_eq (client : ClavenarClient) (entry : ReceiptOutboxEntry) :
    client.deliverOutboxEntry entry = match validateOutboxEntry entry with
      | .error error => .fail error
      | .ok () => match joinUrl client.baseUrl "execution-receipts" with
        | .error error => .fail (.invalidConfig ("join /execution-receipts: " ++ error))
        | .ok endpoint => .await (.postReceipt (receiptRequest client endpoint entry.receipt))
            (markConfirmed entry) := by
  unfold deliverOutboxEntry
  cases validateOutboxEntry entry with
  | error error => rfl
  | ok _ =>
    simp only [recordReceipt]
    cases joinUrl client.baseUrl "execution-receipts" with
    | error error => rfl
    | ok endpoint =>
      simp only [Prog.await_bind, receiptRequest]
      congr 1
      funext answer
      cases answer with
      | error error => rfl
      | ok response =>
        simp only [markConfirmed, confirmReceipt, Except.mapError, ok_bind]
        cases decodeReceiptRecorded response with
        | error error => rfl
        | ok recorded =>
          simp only [Prog.lift_ok, Prog.done_ok_bind, ok_bind]
          split_ifs <;> rfl

/-- What a confirmation says. -/
theorem confirmReceipt_eq_ok_iff {receipt : ExecutionReceipt} {answer : Except String Response}
    {recorded : ReceiptRecorded} :
    confirmReceipt receipt answer = .ok recorded ↔
      (∃ response, answer = .ok response ∧ decodeReceiptRecorded response = .ok recorded) ∧
      recorded.authorizationId = receipt.authorizationId ∧
      recorded.contract = executionContract ∧ recorded.stage = "execution.completed" := by
  cases answer with
  | error error => simp [confirmReceipt, Except.mapError]
  | ok response =>
    simp only [confirmReceipt, Except.mapError, ok_bind, bind_eq_ok_iff, Except.ok.injEq,
      exists_eq_left']
    constructor
    · rintro ⟨_, hrecorded, h⟩
      split_ifs at h with hnames
      obtain rfl := Except.ok.inj h
      simp only [not_or, not_not] at hnames
      exact ⟨hrecorded, hnames⟩
    · rintro ⟨hrecorded, hid, hcontract, hstage⟩
      exact ⟨recorded, hrecorded, by simp [hid, hcontract, hstage]⟩

/-- A receipt that was sent and confirmed. -/
theorem receiptConfirmed_of_confirmReceipt {history : List (Event Answer)}
    {client : ClavenarClient} {endpoint : String} {receipt : ExecutionReceipt}
    {answer : Except String Response} {recorded : ReceiptRecorded}
    (hmem : (⟨.postReceipt (receiptRequest client endpoint receipt), answer⟩ : Event Answer) ∈
      history)
    (h : confirmReceipt receipt answer = .ok recorded) :
    ReceiptConfirmed history receipt recorded := by
  obtain ⟨⟨response, rfl, hrecorded⟩, hnames⟩ := confirmReceipt_eq_ok_iff.mp h
  exact ⟨⟨_, response, hmem, rfl, decodeReceiptRecorded_status hrecorded, hrecorded⟩, hnames⟩

/-! ### Complete runs -/

/-- The complete runs of a delivery: nothing is sent, or the receipt is not confirmed, or its
mark is answered. -/
inductive DeliveryRun (client : ClavenarClient) (entry : ReceiptOutboxEntry) :
    List (Event Answer) → Except ClavenarError ReceiptRecorded → Prop where
  | unsent {error : ClavenarError}
      (h : validateOutboxEntry entry = .ok () →
        ∃ error, joinUrl client.baseUrl "execution-receipts" = .error error) :
      DeliveryRun client entry [] (.error error)
  | unconfirmed {endpoint : String} {answer : Except String Response} {error : ClavenarError}
      (h : confirmReceipt entry.receipt answer = .error error) :
      DeliveryRun client entry
        [⟨.postReceipt (receiptRequest client endpoint entry.receipt), answer⟩] (.error error)
  | marked {endpoint : String} {answer : Except String Response} {recorded : ReceiptRecorded}
      {mark : Except ClavenarError Unit} (h : confirmReceipt entry.receipt answer = .ok recorded) :
      DeliveryRun client entry
        [⟨.postReceipt (receiptRequest client endpoint entry.receipt), answer⟩,
          ⟨.markReceiptDelivered entry.outboxId recorded, mark⟩]
        ((fun _ => recorded) <$> mark)

/-- A delivery that returned went one of these ways. -/
theorem deliveryRun_of_returns {client : ClavenarClient} {entry : ReceiptOutboxEntry}
    {history : List (Event Answer)} {result : Except ClavenarError ReceiptRecorded}
    (h : (client.deliverOutboxEntry entry).Returns history result) :
    DeliveryRun client entry history result := by
  rw [deliverOutboxEntry_eq] at h
  cases hentry : validateOutboxEntry entry with
  | error error =>
    rw [hentry] at h
    obtain ⟨rfl, rfl⟩ := Prog.returns_done_iff.mp h
    exact .unsent fun hvalid => by simp [hentry] at hvalid
  | ok _ =>
    simp only [hentry] at h
    cases hjoin : joinUrl client.baseUrl "execution-receipts" with
    | error error =>
      simp only [hjoin] at h
      obtain ⟨rfl, rfl⟩ := Prog.returns_done_iff.mp h
      exact .unsent fun _ => ⟨error, hjoin⟩
    | ok endpoint =>
      simp only [hjoin] at h
      obtain ⟨answer, rest, rfl, hrest⟩ := Prog.returns_await_iff.mp h
      unfold markConfirmed at hrest
      cases hconfirm : confirmReceipt entry.receipt answer with
      | error error =>
        simp only [hconfirm] at hrest
        obtain ⟨rfl, rfl⟩ := Prog.returns_done_iff.mp hrest
        exact .unconfirmed hconfirm
      | ok recorded =>
        simp only [hconfirm] at hrest
        obtain ⟨mark, rest, rfl, hmark⟩ := Prog.returns_await_iff.mp hrest
        have hdone : rest = [] ∧ result = (fun _ => recorded) <$> mark := by
          cases mark <;> exact Prog.returns_done_iff.mp hmark
        obtain ⟨rfl, rfl⟩ := hdone
        exact .marked hconfirm

/-- The complete runs of the completion of an effect: the store does not commit it with its
receipt, or the delivery of this receipt ends the run. -/
inductive CompletionRun (client : ClavenarClient) (completion : ExecutionCompletion)
    (effect : ExecutionEffect) :
    List (Event Answer) → Except KnownEffectCompletionError ExecutionOutcome → Prop where
  | uncommitted {queued : Except ClavenarError ReceiptOutboxEntry}
      (h : ∀ entry, queued = .ok entry → entry.receipt ≠ completion.receipt) :
      CompletionRun client completion effect [⟨.commitEffectAndEnqueueReceipt completion, queued⟩]
        (.error .persistenceUncertain)
  | committed {entry : ReceiptOutboxEntry} {rest : List (Event Answer)}
      {delivery : Except ClavenarError ReceiptRecorded}
      (hentry : entry.receipt = completion.receipt) (h : DeliveryRun client entry rest delivery) :
      CompletionRun client completion effect
        (⟨.commitEffectAndEnqueueReceipt completion, .ok entry⟩ :: rest)
        ((fun recorded => ⟨recorded, effect.result, effect.effectId⟩) <$>
          delivery.mapError .receiptDelivery)

/-- A completion that returned went one of these ways. -/
theorem completionRun_of_returns {client : ClavenarClient} {executorId : String}
    {signingKey : SigningKey} {authorization : SignedAuthorization} {effect : ExecutionEffect}
    {history : List (Event Answer)} {result : Except KnownEffectCompletionError ExecutionOutcome}
    (h : (client.completeKnownEffect signingKey authorization effect executorId).Returns
      history result) :
    CompletionRun client (completionOf executorId authorization effect
      (receiptOf signingKey authorization effect)) effect history result := by
  simp only [completeKnownEffect, canonicalJson] at h
  obtain ⟨queued, rest, rfl, hrest⟩ := Prog.returns_await_iff.mp h
  cases queued with
  | error error =>
    obtain ⟨rfl, rfl⟩ := Prog.returns_done_iff.mp hrest
    exact .uncommitted (by simp)
  | ok entry =>
    simp only at hrest
    split_ifs at hrest with hreceipt
    · obtain ⟨rfl, rfl⟩ := Prog.returns_done_iff.mp hrest
      refine .uncommitted ?_
      rintro _ ⟨⟩
      exact hreceipt
    · obtain ⟨outcome, houtcome, rfl⟩ := Prog.returns_bind_pure_iff.mp hrest
      obtain ⟨delivery, hdelivery, rfl⟩ := Prog.returns_mapError_iff.mp houtcome
      exact .committed (not_not.mp hreceipt) (deliveryRun_of_returns hdelivery)

/-! ### One flush -/

/-- What a flush must have been answered before it invokes an operation. -/
def Flushing (history : List (Event Answer)) : Op → Prop
  | .pendingReceipts _ => True
  | .postReceipt request => ∃ entry, Listed history entry ∧ request.json = toJson entry.receipt
  | .markReceiptDelivered outboxId recorded => ∃ entry, Listed history entry ∧
      entry.outboxId = outboxId ∧ ReceiptConfirmed history entry.receipt recorded
  | _ => False

/-- What a flush does is still justified after more has happened. -/
theorem Flushing.mono {history history' : List (Event Answer)} {op : Op}
    (hsub : history ⊆ history') (h : Flushing history op) : Flushing history' op := by
  cases op with
  | pendingReceipts => exact h
  | postReceipt request =>
    obtain ⟨entry, hlisted, hjson⟩ := h
    exact ⟨entry, hlisted.mono hsub, hjson⟩
  | markReceiptDelivered outboxId recorded =>
    obtain ⟨entry, hlisted, hid, hconfirmed⟩ := h
    exact ⟨entry, hlisted.mono hsub, hid, hconfirmed.mono hsub⟩
  | _ => exact h

/-- A delivery of a listed entry, when it succeeds, has moved one entry. -/
theorem deliverOutboxEntry_flushing {client : ClavenarClient} {entry : ReceiptOutboxEntry}
    {history : List (Event Answer)} (hlisted : Listed history entry) :
    Prog.Always Flushing (fun history' result => history ⊆ history' ∧
      ∀ recorded, result = .ok recorded → (moved history').length = (moved history).length + 1)
      history (client.deliverOutboxEntry entry) := by
  rw [deliverOutboxEntry_eq]
  cases validateOutboxEntry entry with
  | error error => simp
  | ok _ =>
    simp only
    cases joinUrl client.baseUrl "execution-receipts" with
    | error error => simp
    | ok endpoint =>
      refine ⟨⟨entry, hlisted, rfl⟩, fun answer => ?_⟩
      unfold markConfirmed
      cases hconfirm : confirmReceipt entry.receipt answer with
      | error error => simp
      | ok recorded =>
        have hconfirmed : ReceiptConfirmed (history ++ [⟨.postReceipt
            (receiptRequest client endpoint entry.receipt), answer⟩]) entry.receipt recorded :=
          receiptConfirmed_of_confirmReceipt List.mem_concat_self hconfirm
        refine ⟨⟨entry, hlisted.mono (List.subset_append_left _ _), rfl, hconfirmed⟩,
          fun answer => ?_⟩
        cases answer with
        | error error => simp
        | ok _ => simp [moved, List.filterMap_cons]

/-- The loop posts listed entries only and counts those that it moved. -/
theorem deliverEntries_flushing {client : ClavenarClient} {entries : List ReceiptOutboxEntry}
    {history : List (Event Answer)} (hlisted : ∀ entry ∈ entries, Listed history entry) :
    Prog.Always Flushing
      (fun history' result => ∀ n, result = .ok n → n = (moved history').length)
      history (client.deliverEntries (moved history).length entries) := by
  induction entries generalizing history with
  | nil => simp [deliverEntries]
  | cons entry entries ih =>
    rw [List.forall_mem_cons] at hlisted
    rw [deliverEntries, Prog.always_bind]
    refine (deliverOutboxEntry_flushing hlisted.1).mono (fun _ _ => id) ?_
    rintro history' result ⟨hsub, hmoved⟩
    cases result with
    | error error => simp
    | ok recorded =>
      rw [← hmoved recorded rfl]
      exact ih fun entry hentry => (hlisted.2 entry hentry).mono hsub

/-- A flush posts listed entries only and returns the number of those that it moved. -/
theorem flushExecutionReceiptOutbox_flushing (client : ClavenarClient) (limit : ℕ) :
    Prog.Always Flushing
      (fun history result => ∀ n, result = .ok n → n = (moved history).length) []
      (client.flushExecutionReceiptOutbox limit) := by
  unfold flushExecutionReceiptOutbox
  split_ifs
  · simp
  cases client.durableExecutionStore with
  | none => simp
  | some store =>
    refine ⟨trivial, fun answer => ?_⟩
    cases answer with
    | error error => simp
    | ok pending =>
      simp only
      split_ifs
      · simp
      have hlisted : ∀ entry ∈ pending, Listed [⟨.pendingReceipts limit, .ok pending⟩] entry :=
        fun entry hentry => ⟨limit, pending, List.mem_singleton_self _, hentry⟩
      exact deliverEntries_flushing hlisted

/-- A flush delivers what the store listed, and returns how many entries it moved. -/
theorem flush_flushing (client : ClavenarClient) (limit : ℕ) :
    Prog.Always Flushing
      (fun history result => ∀ n, result = .ok (.flushed n) → n = (moved history).length) []
      ((ApiCall.flushExecutionReceiptOutbox limit).run client) := by
  unfold ApiCall.run
  rw [Prog.always_bind]
  refine (flushExecutionReceiptOutbox_flushing client limit).mono (fun _ _ => id) ?_
  intro history result hresult
  cases result with
  | error error => simp
  | ok n => simpa using hresult n rfl

/-! ### One flush alone -/

section Alone

variable {σ : Type} {handler : Handler σ Answer} {client : ClavenarClient}
  {entry : ReceiptOutboxEntry} {s s' : σ}

/-- A delivery alone that succeeds: its receipt is confirmed and its mark accepted. -/
theorem eval_deliverOutboxEntry_delivered {endpoint : String} {answer : Except String Response}
    {posted : σ} {recorded : ReceiptRecorded} (hentry : validateOutboxEntry entry = .ok ())
    (hjoin : joinUrl client.baseUrl "execution-receipts" = .ok endpoint)
    (hpost : handler s (.postReceipt (receiptRequest client endpoint entry.receipt)) =
      (answer, posted))
    (hconfirm : confirmReceipt entry.receipt answer = .ok recorded)
    (hmark : handler posted (.markReceiptDelivered entry.outboxId recorded) = (.ok (), s')) :
    (client.deliverOutboxEntry entry).eval handler s = (s', .ok recorded) ∧
      (client.deliverOutboxEntry entry).trace handler s =
        [⟨.postReceipt (receiptRequest client endpoint entry.receipt), answer⟩,
          ⟨.markReceiptDelivered entry.outboxId recorded, .ok ()⟩] := by
  rw [deliverOutboxEntry_eq, hentry]
  simp only [hjoin, Prog.eval_await, Prog.trace, hpost, markConfirmed, hconfirm, hmark]
  exact ⟨rfl, rfl⟩

/-- A delivery alone whose receipt is not confirmed: nothing is marked. -/
theorem eval_deliverOutboxEntry_unconfirmed {endpoint : String} {answer : Except String Response}
    {error : ClavenarError} (hentry : validateOutboxEntry entry = .ok ())
    (hjoin : joinUrl client.baseUrl "execution-receipts" = .ok endpoint)
    (hpost : handler s (.postReceipt (receiptRequest client endpoint entry.receipt)) =
      (answer, s'))
    (hconfirm : confirmReceipt entry.receipt answer = .error error) :
    (client.deliverOutboxEntry entry).eval handler s = (s', .error error) ∧
      (client.deliverOutboxEntry entry).trace handler s =
        [⟨.postReceipt (receiptRequest client endpoint entry.receipt), answer⟩] := by
  rw [deliverOutboxEntry_eq, hentry]
  simp only [hjoin, Prog.eval_await, Prog.trace, hpost, markConfirmed, hconfirm]
  exact ⟨rfl, rfl⟩

/-- The loop goes on after a delivery that succeeds. -/
theorem trace_deliverEntries_delivered {entries : List ReceiptOutboxEntry} {n : ℕ}
    {recorded : ReceiptRecorded}
    (h : (client.deliverOutboxEntry entry).eval handler s = (s', .ok recorded)) :
    (client.deliverEntries n (entry :: entries)).trace handler s =
      (client.deliverOutboxEntry entry).trace handler s ++
        (client.deliverEntries (n + 1) entries).trace handler s' := by
  rw [deliverEntries, Prog.bind_eq_andThen, Prog.trace_andThen, h]

/-- The loop ends with the first delivery that fails. -/
theorem trace_deliverEntries_failed {entries : List ReceiptOutboxEntry} {n : ℕ}
    {error : ClavenarError}
    (h : (client.deliverOutboxEntry entry).eval handler s = (s', .error error)) :
    (client.deliverEntries n (entry :: entries)).trace handler s =
      (client.deliverOutboxEntry entry).trace handler s := by
  rw [deliverEntries, Prog.bind_eq_andThen, Prog.trace_andThen, h, Prog.trace, List.append_nil]

/-- What a flush makes of the answer of the store. -/
def deliverListed (client : ClavenarClient) (limit : ℕ) :
    Except ClavenarError (List ReceiptOutboxEntry) → Call ℕ
  | .error error => .fail error
  | .ok pending =>
    if limit < pending.length then
      .fail (.invalidConfig "durable execution store exceeded the requested outbox limit")
    else client.deliverEntries 0 pending

/-- A list within the limit is delivered from its beginning. -/
theorem deliverListed_ok {limit : ℕ} {pending : List ReceiptOutboxEntry}
    (h : pending.length ≤ limit) :
    deliverListed client limit (.ok pending) = client.deliverEntries 0 pending :=
  if_neg (by omega)

/-- A flush with a valid limit lists the outbox and delivers what is listed. -/
theorem flushExecutionReceiptOutbox_eq {limit : ℕ} {store : DurableExecutionStore}
    (hlimit : 0 < limit ∧ limit ≤ maxOutboxFlush)
    (hstore : client.durableExecutionStore = some store) :
    client.flushExecutionReceiptOutbox limit =
      .await (.pendingReceipts limit) (deliverListed client limit) := by
  have hvalid : ¬(limit = 0 ∨ maxOutboxFlush < limit) := by omega
  rw [flushExecutionReceiptOutbox, if_neg hvalid, hstore]
  refine congrArg (Prog.await _) (funext fun answer => ?_)
  cases answer <;> rfl

end Alone

/-! ### Many flushes -/

/-- A flush, on any client and with any limit. -/
def Flushes (p : Call ApiResult) : Prop := ∃ (client : ClavenarClient) (limit : ℕ),
  p = (ApiCall.flushExecutionReceiptOutbox limit).run client

end

/-- Any number of calls over one store that starts out as this one. -/
def MemoryExecutionStore.envFrom (start : MemoryExecutionStore) :
    Env MemoryExecutionStore Answer :=
  { MemoryExecutionStore.env with init := fun store => store = start }

/-- The ids of the entries in and out of the outbox. -/
def outboxIds (store : MemoryExecutionStore) : List String :=
  store.pending.map ReceiptOutboxEntry.outboxId ++ store.delivered.map Prod.fst

/-- The number of entries that a flush returned, if it did. -/
def flushed (t : Task Op Answer ClavenarError ApiResult) : ℕ :=
  match t.phase with
  | .ready (.done (.ok (.flushed n))) => n
  | _ => 0

/-- Removing the item at an index removes all items with its key, if keys are distinct. -/
theorem eraseIdx_eq_filter {α β : Type} [DecidableEq β] {f : α → β} {items : List α} {i : ℕ}
    {a : α} (hkeys : (items.map f).Nodup) (hi : items[i]? = some a) :
    items.eraseIdx i = items.filter fun b => f b ≠ f a := by
  induction items generalizing i with
  | nil => simp at hi
  | cons b items ih =>
    rw [List.map_cons, List.nodup_cons] at hkeys
    cases i with
    | zero =>
      obtain rfl : b = a := by simpa using hi
      have hother : ∀ c ∈ items, f c ≠ f b := fun c hc heq =>
        hkeys.1 (heq ▸ List.mem_map_of_mem hc)
      rw [List.eraseIdx_cons_zero, List.filter_cons_of_neg (by simp), List.filter_eq_self.mpr]
      simpa using hother
    | succ i =>
      have hi : items[i]? = some a := by simpa using hi
      have hb : f b ≠ f a := fun heq =>
        hkeys.1 (heq ▸ List.mem_map_of_mem (List.mem_of_getElem? hi))
      rw [List.eraseIdx_cons_succ, List.filter_cons_of_pos (by simpa using hb), ih hkeys.2 hi]

/-- What the flushes have made of the store they started with. -/
structure Conserved (start store : MemoryExecutionStore) (log : List (Event Answer)) : Prop where
  delivered : store.delivered = start.delivered ++ moved log
  pending : store.pending =
    start.pending.filter fun entry => entry.outboxId ∉ (moved log).map Prod.fst
  distinct : ((moved log).map Prod.fst).Nodup
  known : ∀ outboxId ∈ (moved log).map Prod.fst,
    outboxId ∈ start.pending.map ReceiptOutboxEntry.outboxId
  listed : ∀ entry, Listed log entry → entry ∈ start.pending
  intents : store.intents = start.intents
  completions : store.completions = start.completions
  inFlightAuthorizations : store.inFlightAuthorizations = start.inFlightAuthorizations
  completedAuthorizations : store.completedAuthorizations = start.completedAuthorizations
  claimedAuthorizations : store.claimedAuthorizations = start.claimedAuthorizations

/-- The operations of a flush. -/
def Op.flushes : Op → Bool
  | .pendingReceipts _ | .postReceipt _ | .markReceiptDelivered _ _ => true
  | _ => false

/-- An entry was listed before or is listed by the last event. -/
theorem listed_append {log : List (Event Answer)} {event : Event Answer}
    {entry : ReceiptOutboxEntry} (h : Listed (log ++ [event]) entry) :
    Listed log entry ∨ Listed [event] entry := by
  obtain ⟨limit, entries, hmem, hentry⟩ := h
  rcases List.mem_append.mp hmem with hmem | hmem
  · exact .inl ⟨limit, entries, hmem, hentry⟩
  · exact .inr ⟨limit, entries, hmem, hentry⟩

/-- Every answer to a flush conserves the entries. -/
theorem Conserved.answer {start store store' : MemoryExecutionStore} {log : List (Event Answer)}
    {event : Event Answer}
    (hdistinct : (start.pending.map ReceiptOutboxEntry.outboxId).Nodup)
    (h : Conserved start store log) (hflushes : event.1.flushes = true)
    (hanswer : store.Answers event.1 event.2 store') :
    Conserved start store' (log ++ [event]) := by
  have hquiet : marked event = none → (∀ entry, Listed [event] entry → entry ∈ start.pending) →
      Conserved start store (log ++ [event]) := by
    intro hmarked hlisted
    have hmoved : moved (log ++ [event]) = moved log := by
      simp [moved, hmarked]
    refine { h with delivered := ?_, pending := ?_, distinct := ?_, known := ?_, listed := ?_ }
    · rw [hmoved, h.delivered]
    · rw [hmoved, h.pending]
    · rw [hmoved]
      exact h.distinct
    · rw [hmoved]
      exact h.known
    · intro entry hentry
      exact (listed_append hentry).elim (h.listed entry) (hlisted entry)
  cases Answers.change event hanswer with
  | started | notStarted | loaded | committed => simp [Op.flushes] at hflushes
  | notPending => exact hquiet rfl (by simp [Listed])
  | outside houtside =>
    obtain ⟨op, answer⟩ := event
    cases op <;> simp [Op.outside, Op.flushes] at houtside hflushes
    exact hquiet rfl (by simp [Listed])
  | @listed limit =>
    refine hquiet rfl ?_
    rintro entry ⟨_, entries, hmem, hentry⟩
    simp only [List.mem_singleton, Sigma.mk.injEq, Op.pendingReceipts.injEq] at hmem
    obtain ⟨rfl, heq⟩ := hmem
    obtain rfl := Except.ok.inj (eq_of_heq heq)
    have hpending := List.mem_of_mem_take hentry
    rw [h.pending] at hpending
    exact List.mem_of_mem_filter hpending
  | @delivered outboxId recorded index entry hentry hid =>
    have hmoved : moved (log ++
        [(⟨.markReceiptDelivered outboxId recorded, .ok ()⟩ : Event Answer)]) =
          moved log ++ [(outboxId, recorded)] := by
      simp [moved]
    have hmem : entry ∈ store.pending := List.mem_of_getElem? hentry
    have hstart := hmem
    rw [h.pending, List.mem_filter, decide_eq_true_iff, hid] at hstart
    have hkeys : (store.pending.map ReceiptOutboxEntry.outboxId).Nodup := by
      rw [h.pending]
      exact hdistinct.sublist (List.filter_sublist.map _)
    refine { h with delivered := ?_, pending := ?_, distinct := ?_, known := ?_, listed := ?_ }
    · rw [hmoved, ← List.append_assoc, ← h.delivered]
      rfl
    · change store.pending.eraseIdx index = _
      rw [eraseIdx_eq_filter hkeys hentry, h.pending, List.filter_filter, hmoved, hid]
      congr 1
      funext other
      by_cases hother : other.outboxId = outboxId <;> simp [hother]
    · rw [hmoved, List.map_append, List.nodup_append]
      refine ⟨h.distinct, by simp, ?_⟩
      rintro a ha b hb rfl
      obtain rfl : a = outboxId := by simpa using hb
      exact hstart.2 ha
    · rw [hmoved, List.map_append]
      intro other hother
      rcases List.mem_append.mp hother with hother | hother
      · exact h.known other hother
      · obtain rfl : other = outboxId := by simpa using hother
        exact hid ▸ List.mem_map_of_mem hstart.1
    · intro other hother
      refine (listed_append hother).elim (h.listed other) ?_
      simp [Listed]

/-- The ids in and out of the outbox are always those of the start. -/
theorem Conserved.perm {start store : MemoryExecutionStore} {log : List (Event Answer)}
    (hdistinct : (outboxIds start).Nodup) (h : Conserved start store log) :
    (outboxIds store).Perm (outboxIds start) := by
  have hids : (start.pending.map ReceiptOutboxEntry.outboxId).Nodup := hdistinct.of_append_left
  have hkept : (store.pending.map ReceiptOutboxEntry.outboxId ++ (moved log).map Prod.fst).Perm
      (start.pending.map ReceiptOutboxEntry.outboxId) := by
    rw [h.pending]
    refine (List.perm_ext_iff_of_nodup ?_ hids).mpr fun outboxId => ?_
    · rw [List.nodup_append]
      refine ⟨hids.sublist (List.filter_sublist.map _), h.distinct, ?_⟩
      rintro _ hleft _ hright rfl
      obtain ⟨entry, hentry, rfl⟩ := List.mem_map.mp hleft
      simp only [List.mem_filter, decide_eq_true_iff] at hentry
      exact hentry.2 hright
    · constructor
      · intro hmem
        rcases List.mem_append.mp hmem with hmem | hmem
        · obtain ⟨entry, hentry, rfl⟩ := List.mem_map.mp hmem
          exact List.mem_map_of_mem (List.mem_of_mem_filter hentry)
        · exact h.known outboxId hmem
      · intro hmem
        obtain ⟨entry, hentry, rfl⟩ := List.mem_map.mp hmem
        by_cases hmoved : entry.outboxId ∈ (moved log).map Prod.fst
        · exact List.mem_append_right _ hmoved
        · exact List.mem_append_left _ (List.mem_map_of_mem
            (List.mem_filter.mpr ⟨hentry, decide_eq_true hmoved⟩))
  unfold outboxIds
  rw [h.delivered, List.map_append]
  have hright := hkept.append_right (start.delivered.map Prod.fst)
  refine List.Perm.trans ?_ hright
  rw [List.append_assoc]
  exact List.perm_append_comm.append_left _

section

variable [Crates]

/-- A flush uses the operations of the outbox only. -/
theorem flushes_of_flushing {history : List (Event Answer)} {op : Op}
    (h : Flushing history op) : op.flushes = true := by
  cases op <;> first | rfl | exact h.elim

/-- A flush returns at most what it moved. -/
theorem flushed_le {t : Task Op Answer ClavenarError ApiResult}
    (h : Flushes t.start ∧ t.Consistent) : flushed t ≤ (moved t.history).length := by
  obtain ⟨⟨client, limit, hstart⟩, hconsistent⟩ := h
  unfold flushed
  split
  · rename_i n hphase
    have hreturns := hconsistent.returns hphase
    rw [hstart] at hreturns
    exact ((flush_flushing client limit).of_returns hreturns n rfl).le
  · exact Nat.zero_le _

/-- Outbox conservation. Over a store of any past with distinct outbox ids and any number of
flushes, interleaved and cut off anywhere: every entry is once in the outbox or once among the
delivered ones; what is left in the outbox is unchanged and in order; an entry is moved only after
the Proxy confirmed exactly its receipt; the flushes return no more than was moved; and nothing else
in the store changes or is invoked. -/
theorem outbox_conserved {start : MemoryExecutionStore} (hdistinct : (outboxIds start).Nodup)
    {c : Sys MemoryExecutionStore Op Answer ClavenarError ApiResult}
    (h : c.Reachable start.envFrom Flushes) :
    ((outboxIds c.shared).Nodup ∧ (outboxIds c.shared).Perm (outboxIds start)) ∧
    (c.shared.delivered = start.delivered ++ moved c.log ∧
      c.shared.pending =
        start.pending.filter fun entry => entry.outboxId ∉ (moved c.log).map Prod.fst) ∧
    (∀ before outboxId recorded after,
      c.log = before ++ ⟨.markReceiptDelivered outboxId recorded, .ok ()⟩ :: after →
      ∃ entry ∈ start.pending, entry.outboxId = outboxId ∧
        ReceiptConfirmed before entry.receipt recorded) ∧
    (c.tasks.map flushed).sum ≤ (moved c.log).length ∧
    (c.shared.intents = start.intents ∧ c.shared.completions = start.completions ∧
      c.shared.inFlightAuthorizations = start.inFlightAuthorizations ∧
      c.shared.completedAuthorizations = start.completedAuthorizations ∧
      c.shared.claimedAuthorizations = start.claimedAuthorizations) ∧
    ∀ t ∈ c.tasks, ∀ op ∈ t.invoked, op.flushes = true := by
  have hallowed : ∀ p : Call ApiResult, Flushes p → p.Always Flushing (fun _ _ => True) [] := by
    rintro p ⟨client, limit, rfl⟩
    exact (flush_flushing client limit).mono (fun _ _ => id) fun _ _ _ => trivial
  have hmono : ∀ history history' (op : Op), history ⊆ history' → Flushing history op →
      Flushing history' op := fun _ _ _ => Flushing.mono
  have hguarded := h.log_guarded hmono hallowed
  have hconserved : Conserved start c.shared c.log := by
    refine h.invariant_of_always (fun p hp => (hallowed p hp).mono
      (fun _ _ => flushes_of_flushing) fun _ _ => id) ?_ ?_ ?_
    · rintro store rfl
      exact { delivered := by simp [moved], pending := by simp [moved], distinct := by simp [moved],
              known := by simp [moved], listed := by simp [Listed], intents := rfl,
              completions := rfl, inFlightAuthorizations := rfl, completedAuthorizations := rfl,
              claimedAuthorizations := rfl }
    · exact fun store store' log event hflushes hanswer hlog =>
        hlog.answer hdistinct.of_append_left hflushes hanswer
    · rintro store _ log (_ | _) hlog <;> exact { hlog with }
  have hperm := hconserved.perm hdistinct
  refine ⟨⟨hperm.nodup_iff.mpr hdistinct, hperm⟩, ⟨hconserved.delivered, hconserved.pending⟩,
    fun before outboxId recorded after hlog => ?_, ?_, ⟨hconserved.intents,
      hconserved.completions, hconserved.inFlightAuthorizations,
      hconserved.completedAuthorizations, hconserved.claimedAuthorizations⟩,
    fun t ht op hop => ?_⟩
  · obtain ⟨entry, hlisted, hid, hconfirmed⟩ := hguarded before _ after hlog
    have hbefore : before ⊆ c.log := hlog ▸ List.subset_append_left _ _
    exact ⟨entry, hconserved.listed entry (hlisted.mono hbefore), hid, hconfirmed⟩
  · rw [length_moved]
    refine (List.sum_le_sum fun t ht => ?_).trans (h.sum_countP_history_le _)
    rw [← length_moved]
    exact flushed_le (h.consistent t ht)
  · obtain ⟨history, -, hinvokes⟩ := (h.consistent t ht).2.invokes hop
    exact flushes_of_flushing ((hallowed _ (h.consistent t ht).1).of_invokes hinvokes)

end

namespace Fixture

attribute [local instance] crates

/-- The store of the test after a delivery failed. -/
def undelivered : MemoryExecutionStore := { initial with pending := [entry] }

/-- The entry of the test is well formed. -/
theorem validateOutboxEntry_entry : validateOutboxEntry entry = .ok () :=
  validateOutboxEntry_eq_ok_iff.mpr ⟨by decide, by decide +kernel, rfl, rfl, rfl⟩

/-- The confirmation of the test confirms its receipt. -/
theorem confirmReceipt_recorded :
    confirmReceipt entry.receipt (.ok (.ofText 201 recorded.text)) = .ok receiptRecorded :=
  confirmReceipt_eq_ok_iff.mpr ⟨⟨_, rfl, decodeReceiptRecorded_recorded⟩, rfl, rfl, rfl⟩

/-- Another entry of the outbox of the test. -/
def otherEntry : ReceiptOutboxEntry :=
  ⟨"receipt-other", ClavenarClient.receiptOf () authorization otherEffect⟩

/-- So is the other entry. -/
theorem validateOutboxEntry_otherEntry : validateOutboxEntry otherEntry = .ok () :=
  validateOutboxEntry_eq_ok_iff.mpr ⟨by decide, by decide +kernel, rfl, rfl, rfl⟩

/-- The answer of a Proxy that rejects a receipt for good. -/
def rejection : Response := .ofText 422 "receipt rejected"

/-- The rejection does not confirm the receipt of the other entry. -/
theorem confirmReceipt_rejection : ∃ error,
    confirmReceipt otherEntry.receipt (.ok rejection) = .error error := by
  cases h : confirmReceipt otherEntry.receipt (.ok rejection) with
  | error error => exact ⟨error, rfl⟩
  | ok recorded =>
    obtain ⟨⟨_, ⟨⟩, hrecorded⟩, -⟩ := confirmReceipt_eq_ok_iff.mp h
    exact absurd (decodeReceiptRecorded_status hrecorded) (by decide)

/-- A Proxy that counts the receipts that it is sent, rejects one of them and records the others,
over a store that lists these entries. -/
def proxy (rejected : ℕ) (entries : List ReceiptOutboxEntry) : Handler ℕ Answer
  | sent, .postReceipt _ =>
    (.ok (if sent = rejected then rejection else .ofText 201 recorded.text), sent + 1)
  | sent, .pendingReceipts _ => (.ok entries, sent)
  | sent, .markReceiptDelivered _ _ => (.ok (), sent)
  | sent, .postDecision _ => (.error "not used", sent)
  | sent, .execute _ => (.error (.transport "not used"), sent)
  | sent, .lookupEffect _ => (.error (.transport "not used"), sent)
  | sent, .beginEffectAttempt _ _ => (.error (.transport "not used"), sent)
  | sent, .loadUncertainIntent _ => (.error (.transport "not used"), sent)
  | sent, .commitEffectAndEnqueueReceipt _ => (.error (.transport "not used"), sent)

/-- The request that sends the receipt of an entry. -/
def sends (entry : ReceiptOutboxEntry) : PostRequest :=
  receiptRequest (client ()) ((client ()).baseUrl ++ "execution-receipts") entry.receipt

/-- This Proxy records the receipt of the test. -/
theorem deliver_entry {rejected sent : ℕ} (h : sent ≠ rejected)
    (entries : List ReceiptOutboxEntry) :
    ((client ()).deliverOutboxEntry entry).eval (proxy rejected entries) sent =
        (sent + 1, .ok receiptRecorded) ∧
      ((client ()).deliverOutboxEntry entry).trace (proxy rejected entries) sent =
        [⟨.postReceipt (sends entry), .ok (.ofText 201 recorded.text)⟩,
          ⟨.markReceiptDelivered entry.outboxId receiptRecorded, .ok ()⟩] := by
  have hpost : proxy rejected entries sent (.postReceipt (sends entry)) =
      (.ok (.ofText 201 recorded.text), sent + 1) := by
    rw [proxy, if_neg h]
  exact eval_deliverOutboxEntry_delivered validateOutboxEntry_entry rfl hpost
    confirmReceipt_recorded rfl

/-- It rejects the receipt that is sent as the one with this number. -/
theorem deliver_otherEntry (rejected : ℕ) (entries : List ReceiptOutboxEntry) : ∃ error,
    ((client ()).deliverOutboxEntry otherEntry).eval (proxy rejected entries) rejected =
        (rejected + 1, .error error) ∧
      ((client ()).deliverOutboxEntry otherEntry).trace (proxy rejected entries) rejected =
        [⟨.postReceipt (sends otherEntry), .ok rejection⟩] := by
  obtain ⟨error, herror⟩ := confirmReceipt_rejection
  have hpost : proxy rejected entries rejected (.postReceipt (sends otherEntry)) =
      (.ok rejection, rejected + 1) := by
    rw [proxy, if_pos rfl]
  exact ⟨error, eval_deliverOutboxEntry_unconfirmed validateOutboxEntry_otherEntry rfl hpost herror⟩

/-- The store of the test after the deliveries of two receipts failed. -/
def crowded : MemoryExecutionStore := { initial with pending := [entry, otherEntry] }

/-- What a flush of two entries performs when the last one is rejected. -/
def halfFlushed : List (Event Answer) := [
  ⟨.pendingReceipts 128, .ok [entry, otherEntry]⟩,
  ⟨.postReceipt (sends entry), .ok (.ofText 201 recorded.text)⟩,
  ⟨.markReceiptDelivered entry.outboxId receiptRecorded, .ok ()⟩,
  ⟨.postReceipt (sends otherEntry), .ok rejection⟩]

/-- A flush of both entries moves the first and ends at the second. -/
theorem trace_halfFlushed :
    ((client ()).flushExecutionReceiptOutbox 128).trace (proxy 1 [entry, otherEntry]) 0 =
      halfFlushed := by
  have hstore : (client ()).durableExecutionStore = some ⟨true, true⟩ := rfl
  have hlisted : proxy 1 [entry, otherEntry] 0 (.pendingReceipts 128) =
      (.ok [entry, otherEntry], 0) := rfl
  obtain ⟨hfirst, hfirstTrace⟩ := deliver_entry (show 0 ≠ 1 by decide) [entry, otherEntry]
  obtain ⟨error, hlast, hlastTrace⟩ := deliver_otherEntry 1 [entry, otherEntry]
  rw [flushExecutionReceiptOutbox_eq (by decide : 0 < 128 ∧ 128 ≤ maxOutboxFlush) hstore,
    Prog.trace, hlisted, deliverListed_ok (by simp), trace_deliverEntries_delivered hfirst,
    hfirstTrace, trace_deliverEntries_failed hlast, hlastTrace]
  rfl

/-- A flush of two entries whose last one is rejected. -/
theorem crowded_flushed : ∃ c : Sys MemoryExecutionStore Op Answer ClavenarError ApiResult,
    c.Reachable crowded.envFrom Flushes ∧ c.log = halfFlushed := by
  have hinit : Sys.Reachable crowded.envFrom Flushes ⟨crowded, [], []⟩ := .init rfl
  have hspawned := hinit.spawn ⟨client (), 128, rfl⟩
  obtain ⟨result, hreturns⟩ : ∃ result,
      ((ApiCall.flushExecutionReceiptOutbox 128).run (client ())).Returns halfFlushed result := by
    rw [← trace_halfFlushed, ← Prog.trace_bind_pure]
    exact ⟨_, Prog.returns_trace 0 _⟩
  have hmark : crowded.Answers (.markReceiptDelivered entry.outboxId receiptRecorded) (.ok ())
      (crowded.deliver 0 entry.outboxId receiptRecorded) := by
    have hpending : crowded.pending = [entry, otherEntry] := rfl
    simp [Answers, markReceiptDelivered, hpending, List.findIdx?_cons]
  have hanswered : crowded.envFrom.Answered crowded halfFlushed
      (crowded.deliver 0 entry.outboxId receiptRecorded) :=
    .cons ⟨rfl, rfl⟩ (.cons rfl (.cons hmark (.cons rfl .nil)))
  exact ⟨_, hspawned.follow (i := 0) rfl hreturns hanswered, rfl⟩

/-- In a flush of two entries whose last one is rejected. -/
theorem outbox_conserved_flush :
    ∃ c : Sys MemoryExecutionStore Op Answer ClavenarError ApiResult,
      c.Reachable crowded.envFrom Flushes ∧
      (⟨.postReceipt (sends otherEntry), .ok rejection⟩ : Event Answer) ∈ c.log ∧
      c.shared.pending = [otherEntry] ∧
      c.shared.delivered = [(entry.outboxId, receiptRecorded)] ∧ (outboxIds c.shared).Nodup := by
  obtain ⟨c, hc, hlog⟩ := crowded_flushed
  have hne : otherEntry.outboxId ≠ entry.outboxId := by decide +kernel
  have hdistinct : (outboxIds crowded).Nodup := by
    simpa [outboxIds, crowded, initial] using hne.symm
  obtain ⟨⟨hnodup, -⟩, ⟨hdelivered, hpending⟩, -⟩ := outbox_conserved hdistinct hc
  have hmoved : moved c.log = [(entry.outboxId, receiptRecorded)] := by
    rw [hlog]
    rfl
  rw [hmoved] at hdelivered hpending
  refine ⟨c, hc, by simp [hlog, halfFlushed], ?_, hdelivered, hnodup⟩
  rw [hpending]
  simp [crowded, hne]

end Fixture

end ClavenarSdk
