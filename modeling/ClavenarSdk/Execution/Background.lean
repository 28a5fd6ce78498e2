import ClavenarSdk.Execution.Outbox
import ClavenarSdk.Execution.AtMostOnce
import ClavenarSdk.Execution.Recovery
import Mathlib.Logic.Relation

/-!
# Flushes in the background

A call that completes an effect marks its own receipt, and a flush that runs at the same time can
mark it first. The in-memory store then refuses the mark of the call, which reports an error about
an effect that is complete.
-/

namespace ClavenarSdk

open Interaction ClavenarClient MemoryExecutionStore

/-- The text of an identifier is short enough to name an outbox entry. -/
theorem utf8ByteSize_toText_le (u : Uuid) : u.toText.utf8ByteSize ≤ 144 := by
  have hlength : u.toText.toList.length = 36 := by
    have hdigits := length_flatMap_hexByte u.bytes
    rw [u.length_eq] at hdigits
    simp only [Uuid.toText, String.toList_ofList, List.length_append, List.length_cons,
      List.length_take, List.length_drop]
    omega
  have hsize : u.toText.utf8ByteSize = (u.toText.toList.map Char.utf8Size).sum := by
    rw [← utf8ByteSize_ofList, String.ofList_toList]
  have hbound := List.sum_le_card_nsmul (u.toText.toList.map Char.utf8Size) 4 (by
    intro n hn
    obtain ⟨c, -, rfl⟩ := List.mem_map.mp hn
    exact Char.utf8Size_le_four c)
  rw [List.length_map, hlength] at hbound
  simpa [hsize] using hbound

/-- A mark is accepted while its entry is in the outbox. -/
theorem markReceiptDelivered_of_mem {store : MemoryExecutionStore} {entry : ReceiptOutboxEntry}
    (h : entry ∈ store.pending) (recorded : ReceiptRecorded) :
    (store.markReceiptDelivered entry.outboxId recorded).1 = .ok () := by
  unfold markReceiptDelivered
  cases hindex : store.pending.findIdx? fun other => other.outboxId = entry.outboxId with
  | none =>
    have hne := List.findIdx?_eq_none_iff.mp hindex entry h
    simp at hne
  | some index => simp

section

variable [Crates]

/-- What the SDK enqueues can be sent. -/
theorem validateOutboxEntry_outboxEntry (executorId : String) (signingKey : SigningKey)
    (authorization : SignedAuthorization) (effect : ExecutionEffect) :
    validateOutboxEntry (outboxEntry (completionOf executorId authorization effect
      (receiptOf signingKey authorization effect))) = .ok () := by
  refine validateOutboxEntry_eq_ok_iff.mpr ⟨?_, ?_, rfl, rfl, rfl⟩
  · intro hempty
    have hsize := congrArg String.utf8ByteSize hempty
    simp only [outboxEntry, String.utf8ByteSize_append, String.utf8ByteSize_empty] at hsize
    have hlabel : "receipt-".utf8ByteSize = 8 := rfl
    omega
  · have hid := utf8ByteSize_toText_le authorization.authorization.authorizationId
    have hlabel : "receipt-".utf8ByteSize = 8 := rfl
    simp only [outboxEntry, completionOf, String.utf8ByteSize_append]
    omega

/-- The complete runs of an execution whose executor returned a valid effect. -/
theorem executeAuthorization_returned {client : ClavenarClient} {executor : RegisteredToolExecutor}
    {signingKey : SigningKey} {authorization : SignedAuthorization} {singleUse : Bool}
    {history : List (Event Answer)} {result : Except ClavenarError ExecutionOutcome}
    (h : (client.executeAuthorization executor signingKey authorization singleUse).Returns
      history result) {request : ToolExecutionRequest} {effect : ExecutionEffect}
    (hmem : (⟨.execute request, .ok effect⟩ : Event Answer) ∈ history)
    (heffect : validateExecutionEffect effect = .ok ()) :
    ∃ rest completed, rest ⊆ history ∧
      CompletionRun client (completionOf executor.id authorization effect
        (receiptOf signingKey authorization effect)) effect rest completed ∧
      ∀ outcome, completed = .ok outcome → result = .ok outcome := by
  obtain ⟨claim, rest, rfl, hclaimed⟩ := Prog.returns_await_iff.mp h
  have hmem' := (List.mem_cons.mp hmem).resolve_left (by simp)
  match claim with
  | .error error =>
    obtain ⟨rfl, rfl⟩ := Prog.returns_done_iff.mp hclaimed
    simp at hmem'
  | .ok .alreadyInFlight =>
    obtain ⟨rfl, rfl⟩ := Prog.returns_done_iff.mp hclaimed
    simp at hmem'
  | .ok .alreadyCompleted =>
    obtain ⟨rfl, rfl⟩ := Prog.returns_done_iff.mp hclaimed
    simp at hmem'
  | .ok .started =>
    obtain ⟨answer, rest, rfl, hrest⟩ := Prog.returns_await_iff.mp hclaimed
    clear hclaimed
    -- the effect of the history is the answer of the one invocation of the executor
    have hanswer : (∀ request effect,
        (⟨.execute request, .ok effect⟩ : Event Answer) ∉ rest) → answer = .ok effect := by
      intro hnone
      have hhead := (List.mem_cons.mp hmem').resolve_right (hnone request effect)
      simp only [Sigma.mk.injEq, Op.execute.injEq] at hhead
      obtain ⟨rfl, hhead⟩ := hhead
      exact (eq_of_heq hhead).symm
    cases answer with
    | error error =>
      obtain ⟨rfl, rfl⟩ := Prog.returns_done_iff.mp hrest
      simp at hanswer
    | ok effect' =>
      cases hvalid : validateExecutionEffect effect' with
      | error error =>
        simp only [hvalid] at hrest
        obtain ⟨rfl, rfl⟩ := Prog.returns_done_iff.mp hrest
        obtain rfl : effect' = effect := by simpa using hanswer
        simp [hvalid] at heffect
      | ok _ =>
        simp only [hvalid] at hrest
        obtain ⟨completed, hcompleted, rfl⟩ := Prog.returns_mapError_iff.mp hrest
        have halways : Prog.Always (fun _ op => op.isExecute = false) (fun _ _ => True) []
            (client.completeKnownEffect signingKey authorization effect' executor.id) := by
          refine completeKnownEffect_always rfl fun _ op hop => ?_
          cases op <;> simp_all [delivers, Op.isExecute]
        have hnone := halways.forall_mem hcompleted
        obtain rfl : effect' = effect := by
          refine Except.ok.inj (hanswer fun request effect hmem => ?_)
          have hexecutes := hnone _ hmem
          simp [Op.isExecute] at hexecutes
        exact ⟨rest, completed, List.subset_cons_of_subset _ (List.subset_cons_self _ _),
          completionRun_of_returns hcompleted, by rintro outcome rfl; rfl⟩

/-! ### Own marks that find their entry -/

/-- The Proxy confirms the receipt that it is sent. -/
def Records : Event Answer → Prop
  | ⟨.postReceipt request, answer⟩ => ∀ (client : ClavenarClient) (endpoint : String)
      (receipt : ExecutionReceipt), request = receiptRequest client endpoint receipt →
        ∃ recorded, confirmReceipt receipt answer = .ok recorded
  | _ => True

omit [Crates] in
/-- The serialized receipt names its authorization. -/
theorem authorizationId_of_toJson {receipt receipt' : ExecutionReceipt}
    (h : toJson receipt = toJson receipt') :
    receipt.authorizationId = receipt'.authorizationId := by
  change ExecutionReceipt.serialize receipt = ExecutionReceipt.serialize receipt' at h
  simp only [ExecutionReceipt.serialize, Json.object.injEq, List.cons.injEq, Prod.mk.injEq,
    true_and] at h
  have hid : Json.string receipt.authorizationId.toText =
      Json.string receipt'.authorizationId.toText := h.2.2.1
  exact Uuid.toText_injective (Json.string.inj hid)

/-- A call that executes, or a flush, on any client. -/
def GovernedOrFlush (p : Call ApiResult) : Prop :=
  (∃ (client : ClavenarClient) (call : GovernedCall), p = call.run client) ∨ Flushes p

/-- If a call that executes marks an entry in this step, the entry was still in the outbox. -/
def OwnMarkPending (c c' : Sys MemoryExecutionStore Op Answer ClavenarError ApiResult) : Prop :=
  ∀ (i : ℕ) (t t' : Task Op Answer ClavenarError ApiResult) (client : ClavenarClient)
    (call : GovernedCall) (outboxId : String) (recorded : ReceiptRecorded)
    (answer : Except ClavenarError Unit), c.tasks[i]? = some t → c'.tasks[i]? = some t' →
    t.start = call.run client →
    t'.history = t.history ++ [⟨.markReceiptDelivered outboxId recorded, answer⟩] →
    ∃ entry ∈ c.shared.pending, entry.outboxId = outboxId

/-- Nothing that the call was answered can make it report an error after its effect. -/
def Benign : Event Answer → Prop
  | ⟨.commitEffectAndEnqueueReceipt completion, answer⟩ => answer = .ok (outboxEntry completion)
  | ⟨.postReceipt request, answer⟩ => Records ⟨.postReceipt request, answer⟩
  | ⟨.markReceiptDelivered _ _, answer⟩ => answer = .ok ()
  | _ => True

/-- The in-memory store refuses neither commits nor marks of pending entries, so where receipts are
recorded and own marks find their entries nothing goes wrong after the effect. -/
theorem benign_of_answers {store store' : MemoryExecutionStore} {event : Event Answer}
    (h : store.Answers event.1 event.2 store') (hrecords : Records event)
    (hmark : ∀ outboxId recorded, event.1 = .markReceiptDelivered outboxId recorded →
      ∃ entry ∈ store.pending, entry.outboxId = outboxId) : Benign event := by
  match event with
  | ⟨.commitEffectAndEnqueueReceipt _, _⟩ => exact h.1
  | ⟨.postReceipt _, _⟩ => exact hrecords
  | ⟨.markReceiptDelivered outboxId recorded, answer⟩ =>
    obtain ⟨entry, hentry, rfl⟩ := hmark outboxId recorded rfl
    have haccepted := markReceiptDelivered_of_mem hentry recorded
    rw [← congrArg Prod.fst h] at haccepted
    exact haccepted
  | ⟨.postDecision _, _⟩ | ⟨.execute _, _⟩ | ⟨.lookupEffect _, _⟩ | ⟨.pendingReceipts _, _⟩
  | ⟨.beginEffectAttempt _ _, _⟩ | ⟨.loadUncertainIntent _, _⟩ => trivial

/-- One step keeps what the calls that execute were answered benign. -/
theorem benign_step {c c' : Sys MemoryExecutionStore Op Answer ClavenarError ApiResult}
    (hstep : c.Step (env.restrict fun _ => Records) GovernedOrFlush c')
    (hown : OwnMarkPending c c')
    (h : ∀ t ∈ c.tasks, ∀ (client : ClavenarClient) (call : GovernedCall),
      t.start = call.run client → ∀ event ∈ t.history, Benign event) :
    ∀ t ∈ c'.tasks, ∀ (client : ClavenarClient) (call : GovernedCall),
      t.start = call.run client → ∀ event ∈ t.history, Benign event := by
  intro t hmem client call hstart
  cases hstep with
  | spawn =>
    rcases List.mem_append.mp hmem with hmem | hmem
    · exact h t hmem client call hstart
    · obtain rfl := List.mem_singleton.mp hmem
      simp [Task.fresh]
  | drift => exact h t hmem client call hstart
  | @task _ _ before after old new _ event ht =>
    rcases List.mem_append.mp hmem with hmem | hmem
    · exact h t (List.mem_append_left _ hmem) client call hstart
    rcases List.mem_cons.mp hmem with rfl | hmem
    · have hold := h old (by simp) client call (ht.start_eq ▸ hstart)
      have hstart' := ht.start_eq ▸ hstart
      have hget : ∀ t, (before ++ t :: after)[before.length]? = some t := fun t => by simp
      cases ht with
      | issue | drop | lose => exact hold
      | @complete _ _ op _ _ _ answer hanswer =>
        intro event hevent
        rcases List.mem_append.mp hevent with hevent | hevent
        · exact hold event hevent
        obtain rfl := List.mem_singleton.mp hevent
        refine benign_of_answers hanswer.1 hanswer.2 ?_
        rintro outboxId recorded rfl
        exact hown before.length _ _ client call outboxId recorded answer
          (hget _) (hget _) hstart' rfl
    · exact h t (List.mem_append_right _ (List.mem_cons_of_mem _ hmem)) client call hstart

/-- The runs in which the calls that execute mark only entries that are still in the outbox. -/
def Undisturbed (c c' : Sys MemoryExecutionStore Op Answer ClavenarError ApiResult) : Prop :=
  Sys.Step (env.restrict fun _ => Records) GovernedOrFlush c c' ∧ OwnMarkPending c c'

/-- The entry that is marked is in the outbox, if a call that executes marks it. -/
def MarksPending (start : Call ApiResult) (store : MemoryExecutionStore) : Event Answer → Prop
  | ⟨.markReceiptDelivered outboxId _, _⟩ =>
    (∃ (client : ClavenarClient) (call : GovernedCall), start = call.run client) →
      ∃ entry ∈ store.pending, entry.outboxId = outboxId
  | _ => True

/-- A step of one task marks an entry of the outbox if what it was answered does. -/
theorem ownMarkPending_of_set {c c' : Sys MemoryExecutionStore Op Answer ClavenarError ApiResult}
    {i : ℕ} {t t' : Task Op Answer ClavenarError ApiResult} (htask : c.tasks[i]? = some t)
    (htasks : c'.tasks = c.tasks.set i t') {performed : List (Event Answer)}
    (hhistory : t'.history = t.history ++ performed)
    (hmarks : ∀ event ∈ performed, MarksPending t.start c.shared event) :
    OwnMarkPending c c' := by
  intro j old new client call outboxId recorded answer hold hnew hstart hmark
  rw [htasks] at hnew
  by_cases hij : i = j
  · subst hij
    rw [htask] at hold
    obtain rfl := Option.some.inj hold
    rw [List.getElem?_set_self (List.getElem?_eq_some_iff.mp htask).1] at hnew
    obtain rfl := Option.some.inj hnew
    rw [hhistory, List.append_cancel_left_eq] at hmark
    exact hmarks ⟨.markReceiptDelivered outboxId recorded, answer⟩ (by simp [hmark])
      ⟨client, call, hstart⟩
  · rw [List.getElem?_set_ne hij, hold] at hnew
    obtain rfl := Option.some.inj hnew
    simp at hmark

/-- Let a call perform a part of its run, with marks of entries that are still in the outbox. -/
theorem undisturbed_follow {c : Sys MemoryExecutionStore Op Answer ClavenarError ApiResult} {i : ℕ}
    {start p q : Call ApiResult} {history performed : List (Event Answer)}
    (htask : c.tasks[i]? = some ⟨start, history, .ready p⟩) (hreach : p.Reach performed q)
    {store : MemoryExecutionStore}
    (hanswered : ((env.restrict fun _ => Records).restrict (MarksPending start)).Answered c.shared
      performed store) :
    Relation.ReflTransGen Undisturbed c
      ⟨store, c.tasks.set i ⟨start, history ++ performed, .ready q⟩, c.log ++ performed⟩ := by
  induction hreach generalizing c history with
  | here p =>
    cases hanswered
    obtain ⟨hlt, hget⟩ := List.getElem?_eq_some_iff.mp htask
    have hsame : c.tasks.set i ⟨start, history ++ [], .ready p⟩ = c.tasks := by
      rw [List.append_nil, ← hget, List.set_getElem_self]
    rw [hsame, List.append_nil]
  | @answered op next answer rest q _ ih =>
    cases hanswered with
    | @cons _ store' _ _ _ _ hanswer hrest =>
      have hlt := (List.getElem?_eq_some_iff.mp htask).1
      let issued : Task Op Answer ClavenarError ApiResult := ⟨start, history, .issued op next⟩
      let answered : Task Op Answer ClavenarError ApiResult :=
        ⟨start, history ++ [⟨op, answer⟩], .ready (next answer)⟩
      have hissued : (c.tasks.set i issued)[i]? = some issued := List.getElem?_set_self hlt
      have hissue : Undisturbed c ⟨c.shared, c.tasks.set i issued, c.log⟩ :=
        ⟨.issue htask, ownMarkPending_of_set htask rfl (List.append_nil _).symm (by simp)⟩
      have hset : (c.tasks.set i issued).set i answered = c.tasks.set i answered :=
        List.set_set issued
      have hcomplete : Undisturbed ⟨c.shared, c.tasks.set i issued, c.log⟩
          ⟨store', c.tasks.set i answered, c.log ++ [⟨op, answer⟩]⟩ := by
        refine ⟨?_, ownMarkPending_of_set hissued hset.symm rfl (by simpa using hanswer.2)⟩
        rw [← hset]
        exact .complete hissued hanswer.1
      have hfinal := ih (c := ⟨store', c.tasks.set i answered, c.log ++ [⟨op, answer⟩]⟩)
        (List.getElem?_set_self hlt) hrest
      rw [List.set_set, List.append_assoc, List.append_assoc] at hfinal
      exact .head hissue (.head hcomplete hfinal)

/-- A delivery that was answered benignly has confirmed its receipt. -/
theorem DeliveryRun.recorded {client : ClavenarClient} {entry : ReceiptOutboxEntry}
    {history : List (Event Answer)} {result : Except ClavenarError ReceiptRecorded}
    (h : DeliveryRun client entry history result) (hentry : validateOutboxEntry entry = .ok ())
    {endpoint : String} (hjoin : joinUrl client.baseUrl "execution-receipts" = .ok endpoint)
    (hbenign : ∀ event ∈ history, Benign event) : ∃ recorded, result = .ok recorded := by
  cases h with
  | unsent hunsent =>
    obtain ⟨error, herror⟩ := hunsent hentry
    rw [hjoin] at herror
    cases herror
  | unconfirmed hrefused =>
    obtain ⟨recorded, hconfirm⟩ := hbenign _ List.mem_cons_self client _ entry.receipt rfl
    rw [hrefused] at hconfirm
    cases hconfirm
  | @marked _ _ recorded mark _ =>
    obtain rfl : mark = .ok () := hbenign _ (List.mem_cons_of_mem _ List.mem_cons_self)
    exact ⟨recorded, rfl⟩

/-- A governed call that was answered benignly and whose executor returned a valid effect returns
this effect. -/
theorem GovernedCall.completed_of_benign {client : ClavenarClient} {call : GovernedCall}
    (hjoins : ∀ endpoint, joinUrl client.baseUrl "mcp" = .ok endpoint →
      ∃ endpoint', joinUrl client.baseUrl "execution-receipts" = .ok endpoint')
    {history : List (Event Answer)} {result : Except ClavenarError ApiResult}
    (h : (call.run client).Returns history result)
    (hbenign : ∀ event ∈ history, Benign event) {request : ToolExecutionRequest}
    {effect : ExecutionEffect}
    (hmem : (⟨.execute request, .ok effect⟩ : Event Answer) ∈ history)
    (heffect : validateExecutionEffect effect = .ok ()) :
    ∃ recorded, result = .ok (call.onCompleted ⟨recorded, effect.result, effect.effectId⟩) := by
  cases GovernedCall.run_of_returns h with
  | refused | noEndpoint | undecided | pending => simp at hmem
  | executed _ hjoin _ hexecuted =>
    have hmem' := (List.mem_cons.mp hmem).resolve_left (by simp)
    have hlater := fun event hevent => hbenign event (List.mem_cons_of_mem _ hevent)
    obtain ⟨rest, completed, hsub, hrun, hresult⟩ :=
      executeAuthorization_returned hexecuted hmem' heffect
    have hcompletion := fun event hevent => hlater event (hsub hevent)
    cases hrun with
    | uncommitted hrefused =>
      obtain rfl := hcompletion _ List.mem_cons_self
      exact absurd rfl (hrefused _ rfl)
    | committed _ hdelivery =>
      obtain rfl := Except.ok.inj (hcompletion _ List.mem_cons_self)
      obtain ⟨endpoint, hreceipts⟩ := hjoins _ hjoin
      obtain ⟨recorded, rfl⟩ := hdelivery.recorded (validateOutboxEntry_outboxEntry _ _ _ _)
        hreceipts fun event hevent => hcompletion event (List.mem_cons_of_mem _ hevent)
      exact ⟨recorded, by rw [hresult _ rfl]; rfl⟩

/-- A flush can turn a completed execution into a failure only by marking its entry first. In every
run of calls over one store, with a Proxy that confirms every receipt, in which the calls that
execute mark only entries that are still in the outbox, every such call whose executor returned a
valid effect returns this effect. -/
theorem executed_of_ownMarkPending
    (hjoins : ∀ base endpoint, joinUrl base "mcp" = .ok endpoint →
      ∃ endpoint', joinUrl base "execution-receipts" = .ok endpoint')
    {c : Sys MemoryExecutionStore Op Answer ClavenarError ApiResult}
    (h : Relation.ReflTransGen Undisturbed ⟨initial, [], []⟩ c) :
    ∀ t ∈ c.tasks, ∀ (client : ClavenarClient) (call : GovernedCall), t.start = call.run client →
      ∀ result, t.Returned result → ∀ request effect,
        (⟨.execute request, .ok effect⟩ : Event Answer) ∈ t.history →
        validateExecutionEffect effect = .ok () →
        ∃ recorded, result =
          .ok (call.onCompleted ⟨recorded, effect.result, effect.effectId⟩) := by
  have hbenign : ∀ t ∈ c.tasks, ∀ (client : ClavenarClient) (call : GovernedCall),
      t.start = call.run client → ∀ event ∈ t.history, Benign event := by
    induction h with
    | refl => simp
    | tail _ hstep ih => exact benign_step hstep.1 hstep.2 ih
  have hreachable : c.Reachable (env.restrict fun _ => Records) GovernedOrFlush := by
    clear hbenign
    induction h with
    | refl => exact .init rfl
    | tail _ hstep ih => exact ih.step hstep.1
  intro t ht client call hstart result hreturned request effect hmem heffect
  have hreturns := (hreachable.consistent t ht).2.returns hreturned
  rw [hstart] at hreturns
  exact call.completed_of_benign (hjoins _) hreturns (hbenign t ht client call hstart) hmem heffect

end

namespace Fixture

attribute [local instance] crates

/-- The entry of the completion, as the store builds it. -/
theorem outboxEntry_completion : outboxEntry completion = entry := by
  have hid : "receipt-" ++ completion.authorizationId.toText = entry.outboxId := by decide +kernel
  rw [outboxEntry, hid]
  rfl

/-- The operations of the call of the test up to the confirmation of its receipt. -/
def confirmed : List (Event Answer) := [
  ⟨.postDecision (call.decisionRequest (client ()) ((client ()).baseUrl ++ "mcp")), .ok decision⟩,
  ⟨.beginEffectAttempt (intentOf executor.id authorization) .direct, .ok .started⟩,
  ⟨.execute (requestOf executor.id authorization), .ok effect⟩,
  ⟨.commitEffectAndEnqueueReceipt completion, .ok entry⟩,
  ⟨.postReceipt (sends entry), .ok (.ofText 201 recorded.text)⟩]

/-- A delivery whose receipt is confirmed ends with the answer to its mark. -/
theorem returns_delivery (mark : Except ClavenarError Unit) :
    ((client ()).deliverOutboxEntry entry).Returns
      [⟨.postReceipt (sends entry), .ok (.ofText 201 recorded.text)⟩,
        ⟨.markReceiptDelivered entry.outboxId receiptRecorded, mark⟩]
      ((fun _ => receiptRecorded) <$> mark) := by
  have hjoin : joinUrl (client ()).baseUrl "execution-receipts" =
      .ok ((client ()).baseUrl ++ "execution-receipts") := rfl
  rw [deliverOutboxEntry_eq, validateOutboxEntry_entry]
  simp only [hjoin]
  refine Prog.returns_await_iff.mpr ⟨_, _, rfl, ?_⟩
  simp only [markConfirmed, confirmReceipt_recorded]
  refine Prog.returns_await_iff.mpr ⟨mark, [], rfl, ?_⟩
  cases mark with
  | error error => exact Prog.returns_done_iff.mpr ⟨rfl, rfl⟩
  | ok _ => exact Prog.returns_done_iff.mpr ⟨rfl, rfl⟩

/-- The call of the test ends with the answer to its mark. -/
theorem returns_marked (mark : Except ClavenarError Unit) : (call.run (client ())).Returns
    (confirmed ++ [⟨.markReceiptDelivered entry.outboxId receiptRecorded, mark⟩])
    (call.onCompleted <$> (fun recorded => ⟨recorded, effect.result, effect.effectId⟩) <$>
      (fun _ => receiptRecorded) <$> mark) := by
  have hexecuted : ((client ()).executeAuthorization executor () authorization false).Returns _ _ :=
    executeAuthorization_delivered (by decide +kernel : validateExecutionEffect effect = .ok ())
      rfl (returns_delivery mark)
  exact GovernedCall.returns_executed (gate_call ()) rfl decide_call hexecuted

/-- What a flush of the entry of the test performs before its mark. -/
def flushPosted : List (Event Answer) := [
  ⟨.pendingReceipts 128, .ok [entry]⟩,
  ⟨.postReceipt (sends entry), .ok (.ofText 201 recorded.text)⟩]

/-- A flush of the entry of the test ends with the answer to its mark. -/
theorem returns_flush (mark : Except ClavenarError Unit) :
    ((ApiCall.flushExecutionReceiptOutbox 128).run (client ())).Returns
      (flushPosted ++ [⟨.markReceiptDelivered entry.outboxId receiptRecorded, mark⟩])
      ((fun _ => .flushed 1) <$> mark) := by
  have hstore : (client ()).durableExecutionStore = some ⟨true, true⟩ := rfl
  refine Prog.returns_bind_pure_iff.mpr ⟨(fun _ => 1) <$> mark, ?_, by cases mark <;> rfl⟩
  rw [flushExecutionReceiptOutbox_eq (by decide : 0 < 128 ∧ 128 ≤ maxOutboxFlush) hstore]
  refine Prog.returns_await_iff.mpr ⟨_, _, rfl, ?_⟩
  rw [deliverListed_ok (by simp), deliverEntries]
  cases mark with
  | error error =>
    exact Prog.returns_bind_iff.mpr (.inl ⟨error, returns_delivery (.error error), rfl⟩)
  | ok _ =>
    exact Prog.returns_bind_iff.mpr (.inr ⟨_, [], receiptRecorded, (List.append_nil _).symm,
      returns_delivery (.ok ()), .here _⟩)

/-- No call that executes lists the outbox, so no flush is one. -/
theorem flush_not_governed :
    ¬∃ (client' : ClavenarClient) (call' : GovernedCall),
      (ApiCall.flushExecutionReceiptOutbox 128).run (client ()) = call'.run client' := by
  rintro ⟨client', call', heq⟩
  have hreach : Prog.Reach _ ([] ++ (⟨.pendingReceipts 128, .ok [entry]⟩ : Event Answer) :: _) _ :=
    returns_flush (.ok ())
  have hlists := hreach.invokes_of_append_cons
  rw [heq] at hlists
  exact (governed_ordered client' call').of_invokes hlists

/-- The Proxy of the test confirms the receipt of the test. -/
theorem records_entry :
    Records ⟨.postReceipt (sends entry), .ok (.ofText 201 recorded.text)⟩ := by
  intro client endpoint receipt hrequest
  have hjson : toJson entry.receipt = toJson receipt := congrArg PostRequest.json hrequest
  have hid : entry.receipt.authorizationId = receipt.authorizationId :=
    authorizationId_of_toJson hjson
  exact ⟨receiptRecorded, confirmReceipt_eq_ok_iff.mpr
    ⟨⟨_, rfl, decodeReceiptRecorded_recorded⟩, hid, rfl, rfl⟩⟩

/-- The store of the test when its attempt is started. -/
def started : MemoryExecutionStore := initial.start (intentOf executor.id authorization) .direct

/-- The store of the test when its effect is committed. -/
def committed : MemoryExecutionStore := started.commitEffectAndEnqueueReceipt completion

/-- After the commit the entry is pending. -/
theorem pending_committed : committed.pending = [entry] := by
  have hpending : committed.pending = [outboxEntry completion] := rfl
  rw [hpending, outboxEntry_completion]

/-- The environment of the test answers the call up to the confirmation. -/
theorem answered_confirmed (start : Call ApiResult) :
    ((env.restrict fun _ => Records).restrict (MarksPending start)).Answered initial confirmed
      committed := by
  refine .cons ⟨⟨rfl, trivial⟩, trivial⟩ (.cons ⟨⟨starts_call.eq.1.symm, trivial⟩, trivial⟩
    (.cons ⟨⟨rfl, trivial⟩, trivial⟩ (.cons ⟨⟨⟨?_, rfl⟩, trivial⟩, trivial⟩
      (.cons ⟨⟨rfl, records_entry⟩, trivial⟩ .nil))))
  rw [outboxEntry_completion]

/-- The store of the test marks the entry while it is in the outbox. -/
theorem answers_marked {store : MemoryExecutionStore} (h : store.pending = [entry]) :
    store.Answers (.markReceiptDelivered entry.outboxId receiptRecorded) (.ok ())
      (store.deliver 0 entry.outboxId receiptRecorded) := by
  simp [Answers, markReceiptDelivered, h]

/-- The answer to the mark of an entry that was marked before. -/
def refused : Except ClavenarError Unit :=
  .error (.invalidConfig "receipt outbox entry is not pending")

/-- The store of the test refuses to mark the entry a second time. -/
theorem answers_refused {store : MemoryExecutionStore} (h : store.pending = []) :
    store.Answers (.markReceiptDelivered entry.outboxId receiptRecorded) refused store := by
  simp [Answers, markReceiptDelivered, refused, h]

/-- A run of the test with a flush that comes too late: it sends the receipt of the call a second
time, and the call marks it first. -/
theorem undisturbed_call : ∃ c : Sys MemoryExecutionStore Op Answer ClavenarError ApiResult,
    Relation.ReflTransGen Undisturbed ⟨initial, [], []⟩ c ∧ c.tasks = [
      ⟨call.run (client ()),
        confirmed ++ [⟨.markReceiptDelivered entry.outboxId receiptRecorded, .ok ()⟩],
        .ready (.done (.ok (call.onCompleted
          ⟨receiptRecorded, effect.result, effect.effectId⟩)))⟩,
      ⟨(ApiCall.flushExecutionReceiptOutbox 128).run (client ()),
        flushPosted ++ [⟨.markReceiptDelivered entry.outboxId receiptRecorded, refused⟩],
        .ready (.done ((fun _ => .flushed 1) <$> refused))⟩] := by
  have hspawn : ∀ {c : Sys MemoryExecutionStore Op Answer ClavenarError ApiResult}
      {p : Call ApiResult}, GovernedOrFlush p →
        Undisturbed c ⟨c.shared, c.tasks ++ [.fresh p], c.log⟩ := by
    intro c p hp
    refine ⟨.spawn hp, ?_⟩
    intro i t t' client call outboxId recorded answer hold hnew _ hmark
    rw [List.getElem?_append_left (List.getElem?_eq_some_iff.mp hold).1, hold] at hnew
    obtain rfl := Option.some.inj hnew
    simp at hmark
  obtain ⟨p, hbefore, hafter⟩ := (returns_marked (.ok ())).append
  obtain ⟨q, hposts, hmarks⟩ := (returns_flush refused).append
  let sent : Task Op Answer ClavenarError ApiResult :=
    ⟨call.run (client ()), confirmed, .ready p⟩
  have hcall : Undisturbed ⟨initial, [], []⟩ ⟨initial, [.fresh (call.run (client ()))], []⟩ :=
    hspawn (.inl ⟨client (), call, rfl⟩)
  have hconfirmed : Relation.ReflTransGen Undisturbed
      ⟨initial, [.fresh (call.run (client ()))], []⟩ ⟨committed, [sent], confirmed⟩ :=
    undisturbed_follow (c := ⟨initial, [.fresh (call.run (client ()))], []⟩) (i := 0) rfl hbefore
      (answered_confirmed _)
  have hflush : Undisturbed ⟨committed, [sent], confirmed⟩ ⟨committed,
      [sent, .fresh ((ApiCall.flushExecutionReceiptOutbox 128).run (client ()))], confirmed⟩ :=
    hspawn (.inr ⟨client (), 128, rfl⟩)
  have hposted := undisturbed_follow (c := ⟨committed,
    [sent, .fresh ((ApiCall.flushExecutionReceiptOutbox 128).run (client ()))], confirmed⟩)
    (i := 1) rfl hposts
    (.cons ⟨⟨⟨by rw [pending_committed]; rfl, rfl⟩, trivial⟩, trivial⟩
      (.cons ⟨⟨rfl, records_entry⟩, trivial⟩ .nil))
  have hmarked := undisturbed_follow (c := ⟨committed,
    [sent, ⟨(ApiCall.flushExecutionReceiptOutbox 128).run (client ()), flushPosted, .ready q⟩],
      confirmed ++ flushPosted⟩) (i := 0) rfl hafter
    (.cons ⟨⟨answers_marked pending_committed, trivial⟩,
      fun _ => ⟨entry, by simp [pending_committed], rfl⟩⟩ .nil)
  have hrefused := undisturbed_follow (c := ⟨committed.deliver 0 entry.outboxId receiptRecorded,
    [⟨call.run (client ()),
        confirmed ++ [⟨.markReceiptDelivered entry.outboxId receiptRecorded, .ok ()⟩],
        .ready (.done (.ok (call.onCompleted
          ⟨receiptRecorded, effect.result, effect.effectId⟩)))⟩,
      ⟨(ApiCall.flushExecutionReceiptOutbox 128).run (client ()), flushPosted, .ready q⟩],
      confirmed ++ flushPosted ++ [⟨.markReceiptDelivered entry.outboxId receiptRecorded, .ok ()⟩]⟩)
    (i := 1) rfl hmarks
    (.cons ⟨⟨answers_refused (by simp [deliver, pending_committed]), trivial⟩,
      fun hgoverned => absurd hgoverned flush_not_governed⟩ .nil)
  exact ⟨_, ((((Relation.ReflTransGen.single hcall).trans hconfirmed).tail hflush).trans
    hposted).trans (hmarked.trans hrefused), rfl⟩

/-- In a run of the test with a flush that comes too late. -/
theorem executed_of_ownMarkPending_call :
    ∃ c : Sys MemoryExecutionStore Op Answer ClavenarError ApiResult,
      Relation.ReflTransGen Undisturbed ⟨initial, [], []⟩ c ∧
      (∃ t ∈ c.tasks, Flushes t.start ∧ ∃ result, t.Returned result) ∧
      ∃ t ∈ c.tasks, t.start = call.run (client ()) ∧ ∃ recorded,
        t.Returned (.ok (call.onCompleted ⟨recorded, effect.result, effect.effectId⟩)) := by
  obtain ⟨c, hrun, htasks⟩ := undisturbed_call
  have hexecuted := executed_of_ownMarkPending (fun _ _ _ => ⟨_, rfl⟩) hrun
  refine ⟨c, hrun, ?_⟩
  rw [htasks] at hexecuted ⊢
  refine ⟨⟨_, List.mem_cons_of_mem _ List.mem_cons_self, ⟨client (), 128, rfl⟩, _, rfl⟩,
    _, List.mem_cons_self, rfl, ?_⟩
  obtain ⟨recorded, hresult⟩ := hexecuted _ List.mem_cons_self (client ()) call rfl _ rfl
    (requestOf executor.id authorization) effect (by simp [confirmed]) (by decide +kernel)
  exact ⟨recorded, congrArg (fun result => Phase.ready (Prog.done result)) hresult⟩

/-- A flush delivers and marks the entry of the call between the confirmation of its receipt and
its mark. The call reports an error about an effect that is complete and a receipt that is
delivered. -/
theorem overtaken_by_flush :
    ∃ c : Sys MemoryExecutionStore Op Answer ClavenarError ApiResult,
      c.Reachable (env.restrict fun _ => Records) GovernedOrFlush ∧
      c.shared.delivered = [(entry.outboxId, receiptRecorded)] ∧
      ∃ t ∈ c.tasks, t.start = call.run (client ()) ∧
        (⟨.execute (requestOf executor.id authorization), .ok effect⟩ : Event Answer) ∈
          t.history ∧
        validateExecutionEffect effect = .ok () ∧ ∃ error, t.Returned (.error error) := by
  have hinit : Sys.Reachable (env.restrict fun _ => Records) GovernedOrFlush
      ⟨initial, [], []⟩ := .init rfl
  obtain ⟨p, hbefore, hafter⟩ := (returns_marked refused).append
  have hcall := hinit.spawn (.inl ⟨client (), call, rfl⟩)
  have hconfirmed := hcall.follow (i := 0) rfl hbefore
    (answered_confirmed (call.run (client ()))).of_restrict
  have hflush := hconfirmed.spawn (.inr ⟨client (), 128, rfl⟩)
  have hflushed := hflush.follow (i := 1) rfl (returns_flush (.ok ()))
    (.cons ⟨⟨by rw [pending_committed]; rfl, rfl⟩, trivial⟩ (.cons ⟨rfl, records_entry⟩
      (.cons ⟨answers_marked pending_committed, trivial⟩ .nil)))
  have hrefused := hflushed.follow (i := 0) rfl hafter
    (.cons ⟨answers_refused (by simp [deliver, pending_committed]), trivial⟩ .nil)
  refine ⟨_, hrefused, rfl, _, List.mem_cons_self, rfl, ?_, by decide +kernel, _, rfl⟩
  simp [confirmed]

end Fixture

end ClavenarSdk
