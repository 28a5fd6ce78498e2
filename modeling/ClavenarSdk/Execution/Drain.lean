import ClavenarSdk.Execution.Outbox

/-!
# Draining the outbox

What repeated flushes make of an outbox while the Proxy answers as it pleases, and remembers what
it likes: they deliver entries from its front, in order, and a flush that returns has delivered
all that it was allowed to.
-/

namespace ClavenarSdk

open Interaction ClavenarClient MemoryExecutionStore

/-- The handler answers the operations of a flush from the store that it holds. What the Proxy
answers, and what else the handler remembers, is left open. -/
structure ServesOutbox {σ : Type} (handler : Handler σ Answer) (held : σ → MemoryExecutionStore) :
    Prop where
  listed : ∀ s limit, (handler s (.pendingReceipts limit)).1 = .ok ((held s).pending.take limit)
  listing : ∀ s limit, held (handler s (.pendingReceipts limit)).2 = held s
  posting : ∀ s request, held (handler s (.postReceipt request)).2 = held s
  marked : ∀ s outboxId recorded, (handler s (.markReceiptDelivered outboxId recorded)).1 =
    ((held s).markReceiptDelivered outboxId recorded).1
  marking : ∀ s outboxId recorded, held (handler s (.markReceiptDelivered outboxId recorded)).2 =
    ((held s).markReceiptDelivered outboxId recorded).2

/-- The confirmation names the receipt of the entry. -/
def Confirms (entry : ReceiptOutboxEntry) (recorded : ReceiptRecorded) : Prop :=
  recorded.authorizationId = entry.receipt.authorizationId ∧
    recorded.contract = executionContract ∧ recorded.stage = "execution.completed"

/-- These entries were delivered from the front of the outbox, in order, each with a confirmation
of its receipt, and nothing else changed but the recorded order of events. -/
structure DeliversFront (store store' : MemoryExecutionStore)
    (front : List (ReceiptOutboxEntry × ReceiptRecorded)) : Prop where
  pending : store.pending = front.map Prod.fst ++ store'.pending
  delivered : store'.delivered =
    store.delivered ++ front.map fun pair => (pair.1.outboxId, pair.2)
  confirmed : ∀ pair ∈ front, Confirms pair.1 pair.2
  others : store' = { store with
    pending := store'.pending, delivered := store'.delivered, ordering := store'.ordering }

namespace DeliversFront

variable {store store' store'' : MemoryExecutionStore}
  {front front' : List (ReceiptOutboxEntry × ReceiptRecorded)}

/-- Nothing is delivered where nothing happens. -/
theorem refl (store : MemoryExecutionStore) : DeliversFront store store [] where
  pending := rfl
  delivered := by simp
  confirmed := by simp
  others := rfl

/-- What two runs deliver one after the other comes off the front in their order. -/
theorem trans (h : DeliversFront store store' front) (h' : DeliversFront store' store'' front') :
    DeliversFront store store'' (front ++ front') where
  pending := by rw [h.pending, h'.pending, List.map_append, List.append_assoc]
  delivered := by rw [h'.delivered, h.delivered, List.map_append, List.append_assoc]
  confirmed pair hmem := (List.mem_append.mp hmem).elim (h.confirmed pair) (h'.confirmed pair)
  others := by
    rw [h'.others, h.others]

/-- What stays in the outbox is what comes after the delivered entries. -/
theorem pending_eq_drop (h : DeliversFront store store' front) :
    store'.pending = store.pending.drop front.length := by
  have hlength : front.length = (front.map Prod.fst).length := (List.length_map _).symm
  rw [h.pending, hlength, List.drop_left]

/-- Every delivered entry leaves the outbox. -/
theorem length_pending (h : DeliversFront store store' front) :
    store'.pending.length = store.pending.length - front.length := by
  rw [h.pending_eq_drop, List.length_drop]

/-- The entry at the front is delivered. -/
theorem deliver {entry : ReceiptOutboxEntry} {rest : List ReceiptOutboxEntry}
    {recorded : ReceiptRecorded} (hfront : store.pending = entry :: rest)
    (hconfirms : Confirms entry recorded) :
    DeliversFront store (store.deliver 0 entry.outboxId recorded) [(entry, recorded)] where
  pending := by simp [MemoryExecutionStore.deliver, hfront]
  delivered := rfl
  confirmed pair hmem := by
    obtain rfl := List.mem_singleton.mp hmem
    exact hconfirms
  others := rfl

end DeliversFront

/-- The entry at the front of the outbox can be marked. -/
theorem markReceiptDelivered_front {store : MemoryExecutionStore} {entry : ReceiptOutboxEntry}
    {rest : List ReceiptOutboxEntry} (h : store.pending = entry :: rest)
    (recorded : ReceiptRecorded) : store.markReceiptDelivered entry.outboxId recorded =
      (.ok (), store.deliver 0 entry.outboxId recorded) := by
  simp [markReceiptDelivered, h, List.findIdx?_cons]

section

variable [Crates] {σ : Type} {handler : Handler σ Answer} {held : σ → MemoryExecutionStore}
  {client : ClavenarClient} {entry : ReceiptOutboxEntry} {rest : List ReceiptOutboxEntry} {s : σ}

/-- The entry is well formed, and the Proxy confirms its receipt whenever it is asked. -/
def AlwaysConfirmed (handler : Handler σ Answer) (client : ClavenarClient)
    (entry : ReceiptOutboxEntry) : Prop :=
  validateOutboxEntry entry = .ok () ∧
    ∃ endpoint, joinUrl client.baseUrl "execution-receipts" = .ok endpoint ∧
      ∀ s, ∃ recorded, confirmReceipt entry.receipt
        (handler s (.postReceipt (receiptRequest client endpoint entry.receipt))).1 = .ok recorded

/-! ### One flush -/

/-- A delivery of the entry at the front moves it, or changes nothing and fails for a reason. -/
theorem ServesOutbox.deliverOutboxEntry_front (hserves : ServesOutbox handler held)
    (client : ClavenarClient)
    (hfront : (held s).pending = entry :: rest) :
    let final := (client.deliverOutboxEntry entry).eval handler s
    (∃ recorded, final.2 = .ok recorded ∧
      DeliversFront (held s) (held final.1) [(entry, recorded)]) ∨
    (∃ error, final.2 = .error error) ∧ held final.1 = held s ∧
      ¬AlwaysConfirmed handler client entry := by
  rw [deliverOutboxEntry_eq]
  cases hvalid : validateOutboxEntry entry with
  | error error => exact .inr ⟨⟨error, rfl⟩, rfl, fun h => by simp [hvalid, AlwaysConfirmed] at h⟩
  | ok _ =>
    simp only
    cases hjoin : joinUrl client.baseUrl "execution-receipts" with
    | error error =>
      refine .inr ⟨⟨_, rfl⟩, rfl, ?_⟩
      rintro ⟨-, endpoint, h, -⟩
      simp [hjoin] at h
    | ok endpoint =>
      have hposting := hserves.posting s (receiptRequest client endpoint entry.receipt)
      have hunconfirmed : ∀ error, confirmReceipt entry.receipt (handler s (.postReceipt
          (receiptRequest client endpoint entry.receipt))).1 = .error error →
          ¬AlwaysConfirmed handler client entry := by
        rintro error herror ⟨-, endpoint', hjoin', h⟩
        obtain rfl := Except.ok.inj (hjoin.symm.trans hjoin')
        obtain ⟨recorded, h⟩ := h s
        simp [herror] at h
      simp only [Prog.eval_await, markConfirmed]
      generalize handler s (.postReceipt (receiptRequest client endpoint entry.receipt)) = posted
        at hposting hunconfirmed
      cases hconfirm : confirmReceipt entry.receipt posted.1 with
      | error error => exact .inr ⟨⟨error, rfl⟩, hposting, hunconfirmed error hconfirm⟩
      | ok recorded =>
        have hmarked := hserves.marked posted.2 entry.outboxId recorded
        have hmarking := hserves.marking posted.2 entry.outboxId recorded
        rw [hposting, markReceiptDelivered_front hfront] at hmarked hmarking
        simp only [Prog.eval_await, hmarked]
        refine .inl ⟨recorded, rfl, ?_⟩
        change DeliversFront _ (held (handler posted.2 _).2) _
        rw [hmarking]
        exact .deliver hfront (confirmReceipt_eq_ok_iff.mp hconfirm).2

/-- The loop delivers the entries that it was given from the front on, all of them if it returns
and fewer if it fails. -/
theorem ServesOutbox.deliverEntries_front (hserves : ServesOutbox handler held)
    (client : ClavenarClient) {entries : List ReceiptOutboxEntry}
    (hfront : (held s).pending = entries ++ rest) (n : ℕ) :
    let final := (client.deliverEntries n entries).eval handler s
    ∃ front, DeliversFront (held s) (held final.1) front ∧
      (final.2 = .ok (n + entries.length) ∧ front.length = entries.length ∨
        (∃ error, final.2 = .error error) ∧ front.length < entries.length ∧
          ∃ entry ∈ entries, ¬AlwaysConfirmed handler client entry) := by
  induction entries generalizing s n with
  | nil => exact ⟨[], .refl _, .inl ⟨rfl, rfl⟩⟩
  | cons entry entries ih =>
    rw [deliverEntries, Prog.bind_eq_andThen, Prog.eval_andThen]
    rcases hserves.deliverOutboxEntry_front client hfront with
      ⟨recorded, hresult, hdelivers⟩ | ⟨⟨error, hresult⟩, hheld, hunconfirmed⟩
    · have hrest : entries ++ rest = _ := (List.cons.inj (hfront.symm.trans hdelivers.pending)).2
      obtain ⟨front, hfront', hends⟩ := ih hrest.symm (n + 1)
      simp only [hresult]
      refine ⟨_, hdelivers.trans hfront', ?_⟩
      rcases hends with ⟨hreturns, hlength⟩ | ⟨hfails, hlength, failing, hmem, hunconfirmed⟩
      · refine .inl ⟨hreturns.trans ?_, by simp [hlength]⟩
        rw [List.length_cons, Nat.add_right_comm, Nat.add_assoc]
      · exact .inr ⟨hfails, by simpa using hlength, failing, List.mem_cons_of_mem _ hmem,
          hunconfirmed⟩
    · simp only [hresult]
      exact ⟨[], hheld ▸ .refl _, .inr ⟨⟨error, rfl⟩, by simp, entry, List.mem_cons_self,
        hunconfirmed⟩⟩

/-- A flush delivers from the front what its limit allows and returns how many entries this were,
or it fails and has delivered less. -/
theorem ServesOutbox.flush_front (hserves : ServesOutbox handler held) {limit : ℕ}
    {store : DurableExecutionStore} (hlimit : 0 < limit ∧ limit ≤ maxOutboxFlush)
    (hstore : client.durableExecutionStore = some store) (s : σ) :
    let final := (client.flushExecutionReceiptOutbox limit).eval handler s
    ∃ front, DeliversFront (held s) (held final.1) front ∧
      (final.2 = .ok front.length ∧ front.length = min limit (held s).pending.length ∨
        (∃ error, final.2 = .error error) ∧ front.length < min limit (held s).pending.length ∧
          ∃ entry ∈ (held s).pending, ¬AlwaysConfirmed handler client entry) := by
  rw [flushExecutionReceiptOutbox_eq hlimit hstore, Prog.eval_await, hserves.listed,
    deliverListed_ok (List.length_take_le _ _)]
  have hheld := hserves.listing s limit
  have hfront : (held (handler s (.pendingReceipts limit)).2).pending =
      (held s).pending.take limit ++ (held s).pending.drop limit := by
    rw [hheld, List.take_append_drop]
  obtain ⟨front, hdelivers, hends⟩ := hserves.deliverEntries_front client hfront 0
  rw [hheld] at hdelivers
  rw [List.length_take] at hends
  refine ⟨front, hdelivers, hends.imp ?_ ?_⟩
  · rintro ⟨hreturns, hlength⟩
    rw [hlength]
    exact ⟨hreturns.trans (by rw [Nat.zero_add]), rfl⟩
  · rintro ⟨hfails, hlength, failing, hmem, hunconfirmed⟩
    exact ⟨hfails, hlength, failing, List.mem_of_mem_take hmem, hunconfirmed⟩

/-! ### Many flushes -/

/-- Flushes with these limits, one after the other, with what each of them returned. -/
def flushAll (handler : Handler σ Answer) (client : ClavenarClient) :
    List ℕ → σ → σ × List (Except ClavenarError ℕ)
  | [], s => (s, [])
  | limit :: limits, s =>
    let run := (client.flushExecutionReceiptOutbox limit).eval handler s
    let later := flushAll handler client limits run.1
    (later.1, run.2 :: later.2)

/-- The limit of a flush that returned; nothing for one that failed. -/
def grantedLimit : ℕ × Except ClavenarError ℕ → ℕ
  | (limit, .ok _) => limit
  | (_, .error _) => 0

/-- The number of entries that a flush returned; nothing for one that failed. -/
def returnedCount : Except ClavenarError ℕ → ℕ
  | .ok n => n
  | .error _ => 0

/-- The outbox drains. Whatever the Proxy answers to a series of flushes, and however it
remembers them: the flushes deliver entries from the front of the outbox, in order, none of them
twice and none out of turn, and change nothing else in the store; they return no more than was
delivered; every flush that returns has delivered as many entries as its limit allows. When the
Proxy confirms every receipt, the flushes deliver the whole outbox as soon as their limits add up
to its length. -/
theorem outbox_drains (hserves : ServesOutbox handler held) {store : DurableExecutionStore}
    (hstore : client.durableExecutionStore = some store) {limits : List ℕ}
    (hlimits : ∀ limit ∈ limits, 0 < limit ∧ limit ≤ maxOutboxFlush) (s : σ) :
    let final := flushAll handler client limits s
    ∃ front, DeliversFront (held s) (held final.1) front ∧
      final.2.length = limits.length ∧ (final.2.map returnedCount).sum ≤ front.length ∧
      (held final.1).pending.length ≤
        (held s).pending.length - ((limits.zip final.2).map grantedLimit).sum ∧
      ((∀ entry ∈ (held s).pending, AlwaysConfirmed handler client entry) →
        (held final.1).pending = (held s).pending.drop limits.sum) := by
  induction limits generalizing s with
  | nil => exact ⟨[], .refl _, rfl, by simp [flushAll], by simp [flushAll], by simp [flushAll]⟩
  | cons limit limits ih =>
    rw [List.forall_mem_cons] at hlimits
    obtain ⟨front, hdelivers, hends⟩ := hserves.flush_front hlimits.1 hstore s
    obtain ⟨front', hdelivers', hlength, hreturned, hleft, hconfirmed⟩ := ih hlimits.2
      ((client.flushExecutionReceiptOutbox limit).eval handler s).1
    refine ⟨front ++ front', hdelivers.trans hdelivers', by simp [flushAll, hlength], ?_, ?_, ?_⟩
    · simp only [flushAll, List.map_cons, List.sum_cons, List.length_append]
      rcases hends with ⟨hreturns, -⟩ | ⟨⟨error, hfails⟩, -⟩
      · rw [hreturns, returnedCount]
        omega
      · rw [hfails, returnedCount]
        omega
    · have hpending := hdelivers.length_pending
      simp only [flushAll, List.zip_cons_cons, List.map_cons, List.sum_cons]
      rcases hends with ⟨hreturns, hall⟩ | ⟨⟨error, hfails⟩, -⟩
      · rw [hreturns, grantedLimit]
        omega
      · rw [hfails, grantedLimit]
        omega
    · intro hall
      rcases hends with ⟨-, hlimit⟩ | ⟨-, -, entry, hmem, hunconfirmed⟩
      · have hpending := hdelivers.pending_eq_drop
        have hrest := hconfirmed fun entry hmem =>
          hall entry (List.mem_of_mem_drop (hpending ▸ hmem))
        have hdrop : (held s).pending.drop front.length = (held s).pending.drop limit := by
          rw [hlimit, ← List.drop_eq_drop_min]
        rw [hpending, hdrop, List.drop_drop] at hrest
        simpa [flushAll] using hrest
      · exact absurd (hall entry hmem) hunconfirmed

end

/-- The surroundings of a call that runs alone serve the outbox of their store. -/
theorem Surroundings.servesOutbox (w : Surroundings) : ServesOutbox w.handler id where
  listed _ _ := rfl
  listing _ _ := rfl
  posting _ _ := rfl
  marked _ _ _ := rfl
  marking _ _ _ := rfl

namespace Fixture

attribute [local instance] crates

/-- The entry of the test is confirmed whenever it is sent. -/
theorem alwaysConfirmed_entry : AlwaysConfirmed surroundings.handler (client ()) entry :=
  ⟨validateOutboxEntry_entry, _, rfl, fun _ => ⟨_, confirmReceipt_recorded⟩⟩

/-- The flush of the test drains its outbox. -/
theorem outbox_drains_flush :
    (flushAll surroundings.handler (client ()) [128] undelivered).1.pending = [] := by
  have hpending : undelivered.pending = [entry] := rfl
  obtain ⟨front, -, -, -, -, hdrained⟩ := outbox_drains surroundings.servesOutbox
    (show (client ()).durableExecutionStore = some ⟨true, true⟩ from rfl)
    (show ∀ limit ∈ [128], 0 < limit ∧ limit ≤ maxOutboxFlush by decide) undelivered
  have hall : ∀ other ∈ undelivered.pending,
      AlwaysConfirmed surroundings.handler (client ()) other := by
    rw [hpending]
    intro other hother
    rw [List.mem_singleton.mp hother]
    exact alwaysConfirmed_entry
  have hlength : undelivered.pending.length ≤ [128].sum := by
    rw [hpending]
    decide
  simp only [id] at hdrained
  rw [hdrained hall, List.drop_of_length_le hlength]

end Fixture

end ClavenarSdk
