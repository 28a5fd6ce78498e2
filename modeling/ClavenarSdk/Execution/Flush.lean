import ClavenarSdk.Execution.Outbox

/-!
# A flush with failing entries

What one flush does with the entries that it loaded, against the loop that would try each of them
whatever became of the others. The loop of the source stops at the first entry that fails.
-/

namespace ClavenarSdk

open Interaction ClavenarClient MemoryExecutionStore

section

variable [Crates]

/-- One try to deliver an entry. -/
structure Attempt where
  entry : ReceiptOutboxEntry
  /-- How the delivery ended. -/
  outcome : Except ClavenarError ReceiptRecorded
  /-- What it did. -/
  events : List (Event Answer)

/-- The delivery succeeded. -/
def Attempt.Succeeds (a : Attempt) : Prop := ∃ recorded, a.outcome = .ok recorded

/-- The entry is well formed, and the client can send its receipt. -/
def Sends (client : ClavenarClient) (entry : ReceiptOutboxEntry) : Prop :=
  validateOutboxEntry entry = .ok () ∧
    ∃ endpoint, joinUrl client.baseUrl "execution-receipts" = .ok endpoint

variable {σ : Type} {handler : Handler σ Answer} {client : ClavenarClient}

/-- Every entry tried once, in order, whatever becomes of the others. -/
def attempts (handler : Handler σ Answer) (client : ClavenarClient) :
    σ → List ReceiptOutboxEntry → List Attempt
  | _, [] => []
  | s, entry :: entries =>
    let final := (client.deliverOutboxEntry entry).eval handler s
    ⟨entry, final.2, (client.deliverOutboxEntry entry).trace handler s⟩ ::
      attempts handler client final.1 entries

/-- An entry that can be sent is sent. -/
theorem trace_deliverOutboxEntry_eq_nil_iff {s : σ} {entry : ReceiptOutboxEntry} :
    (client.deliverOutboxEntry entry).trace handler s = [] ↔ ¬Sends client entry := by
  rw [deliverOutboxEntry_eq, Sends]
  cases validateOutboxEntry entry with
  | error error => simp [Prog.fail, Prog.trace]
  | ok _ =>
    cases joinUrl client.baseUrl "execution-receipts" with
    | error error => simp [Prog.fail, Prog.trace]
    | ok endpoint => simp [Prog.trace]

/-- An attempt does nothing only at an entry that cannot be sent. -/
theorem events_eq_nil_iff {s : σ} {entries : List ReceiptOutboxEntry} {a : Attempt}
    (ha : a ∈ attempts handler client s entries) : a.events = [] ↔ ¬Sends client a.entry := by
  induction entries generalizing s with
  | nil => simp [attempts] at ha
  | cons entry entries ih =>
    rcases List.mem_cons.mp ha with rfl | ha
    · exact trace_deliverOutboxEntry_eq_nil_iff
    · exact ih ha

/-- A delivery that succeeds has marked its entry. -/
theorem deliverOutboxEntry_marks (entry : ReceiptOutboxEntry) (history : List (Event Answer)) :
    Prog.Always (fun _ _ => True) (fun history' result => ∀ recorded, result = .ok recorded →
      (⟨.markReceiptDelivered entry.outboxId recorded, .ok ()⟩ : Event Answer) ∈ history')
      history (client.deliverOutboxEntry entry) := by
  rw [deliverOutboxEntry_eq]
  cases validateOutboxEntry entry with
  | error error => simp
  | ok _ =>
    cases joinUrl client.baseUrl "execution-receipts" with
    | error error => simp
    | ok endpoint =>
      refine ⟨trivial, fun answer => ?_⟩
      unfold markConfirmed
      cases confirmReceipt entry.receipt answer with
      | error error => simp
      | ok recorded =>
        refine ⟨trivial, fun answer => ?_⟩
        cases answer with
        | error error => simp
        | ok _ => simp

/-- An attempt that succeeds has marked its entry. -/
theorem marked_of_mem_attempts {s : σ} {entries : List ReceiptOutboxEntry} {a : Attempt}
    (ha : a ∈ attempts handler client s entries) {recorded : ReceiptRecorded}
    (h : a.outcome = .ok recorded) :
    (⟨.markReceiptDelivered a.entry.outboxId recorded, .ok ()⟩ : Event Answer) ∈ a.events := by
  induction entries generalizing s with
  | nil => simp [attempts] at ha
  | cons entry entries ih =>
    rcases List.mem_cons.mp ha with rfl | ha
    · exact (deliverOutboxEntry_marks entry []).of_returns (Prog.returns_trace s _) recorded h
    · exact ih ha

/-- The loop does what trying every entry would do exactly when no entry that can be sent stands
behind one whose delivery fails. -/
theorem trace_deliverEntries_eq_iff {s : σ} {entries : List ReceiptOutboxEntry} {n : ℕ} :
    (client.deliverEntries n entries).trace handler s =
        (attempts handler client s entries).flatMap Attempt.events ↔
      (attempts handler client s entries).Pairwise fun a b =>
        a.Succeeds ∨ ¬Sends client b.entry := by
  induction entries generalizing s n with
  | nil => simp [attempts, deliverEntries, Prog.trace]
  | cons entry entries ih =>
    rw [attempts, List.flatMap_cons, List.pairwise_cons]
    cases heval : (client.deliverOutboxEntry entry).eval handler s with
    | mk s' delivered =>
      cases delivered with
      | ok recorded =>
        rw [trace_deliverEntries_delivered heval, List.append_cancel_left_eq, ih]
        have hsucceeds : ∀ events, Attempt.Succeeds ⟨entry, .ok recorded, events⟩ :=
          fun _ => ⟨recorded, rfl⟩
        exact ⟨fun h => ⟨fun _ _ => .inl (hsucceeds _), h⟩, fun h => h.2⟩
      | error error =>
        have hfails : ∀ events, ¬Attempt.Succeeds ⟨entry, .error error, events⟩ := by
          rintro _ ⟨recorded, h⟩
          cases h
        rw [trace_deliverEntries_failed heval, List.self_eq_append_right, List.flatMap_eq_nil_iff]
        constructor
        · intro hquiet
          have hunsent : ∀ b ∈ attempts handler client s' entries, ¬Sends client b.entry :=
            fun b hb => (events_eq_nil_iff hb).mp (hquiet b hb)
          exact ⟨fun b hb => .inr (hunsent b hb),
            List.pairwise_of_forall_mem_list fun _ _ b hb => .inr (hunsent b hb)⟩
        · rintro ⟨hfirst, -⟩ b hb
          exact (events_eq_nil_iff hb).mpr ((hfirst b hb).resolve_left (hfails _))

/-- One bad receipt blocks what stands behind it. A flush tries every entry that it loaded once, and
marks every one whose own delivery succeeds, exactly when no entry that can be sent stands behind
one whose delivery fails. -/
theorem flush_attempts_iff {limit : ℕ} {store : DurableExecutionStore} {s s' : σ}
    {entries : List ReceiptOutboxEntry} (hlimit : 0 < limit ∧ limit ≤ maxOutboxFlush)
    (hstore : client.durableExecutionStore = some store)
    (hlisted : handler s (.pendingReceipts limit) = (.ok entries, s'))
    (hlength : entries.length ≤ limit) :
    ((client.flushExecutionReceiptOutbox limit).trace handler s =
        ⟨.pendingReceipts limit, .ok entries⟩ ::
          (attempts handler client s' entries).flatMap Attempt.events ∧
      ∀ a ∈ attempts handler client s' entries, ∀ recorded, a.outcome = .ok recorded →
        (⟨.markReceiptDelivered a.entry.outboxId recorded, .ok ()⟩ : Event Answer) ∈
          (client.flushExecutionReceiptOutbox limit).trace handler s) ↔
    (attempts handler client s' entries).Pairwise fun a b =>
      a.Succeeds ∨ ¬Sends client b.entry := by
  have htrace : (client.flushExecutionReceiptOutbox limit).trace handler s =
      ⟨.pendingReceipts limit, .ok entries⟩ ::
        (client.deliverEntries 0 entries).trace handler s' := by
    rw [flushExecutionReceiptOutbox_eq hlimit hstore, Prog.trace, hlisted, deliverListed_ok hlength]
  rw [htrace, List.cons_inj_right, ← trace_deliverEntries_eq_iff (n := 0)]
  refine ⟨fun h => h.1, fun h => ⟨h, fun a ha recorded hrecorded => ?_⟩⟩
  rw [h]
  exact List.mem_cons_of_mem _ (List.mem_flatMap.mpr ⟨a, ha, marked_of_mem_attempts ha hrecorded⟩)

end

namespace Fixture

attribute [local instance] crates

/-- A Proxy that rejects the first receipt that it is sent for good, and records the next ones,
over a store that lists two entries. -/
def rejecting : Handler ℕ Answer := proxy 0 [otherEntry, entry]

/-- A flush whose first entry is rejected asks for the entries, posts the first one and ends. -/
theorem trace_flush_rejecting :
    ((client ()).flushExecutionReceiptOutbox 128).trace rejecting 0 =
      [⟨.pendingReceipts 128, .ok [otherEntry, entry]⟩,
        ⟨.postReceipt (sends otherEntry), .ok rejection⟩] := by
  obtain ⟨error, heval, htrace⟩ := deliver_otherEntry 0 [otherEntry, entry]
  have hstore : (client ()).durableExecutionStore = some ⟨true, true⟩ := rfl
  have hflush := flushExecutionReceiptOutbox_eq (by decide : 0 < 128 ∧ 128 ≤ maxOutboxFlush) hstore
  have hlisted : rejecting 0 (.pendingReceipts 128) = (.ok [otherEntry, entry], 0) := rfl
  rw [hflush, Prog.trace, hlisted, deliverListed_ok (by simp), rejecting,
    trace_deliverEntries_failed heval, htrace]

/-- A receipt that the Proxy rejects for good stands at the head of the outbox: the delivery of the
entry behind it would succeed, but the flush does not mark it. -/
theorem rejected_blocks : ∃ a ∈ attempts rejecting (client ()) 0 [otherEntry, entry],
    ∃ recorded, a.outcome = .ok recorded ∧
      (⟨.markReceiptDelivered a.entry.outboxId recorded, .ok ()⟩ : Event Answer) ∉
        ((client ()).flushExecutionReceiptOutbox 128).trace rejecting 0 := by
  obtain ⟨error, hfirst, -⟩ := deliver_otherEntry 0 [otherEntry, entry]
  obtain ⟨hsecond, -⟩ := deliver_entry (show 1 ≠ 0 by decide) [otherEntry, entry]
  refine ⟨⟨entry, .ok receiptRecorded, ((client ()).deliverOutboxEntry entry).trace rejecting 1⟩,
    ?_, receiptRecorded, rfl, ?_⟩
  · rw [rejecting, attempts, attempts, hfirst, hsecond]
    exact List.mem_cons_of_mem _ List.mem_cons_self
  · rw [trace_flush_rejecting]
    simp

/-- In an outbox of two entries whose last one is rejected: the flush tries both, and marks the
first. -/
theorem flush_attempts_iff_flush :
    (∃ a ∈ attempts (proxy 1 [entry, otherEntry]) (client ()) 0 [entry, otherEntry],
      ¬a.Succeeds) ∧
    ((client ()).flushExecutionReceiptOutbox 128).trace (proxy 1 [entry, otherEntry]) 0 =
      ⟨.pendingReceipts 128, .ok [entry, otherEntry]⟩ ::
        (attempts (proxy 1 [entry, otherEntry]) (client ()) 0 [entry, otherEntry]).flatMap
          Attempt.events ∧
    (⟨.markReceiptDelivered entry.outboxId receiptRecorded, .ok ()⟩ : Event Answer) ∈
      ((client ()).flushExecutionReceiptOutbox 128).trace (proxy 1 [entry, otherEntry]) 0 := by
  obtain ⟨hfirst, -⟩ := deliver_entry (show 0 ≠ 1 by decide) [entry, otherEntry]
  obtain ⟨error, hlast, -⟩ := deliver_otherEntry 1 [entry, otherEntry]
  obtain ⟨events, events', hattempts⟩ : ∃ events events',
      attempts (proxy 1 [entry, otherEntry]) (client ()) 0 [entry, otherEntry] =
        [⟨entry, .ok receiptRecorded, events⟩, ⟨otherEntry, .error error, events'⟩] := by
    rw [attempts, attempts, hfirst, hlast]
    exact ⟨_, _, rfl⟩
  have hstore : (client ()).durableExecutionStore = some ⟨true, true⟩ := rfl
  have hlisted : proxy 1 [entry, otherEntry] 0 (.pendingReceipts 128) =
      (.ok [entry, otherEntry], 0) := rfl
  have hpairs : (attempts (proxy 1 [entry, otherEntry]) (client ()) 0 [entry, otherEntry]).Pairwise
      fun a b => a.Succeeds ∨ ¬Sends (client ()) b.entry := by
    rw [hattempts]
    exact .cons (fun _ _ => .inl ⟨receiptRecorded, rfl⟩) (List.pairwise_singleton _ _)
  obtain ⟨htrace, hmarks⟩ := (flush_attempts_iff (by decide) hstore hlisted (by simp)).mpr hpairs
  refine ⟨?_, htrace, ?_⟩
  · rw [hattempts]
    refine ⟨_, List.mem_cons_of_mem _ List.mem_cons_self, ?_⟩
    rintro ⟨recorded, h⟩
    cases h
  · refine hmarks ⟨entry, .ok receiptRecorded, events⟩ ?_ receiptRecorded rfl
    rw [hattempts]
    exact List.mem_cons_self

end Fixture

end ClavenarSdk
