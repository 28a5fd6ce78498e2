import ClavenarSdk.Execution.Outbox

/-!
# The signed bytes of a receipt

The receipt is signed before it exists: `complete_known_effect` signs the canonical text of
a second struct. A verifier starts from the receipt that was posted, drops the signature
and canonicalizes what is left.
-/

namespace ClavenarSdk

open Interaction ClavenarClient

/-- The text a verifier rebuilds from a posted receipt: the canonical text of the received
value without its signature. -/
def verifiedText (body : Json) : String :=
  canonicalJsonValue ((Value.ofJson body).json.without "workload_signature")

section

variable [Crates]

/-- The signed struct is the receipt without its signature, field by field. -/
theorem toJson_unsignedReceipt (signingKey : SigningKey) (authorization : SignedAuthorization)
    (effect : ExecutionEffect) (text : String) :
    toJson (unsignedReceipt authorization effect) =
      (toJson (signedReceipt signingKey authorization effect text)).without
        "workload_signature" := by
  change UnsignedExecutionReceipt.serialize _ = (ExecutionReceipt.serialize _).without _
  simp [UnsignedExecutionReceipt.serialize, ExecutionReceipt.serialize, Json.without,
    unsignedReceipt, signedReceipt]

/-- What a verifier reads of a signed receipt is the text that was signed. -/
theorem verifiedText_signedReceipt {signingKey : SigningKey} {authorization : SignedAuthorization}
    {effect : ExecutionEffect} {text : String}
    (h : canonicalJson (unsignedReceipt authorization effect) = .ok text) :
    verifiedText (toJson (signedReceipt signingKey authorization effect text)) = text := by
  have htext := Except.ok.inj h
  rw [verifiedText, Value.ofJson, Json.normalize_without, ← toJson_unsignedReceipt]
  exact htext

/-- The entry after it was written as JSON and read again. -/
def reloadEntry (entry : ReceiptOutboxEntry) : Except ClavenarError ReceiptOutboxEntry :=
  fromStr (toJson entry).text

/-- The entry after `n` cycles. -/
def reloadedEntry (entry : ReceiptOutboxEntry) : ℕ → Except ClavenarError ReceiptOutboxEntry
  | 0 => .ok entry
  | n + 1 => reloadedEntry entry n >>= reloadEntry

/-- An entry whose receipt embeds a decoded authorization survives every number of cycles. -/
theorem reloadedEntry_eq {entry : ReceiptOutboxEntry}
    (hdecoded : entry.receipt.authorization.authorization.DiffDecoded)
    (hreads : parseJson (toJson entry).text = .ok (toJson entry)) (n : ℕ) :
    reloadedEntry entry n = .ok entry := by
  have hreload : reloadEntry entry = .ok entry := by
    exact fromStr_eq hreads (receiptOutboxEntry_roundTrips hdecoded)
  induction n with
  | zero => rfl
  | succ n ih => rw [reloadedEntry, ih, ok_bind, hreload]

/-- A value that is read from a text is read from the document that the text is parsed to. -/
theorem fromStr_eq_ok {α : Type} [Deserialize α] {raw : String} {a : α}
    (h : fromStr raw = .ok a) : ∃ j, parseJson raw = .ok j ∧ fromJson j = .ok a := by
  unfold fromStr at h
  cases hparse : parseJson raw with
  | error error => simp [hparse, Except.mapError] at h
  | ok j =>
    cases hdecode : (fromJson j : Except DecodeError α) with
    | error error => simp [hparse, hdecode, Except.mapError] at h
    | ok a' =>
      obtain rfl : a' = a := by simpa [hparse, hdecode, Except.mapError] using h
      exact ⟨j, rfl, hdecode⟩

/-! ### Runs -/

/-- Whatever receipt the operation commits or posts, it is this one. -/
def CarriesReceipt (receipt : ExecutionReceipt) : Op → Prop
  | .commitEffectAndEnqueueReceipt completion => completion.receipt = receipt
  | .postReceipt request => request.json = toJson receipt
  | _ => True

/-- The only receipt that delivery posts is the one of its entry. -/
theorem deliverOutboxEntry_carriesReceipt (client : ClavenarClient) (entry : ReceiptOutboxEntry)
    (history : List (Event Answer)) :
    Prog.Always (fun _ => CarriesReceipt entry.receipt) (fun _ _ => True) history
      (client.deliverOutboxEntry entry) := by
  rw [deliverOutboxEntry_eq]
  cases validateOutboxEntry entry with
  | error error => trivial
  | ok _ =>
    simp only
    cases joinUrl client.baseUrl "execution-receipts" with
    | error error => trivial
    | ok endpoint =>
      refine ⟨rfl, fun answer => ?_⟩
      unfold markConfirmed
      cases confirmReceipt entry.receipt answer with
      | error error => trivial
      | ok recorded => exact ⟨trivial, fun answer => by cases answer <;> trivial⟩

/-- The completion of an effect commits the signed receipt and posts no other, since an answer of
the store with another receipt ends it. -/
theorem completeKnownEffect_carriesReceipt (client : ClavenarClient) (signingKey : SigningKey)
    (authorization : SignedAuthorization) (effect : ExecutionEffect) (executorId : String) :
    Prog.Always (fun _ => CarriesReceipt (receiptOf signingKey authorization effect))
      (fun _ _ => True) []
      (client.completeKnownEffect signingKey authorization effect executorId) := by
  simp only [completeKnownEffect, canonicalJson]
  refine ⟨rfl, fun queued => ?_⟩
  cases queued with
  | error error => trivial
  | ok entry =>
    simp only
    split_ifs with hreceipt
    · trivial
    · have hcarries := deliverOutboxEntry_carriesReceipt client entry
        ([] ++ [⟨.commitEffectAndEnqueueReceipt (completionOf executorId authorization effect
          (receiptOf signingKey authorization effect)), .ok entry⟩])
      rw [not_not.mp hreceipt] at hcarries
      exact (Prog.always_mapError.mpr hcarries).bind_pure _

/-- The text that is signed for an authorization decoded from a response is the text that a
verifier rebuilds from the receipt. The completion of the effect commits this receipt and posts
it, on every history. After any number of reloads from the outbox the entry has the same receipt,
and its delivery posts it with that text and the signature over it. A flush posts the receipts of
the entries that the store listed, this one among them as it was signed. -/
theorem receipt_verifies {raw : String} {authorization : SignedAuthorization}
    (hdecoded : fromStr raw = .ok authorization) (signingKey : SigningKey)
    (effect : ExecutionEffect) (outboxId : String) :
    ∃ text, canonicalJson (unsignedReceipt authorization effect) = .ok text ∧
      let receipt := signedReceipt signingKey authorization effect text
      receipt.workloadSignature.value = base64UrlNoPad (sign signingKey text) ∧
      verifiedText (toJson receipt) = text ∧
      (∀ (client : ClavenarClient) (executorId : String) (history : List (Event Answer)),
        (∀ completion,
          (client.completeKnownEffect signingKey authorization effect executorId).Invokes history
            (.commitEffectAndEnqueueReceipt completion) → completion.receipt = receipt) ∧
        ∀ request,
          (client.completeKnownEffect signingKey authorization effect executorId).Invokes history
            (.postReceipt request) →
          request.json = toJson receipt ∧ verifiedText request.json = text) ∧
      (parseJson (toJson (⟨outboxId, receipt⟩ : ReceiptOutboxEntry)).text =
          .ok (toJson (⟨outboxId, receipt⟩ : ReceiptOutboxEntry)) →
        ∀ n, ∃ entry, reloadedEntry ⟨outboxId, receipt⟩ n = .ok entry ∧ entry.receipt = receipt ∧
          entry.receipt.workloadSignature.value = base64UrlNoPad (sign signingKey text) ∧
          ∀ (client : ClavenarClient) (history : List (Event Answer)) (request : PostRequest),
            (client.deliverOutboxEntry entry).Invokes history (.postReceipt request) →
            request.json = toJson entry.receipt ∧ verifiedText request.json = text) ∧
      ∀ (client : ClavenarClient) (limit : ℕ) (history : List (Event Answer))
        (request : PostRequest),
        (client.flushExecutionReceiptOutbox limit).Invokes history (.postReceipt request) →
        ∃ listed, Listed history listed ∧ request.json = toJson listed.receipt ∧
          (listed.receipt = receipt → verifiedText request.json = text) := by
  obtain ⟨j, -, hj⟩ := fromStr_eq_ok hdecoded
  refine ⟨_, rfl, rfl, verifiedText_signedReceipt rfl, fun client executorId history => ?_,
    fun hreads n => ?_, fun client limit history request hinvokes => ?_⟩
  · have hcarries :=
      completeKnownEffect_carriesReceipt client signingKey authorization effect executorId
    refine ⟨fun completion hinvokes => hcarries.of_invokes hinvokes, fun request hinvokes => ?_⟩
    have hjson : request.json = toJson (receiptOf signingKey authorization effect) :=
      hcarries.of_invokes hinvokes
    refine ⟨hjson, ?_⟩
    rw [hjson]
    exact verifiedText_signedReceipt rfl
  · refine ⟨_, reloadedEntry_eq (SignedAuthorization.diffDecoded_of_fromJson hj) hreads n, rfl,
      rfl, fun client history request hinvokes => ?_⟩
    have hjson : request.json = toJson (receiptOf signingKey authorization effect) :=
      (deliverOutboxEntry_carriesReceipt client _ []).of_invokes hinvokes
    refine ⟨hjson, ?_⟩
    rw [hjson]
    exact verifiedText_signedReceipt rfl
  · obtain ⟨listed, hlisted, hjson⟩ :=
      (flushExecutionReceiptOutbox_flushing client limit).of_invokes hinvokes
    refine ⟨listed, hlisted, hjson, fun hreceipt => ?_⟩
    rw [hjson, hreceipt]
    exact verifiedText_signedReceipt rfl

end

namespace Fixture

/-- The crates of the test, which also read the entry of the test. -/
@[reducible] def reloadCrates : Crates :=
  cratesOn [toJson authorization, toJson entry] digests signatures

attribute [local instance] reloadCrates

/-- The entry is parsed from its text. -/
theorem parseJson_entry : parseJson (toJson entry).text = .ok (toJson entry) := by
  have hne : (toJson authorization).text ≠ (toJson entry).text := Json.text_ne_text (by simp)
  refine parseJson_cratesOn ?_
  rw [List.find?_cons_of_neg (by simpa using hne)]
  exact find?_text_head _ _

/-- The entry of the test, as the client signs it. -/
theorem entry_eq {text : String}
    (h : canonicalJson (unsignedReceipt authorization effect) = .ok text) :
    entry = ⟨"receipt-354c33ed-e5d3-4af7-a1b8-b009d50b0bc5",
      signedReceipt () authorization effect text⟩ := by
  obtain rfl := Except.ok.inj h
  rfl

/-- For the authorization of the fixture: what the completion posts verifies, and so does what is
posted after any number of reloads. -/
theorem receipt_verifies_authorization :
    ∃ text, canonicalJson (unsignedReceipt authorization effect) = .ok text ∧
      verifiedText (toJson entry.receipt) = text ∧
      (∀ (history : List (Event Answer)) (request : PostRequest),
        ((client ()).completeKnownEffect () authorization effect executor.id).Invokes history
          (.postReceipt request) → verifiedText request.json = text) ∧
      ∀ n, ∃ reloaded, reloadedEntry entry n = .ok reloaded ∧
        reloaded.receipt.workloadSignature.value = base64UrlNoPad (sign () text) ∧
        ∀ (history : List (Event Answer)) (request : PostRequest),
          ((client ()).deliverOutboxEntry reloaded).Invokes history (.postReceipt request) →
          request.json = toJson entry.receipt ∧ verifiedText request.json = text := by
  have hdecoded : fromStr (toJson authorization).text = .ok authorization :=
    fromStr_eq (parseJson_cratesOn (find?_text_head _ _))
      (signedAuthorization_roundTrips (by simp [Authorization.DiffDecoded, authorization]))
  obtain ⟨text, htext, -, hverified, hruns, hreload, -⟩ := receipt_verifies hdecoded () effect
    "receipt-354c33ed-e5d3-4af7-a1b8-b009d50b0bc5"
  rw [← entry_eq htext] at hreload
  have hreceipt : entry.receipt = signedReceipt () authorization effect text := by
    rw [entry_eq htext]
  rw [← hreceipt] at hverified hreload
  refine ⟨text, htext, hverified,
    fun history request hinvokes => ((hruns _ _ history).2 request hinvokes).2, fun n => ?_⟩
  obtain ⟨reloaded, hreloaded, hsame, hsignature, hposts⟩ := hreload parseJson_entry n
  refine ⟨reloaded, hreloaded, hsignature, fun history request hinvokes => ?_⟩
  rw [← hsame]
  exact hposts _ _ _ hinvokes

end Fixture

end ClavenarSdk
