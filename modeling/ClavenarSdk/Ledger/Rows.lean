import ClavenarSdk.Serde.Instant
import ClavenarSdk.Serde.Known

/-!
# Rows of the ledger

`ledger.rs`. A row of the hash chain has gained fields from version to version. An older reader
passes over those that it does not know, a newer one takes those that it misses at their defaults,
and what is read of a row stays the same however often it is passed on.
-/

namespace ClavenarSdk

/-- `LedgerEntry`. -/
structure LedgerEntry where
  id : Uuid
  timestamp : DateTime
  agentId : String
  method : String
  intentCategory : String
  authorized : Bool
  reasoning : String
  policyDecision : Option Value
  seq : Int64
  prevHash : String
  entryHash : String
  correlationId : Option String
  chainVersion : Int64
  source : Option String
  signal : Option String
  eventKind : Option String
  tenant : Option String
  agentName : Option String
  actorSub : Option String
  actorIdp : Option String
  payloadSha256 : Option String
  signature : Option String
  keyId : Option String
  agentSpiffe : Option String
  approverAssertion : Option String
  brainEvidenceSha256 : Option String
  brainScores : Option Value
  toolParamsSha256 : Option String
  credentialFingerprint : Option String
  toolName : Option String
  deriving DecidableEq

/-- `LifecycleRow`: a row with the payload that its hash commits to. -/
structure LifecycleRow where
  entry : LedgerEntry
  payload : Option Value
  deriving DecidableEq

/-- `default_chain_version`. -/
def defaultChainVersion : Int64 := 1

namespace LedgerEntry

/-- The fields of a row, in declaration order. -/
def names : List String :=
  ["id", "timestamp", "agent_id", "method", "intent_category", "authorized", "reasoning",
    "policy_decision", "seq", "prev_hash", "entry_hash", "correlation_id", "chain_version",
    "source", "signal", "event_kind", "tenant", "agent_name", "actor_sub", "actor_idp",
    "payload_sha256", "signature", "key_id", "agent_spiffe", "approver_assertion",
    "brain_evidence_sha256", "brain_scores", "tool_params_sha256", "credential_fingerprint",
    "tool_name"]

variable [ChronoReader]

/-- How the fields of a row are written and read. -/
def slots (entry : LedgerEntry) : List Slot :=
  [.required "id" entry.id, .required "timestamp" entry.timestamp,
    .required "agent_id" entry.agentId, .required "method" entry.method,
    .required "intent_category" entry.intentCategory, .required "authorized" entry.authorized,
    .required "reasoning" entry.reasoning, .option "policy_decision" entry.policyDecision,
    .required "seq" entry.seq, .required "prev_hash" entry.prevHash,
    .required "entry_hash" entry.entryHash, .option "correlation_id" entry.correlationId,
    .defaulted "chain_version" defaultChainVersion entry.chainVersion,
    .option "source" entry.source, .option "signal" entry.signal,
    .ifSome "event_kind" entry.eventKind, .ifSome "tenant" entry.tenant,
    .ifSome "agent_name" entry.agentName, .ifSome "actor_sub" entry.actorSub,
    .ifSome "actor_idp" entry.actorIdp, .ifSome "payload_sha256" entry.payloadSha256,
    .ifSome "signature" entry.signature, .ifSome "key_id" entry.keyId,
    .ifSome "agent_spiffe" entry.agentSpiffe,
    .option "approver_assertion" entry.approverAssertion,
    .ifSome "brain_evidence_sha256" entry.brainEvidenceSha256,
    .ifSome "brain_scores" entry.brainScores,
    .ifSome "tool_params_sha256" entry.toolParamsSha256,
    .ifSome "credential_fingerprint" entry.credentialFingerprint,
    .ifSome "tool_name" entry.toolName]

end LedgerEntry

section

variable [ChronoReader]

instance : Serialize LedgerEntry := ⟨fun entry => .object (Slot.write entry.slots)⟩

instance : Deserialize LedgerEntry where
  fromJson j := do
    let known ← knownMembers LedgerEntry.names j
    return {
      id := ← requiredField known "id"
      timestamp := ← requiredField known "timestamp"
      agentId := ← requiredField known "agent_id"
      method := ← requiredField known "method"
      intentCategory := ← requiredField known "intent_category"
      authorized := ← requiredField known "authorized"
      reasoning := ← requiredField known "reasoning"
      policyDecision := ← optionalField known "policy_decision"
      seq := ← requiredField known "seq"
      prevHash := ← requiredField known "prev_hash"
      entryHash := ← requiredField known "entry_hash"
      correlationId := ← optionalField known "correlation_id"
      chainVersion := ← defaultField known "chain_version" defaultChainVersion
      source := ← optionalField known "source"
      signal := ← optionalField known "signal"
      eventKind := ← optionalField known "event_kind"
      tenant := ← optionalField known "tenant"
      agentName := ← optionalField known "agent_name"
      actorSub := ← optionalField known "actor_sub"
      actorIdp := ← optionalField known "actor_idp"
      payloadSha256 := ← optionalField known "payload_sha256"
      signature := ← optionalField known "signature"
      keyId := ← optionalField known "key_id"
      agentSpiffe := ← optionalField known "agent_spiffe"
      approverAssertion := ← optionalField known "approver_assertion"
      brainEvidenceSha256 := ← optionalField known "brain_evidence_sha256"
      brainScores := ← optionalField known "brain_scores"
      toolParamsSha256 := ← optionalField known "tool_params_sha256"
      credentialFingerprint := ← optionalField known "credential_fingerprint"
      toolName := ← optionalField known "tool_name" }

namespace LifecycleRow

/-- How the fields of a row and its payload are written and read. -/
def slots (row : LifecycleRow) : List Slot := row.entry.slots ++ [.option "payload" row.payload]

end LifecycleRow

/-- The payload is read first, and the row of the other members. -/
def LifecycleRow.ofMembers (members : List (String × Json)) : Except DecodeError LifecycleRow := do
  let own ← knownMembers ["payload"] (.object members)
  return {
    payload := ← optionalField own "payload"
    entry := ← fromJson (.object (members.filter fun f => f.1 ≠ "payload")) }

instance : Serialize LifecycleRow := ⟨fun row => .object (Slot.write row.slots)⟩

/-- A struct with a flattened field has no positional form. -/
instance : Deserialize LifecycleRow where
  fromJson
    | .object members => LifecycleRow.ofMembers members
    | _ => .error .invalidType

/-! ### Reading a row -/

namespace LedgerEntry

/-- What is read of a row: an opaque value is never read as `null`. -/
def reread (entry : LedgerEntry) : LedgerEntry :=
  { entry with
    policyDecision := rereadOption entry.policyDecision
    brainScores := rereadOption entry.brainScores }

/-- A row writes the fields that a row has. -/
@[simp] theorem map_name_slots (entry : LedgerEntry) : entry.slots.map Slot.name = names := rfl

omit [ChronoReader] in
/-- No two fields of a row have the same name. -/
theorem nodup_names : names.Nodup := by decide

/-- Every field is read wherever it is shown. -/
theorem lawful_slots {entry : LedgerEntry} (htime : Rereads entry.timestamp) :
    ∀ s ∈ entry.slots, s.Lawful := by
  simp [slots, Slot.lawful_required, Slot.lawful_option, Slot.lawful_ifSome,
    Slot.lawful_defaulted, htime.roundTrips]

/-- Members from which every field is read give the row. -/
theorem fromJson_of_reads {entry : LedgerEntry} {j : Json} {known : List (String × Json)}
    (hknown : knownMembers names j = .ok known) (h : ∀ s ∈ entry.slots, s.Reads known) :
    fromJson j = .ok entry.reread := by
  simp only [slots, List.forall_mem_cons, Slot.reads_required, Slot.reads_option,
    Slot.reads_ifSome, Slot.reads_defaulted, rereadOption_string] at h
  simp only [fromJson, hknown, ok_bind, h]
  rfl

/-- A row is read from every document that shows its fields. -/
theorem fromJson_of_shownBy {entry : LedgerEntry} {j : Json} (htime : Rereads entry.timestamp)
    (h : Slot.ShownBy entry.slots j) : fromJson j = .ok entry.reread := by
  obtain ⟨known, hknown, hreads⟩ := h.reads (lawful_slots htime)
  exact fromJson_of_reads hknown hreads

/-- What is read of a row holds no `null`, and its instant is one of a document. -/
theorem settled_of_fromJson {entry : LedgerEntry} {j : Json} (hread : fromJson j = .ok entry) :
    entry.reread = entry ∧ ∃ v : Json, fromJson v = .ok entry.timestamp := by
  simp only [fromJson, bind_eq_ok_iff] at hread
  obtain ⟨known, -, id, -, timestamp, htimestamp, _, -, _, -, _, -, _, -, _, -, policyDecision,
    hdecision, _, -, _, -, _, -, _, -, _, -, _, -, _, -, _, -, _, -, _, -, _, -, _, -, _, -, _, -,
    _, -, _, -, _, -, _, -, brainScores, hscores, _, -, _, -, _, -, hentry⟩ := hread
  obtain rfl := Except.ok.inj hentry
  obtain ⟨v, -, hv⟩ := requiredField_eq_ok_iff.mp htimestamp
  refine ⟨?_, v, hv⟩
  simp only [reread, rereadOption_of_optionalField hdecision,
    rereadOption_of_optionalField hscores]

/-- What was read of a row is read again wherever it is shown. -/
theorem fromJson_pass (hclock : RereadsInstants) {j j' : Json} {entry : LedgerEntry}
    (hread : fromJson j = .ok entry) (hshown : Slot.ShownBy entry.slots j') :
    fromJson j' = .ok entry := by
  obtain ⟨hself, v, htime⟩ := settled_of_fromJson hread
  have hread' := fromJson_of_shownBy (hclock.rereads htime) hshown
  rwa [hself] at hread'

end LedgerEntry

/-! ### Reading a row with its payload -/

namespace LifecycleRow

/-- What is read of a row and its payload. -/
def reread (row : LifecycleRow) : LifecycleRow := ⟨row.entry.reread, rereadOption row.payload⟩

/-- A row with its payload writes the fields of the row and the payload. -/
@[simp] theorem map_name_slots (row : LifecycleRow) :
    row.slots.map Slot.name = LedgerEntry.names ++ ["payload"] := by
  simp [slots, Slot.option]

/-- No two of these fields have the same name. -/
theorem nodup_map_name_slots (row : LifecycleRow) : (row.slots.map Slot.name).Nodup := by
  rw [map_name_slots]
  decide

/-- Both parts of a row are read from the members of one object. -/
theorem fromJson_iff {j : Json} {row : LifecycleRow} :
    fromJson j = .ok row ↔ ∃ members, j = .object members ∧
      (∃ own, knownMembers ["payload"] (.object members) = .ok own ∧
        optionalField own "payload" = .ok row.payload) ∧
      fromJson (.object (members.filter fun f => f.1 ≠ "payload")) = .ok row.entry := by
  cases j with
  | object members =>
    change ofMembers members = .ok row ↔ _
    simp only [ofMembers, bind_eq_ok_iff, pure_eq_ok, Except.ok.injEq, Json.object.injEq,
      exists_eq_left']
    constructor
    · rintro ⟨own, hown, payload, hpayload, entry, hentry, rfl⟩
      exact ⟨⟨own, hown, hpayload⟩, hentry⟩
    · rintro ⟨⟨own, hown, hpayload⟩, hentry⟩
      exact ⟨own, hown, _, hpayload, _, hentry, rfl⟩
  | null | bool | number | string | array => simp [fromJson]

/-- The row alone is read from the same document. -/
theorem fromJson_entry {j : Json} {row : LifecycleRow} (hread : fromJson j = .ok row) :
    fromJson j = .ok row.entry := by
  obtain ⟨members, rfl, -, hentry⟩ := fromJson_iff.mp hread
  have hknown : knownMembers LedgerEntry.names
      (.object (members.filter fun f => f.1 ≠ "payload")) =
        knownMembers LedgerEntry.names (.object members) :=
    knownMembers_filter (fun name => name ≠ "payload") (by decide)
  rw [← hentry]
  simp only [fromJson, hknown]

/-- A row and its payload are read from every document that shows their fields. -/
theorem fromJson_of_shownBy {row : LifecycleRow} {j : Json} (htime : Rereads row.entry.timestamp)
    (h : Slot.ShownBy row.slots j) : fromJson j = .ok row.reread := by
  have hentry : Slot.ShownBy row.entry.slots j := h.mono (List.subset_append_left _ _)
  have hpayload : Slot.ShownBy [.option "payload" row.payload] j :=
    h.mono (List.subset_append_right _ _)
  obtain ⟨members, rfl, -⟩ := id h
  obtain ⟨own, hown, hreads⟩ := hpayload.reads (by simp [Slot.lawful_option])
  refine fromJson_iff.mpr ⟨members, rfl, ⟨own, hown, hreads _ (List.mem_singleton_self _)⟩, ?_⟩
  have hkeep : ∀ s ∈ row.entry.slots, decide (s.name ≠ "payload") = true := by
    intro s hs
    have hname : s.name ∈ LedgerEntry.names := List.mem_map_of_mem hs
    have hother : ∀ name ∈ LedgerEntry.names, decide (name ≠ "payload") = true := by decide
    exact hother _ hname
  exact LedgerEntry.fromJson_of_shownBy htime
    (hentry.filter (fun name => name ≠ "payload") hkeep)

/-- What was read of a row and its payload is read again wherever they are shown. -/
theorem fromJson_pass (hclock : RereadsInstants) {j j' : Json} {row : LifecycleRow}
    (hread : fromJson j = .ok row) (hshown : Slot.ShownBy row.slots j') :
    fromJson j' = .ok row := by
  obtain ⟨members, -, ⟨own, -, hpayload⟩, hentry⟩ := fromJson_iff.mp hread
  obtain ⟨hself, v, htime⟩ := LedgerEntry.settled_of_fromJson hentry
  have hread' := fromJson_of_shownBy (hclock.rereads htime) hshown
  rwa [reread, hself, rereadOption_of_optionalField hpayload] at hread'

end LifecycleRow

/-- A row is read from its own document and from every other one that shows its fields, with or
without a payload, and what is read stays the same however often it is passed on. A reader that
knows nothing of payloads reads the same row. -/
theorem ledger_rows_forwarded (hclock : RereadsInstants) :
    (∀ entry : LedgerEntry, Slot.ShownBy entry.slots (toJson entry)) ∧
    (∀ row : LifecycleRow, Slot.ShownBy row.slots (toJson row)) ∧
    (∀ (entry : LedgerEntry) (j : Json), Rereads entry.timestamp →
      Slot.ShownBy entry.slots j → fromJson j = .ok entry.reread) ∧
    (∀ (row : LifecycleRow) (j : Json), Rereads row.entry.timestamp →
      Slot.ShownBy row.slots j → fromJson j = .ok row.reread) ∧
    (∀ (entry : LedgerEntry) (j j' : Json), fromJson j = .ok entry →
      Forwarded LedgerEntry.slots j j' → fromJson j' = .ok entry) ∧
    ∀ (row : LifecycleRow) (j j' : Json), fromJson j = .ok row →
      Forwarded LifecycleRow.slots j j' → fromJson j' = .ok row ∧ fromJson j' = .ok row.entry := by
  refine ⟨fun entry => Slot.shownBy_write ?_,
    fun row => Slot.shownBy_write row.nodup_map_name_slots,
    fun entry j => LedgerEntry.fromJson_of_shownBy, fun row j => LifecycleRow.fromJson_of_shownBy,
    fun entry j j' hread hforwarded => ?_, fun row j j' hread hforwarded => ?_⟩
  · rw [LedgerEntry.map_name_slots]
    exact LedgerEntry.nodup_names
  · exact hforwarded.fromJson_eq (fun _ _ _ => LedgerEntry.fromJson_pass hclock) hread
  · have hread' : fromJson j' = .ok row :=
      hforwarded.fromJson_eq (fun _ _ _ => LifecycleRow.fromJson_pass hclock) hread
    exact ⟨hread', LifecycleRow.fromJson_entry hread'⟩

end

namespace Fixture

attribute [local instance] chronoReader

/-- The row of an agent's registration, with a payload. -/
def registration : LifecycleRow where
  entry :=
    { id := ⟨List.replicate 16 7, rfl⟩
      timestamp := epoch
      agentId := "agent-1"
      method := "lifecycle"
      intentCategory := "onboarding"
      authorized := true
      reasoning := "registered"
      policyDecision := none
      seq := 3
      prevHash := "00"
      entryHash := "01"
      correlationId := none
      chainVersion := 3
      source := none
      signal := none
      eventKind := some "agent.registered"
      tenant := some "acme"
      agentName := some "payments"
      actorSub := none
      actorIdp := none
      payloadSha256 := some "02"
      signature := none
      keyId := none
      agentSpiffe := none
      approverAssertion := none
      brainEvidenceSha256 := none
      brainScores := none
      toolParamsSha256 := none
      credentialFingerprint := none
      toolName := none }
  payload := some (.ofJson (.object [("name", .string "payments")]))

/-- The document of the registration backwards, with a member of a later version. -/
def relayed : Json :=
  .object (("region", .string "eu") :: (Slot.write registration.slots).reverse)

/-- The registration is read from the relayed document and passed on unchanged. -/
theorem ledger_rows_forwarded_relayed :
    fromJson relayed = .ok registration ∧
      fromJson (toJson registration) = .ok registration.entry := by
  obtain ⟨-, hown, -, hshown, -, hforwarded⟩ := ledger_rows_forwarded rereadsInstants
  have hrelayed : Slot.ShownBy registration.slots relayed := by
    refine Slot.ShownBy.cons ((hown registration).perm (List.reverse_perm _).symm) ?_
    rw [LifecycleRow.map_name_slots]
    decide
  have hread : fromJson relayed = .ok registration := hshown _ _ (rereads _) hrelayed
  exact ⟨hread, (hforwarded _ _ _ hread (.pass (.refl _) hread (hown registration))).2⟩

end Fixture

end ClavenarSdk
