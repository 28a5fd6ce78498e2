import ClavenarSdk.Collections.Canonical
import ClavenarSdk.Url

/-!
# Agents

`agents.rs`. Whether a request to create an agent would land the record that is already in place,
and the references that `AgentsClient` joins to its base URL.
-/

namespace ClavenarSdk

open Collections

/-- `CreateAgentRequest`. -/
structure CreateAgentRequest where
  tenant : String
  agentName : String
  ownerTeam : String
  scopeEnvelope : List String
  yellowEnvelope : List String
  attestationKinds : List String
  description : Option String
  actorSub : Option String

/-- `AgentRecord`, the fields that a request sets. -/
structure AgentRecord where
  tenant : String
  agentName : String
  scopeEnvelope : List String
  yellowEnvelope : List String
  attestationKindsAccepted : List String
  ownerTeam : String
  description : Option String

/-- `same_set`: sorted copies without adjacent repeats are compared. -/
def sameSet (a b : List String) : Bool := canonical a == canonical b

/-- `same_set` decides whether two lists have the same members. -/
theorem sameSet_iff {a b : List String} : sameSet a b = true ↔ SameMembers a b := by
  rw [sameSet, beq_iff_eq, canonical_eq_iff]

/-- Lists with the same members are interchangeable in the comparison. -/
theorem sameSet_congr {a a' b b' : List String} (ha : SameMembers a a') (hb : SameMembers b b') :
    sameSet a b = sameSet a' b' := by
  rw [Bool.eq_iff_iff, sameSet_iff, sameSet_iff]
  exact ⟨fun h => (ha.symm.trans h).trans hb, fun h => (ha.trans h).trans hb.symm⟩

/-- `create_request_matches`. -/
def createRequestMatches (req : CreateAgentRequest) (record : AgentRecord) : Bool :=
  if req.tenant ≠ record.tenant ∨ req.agentName ≠ record.agentName ∨
      req.ownerTeam ≠ record.ownerTeam then
    false
  else if !sameSet req.scopeEnvelope record.scopeEnvelope ||
      !sameSet req.yellowEnvelope record.yellowEnvelope ||
      !sameSet req.attestationKinds record.attestationKindsAccepted then
    false
  else true

/-- The request asks for the agent that the record describes. -/
structure CreateAgentRequest.Describes (req : CreateAgentRequest) (record : AgentRecord) :
    Prop where
  tenant : req.tenant = record.tenant
  agentName : req.agentName = record.agentName
  ownerTeam : req.ownerTeam = record.ownerTeam
  scopeEnvelope : SameMembers req.scopeEnvelope record.scopeEnvelope
  yellowEnvelope : SameMembers req.yellowEnvelope record.yellowEnvelope
  attestationKinds : SameMembers req.attestationKinds record.attestationKindsAccepted

/-- The comparison decides whether the request describes the record. -/
theorem createRequestMatches_iff {req : CreateAgentRequest} {record : AgentRecord} :
    createRequestMatches req record = true ↔ req.Describes record := by
  unfold createRequestMatches
  split_ifs with hnames hsets
  · refine ⟨False.elim, fun h => ?_⟩
    rcases hnames with hnames | hnames | hnames
    · exact absurd h.tenant hnames
    · exact absurd h.agentName hnames
    · exact absurd h.ownerTeam hnames
  · refine ⟨False.elim, fun h => ?_⟩
    rw [sameSet_iff.mpr h.scopeEnvelope, sameSet_iff.mpr h.yellowEnvelope,
      sameSet_iff.mpr h.attestationKinds] at hsets
    exact absurd hsets (by decide)
  · simp only [not_or, not_not] at hnames
    simp only [Bool.or_eq_true, Bool.not_eq_true', not_or, Bool.not_eq_false, sameSet_iff] at hsets
    obtain ⟨htenant, hagent, howner⟩ := hnames
    obtain ⟨⟨hscope, hyellow⟩, hkinds⟩ := hsets
    exact ⟨fun _ => ⟨htenant, hagent, howner, hscope, hyellow, hkinds⟩, fun _ => rfl⟩

/-- The requests differ at most in their description, in the actor and in the order and the
repetition of list entries. -/
structure CreateAgentRequest.Rewrites (req req' : CreateAgentRequest) : Prop where
  tenant : req.tenant = req'.tenant
  agentName : req.agentName = req'.agentName
  ownerTeam : req.ownerTeam = req'.ownerTeam
  scopeEnvelope : SameMembers req.scopeEnvelope req'.scopeEnvelope
  yellowEnvelope : SameMembers req.yellowEnvelope req'.yellowEnvelope
  attestationKinds : SameMembers req.attestationKinds req'.attestationKinds

/-- The records differ at most in their description and in the order and the repetition of list
entries. -/
structure AgentRecord.Rewrites (record record' : AgentRecord) : Prop where
  tenant : record.tenant = record'.tenant
  agentName : record.agentName = record'.agentName
  ownerTeam : record.ownerTeam = record'.ownerTeam
  scopeEnvelope : SameMembers record.scopeEnvelope record'.scopeEnvelope
  yellowEnvelope : SameMembers record.yellowEnvelope record'.yellowEnvelope
  attestationKinds :
    SameMembers record.attestationKindsAccepted record'.attestationKindsAccepted

/-- Rewriting the request and the record does not change the answer. -/
theorem createRequestMatches_congr {req req' : CreateAgentRequest} {record record' : AgentRecord}
    (hreq : req.Rewrites req') (hrecord : record.Rewrites record') :
    createRequestMatches req record = createRequestMatches req' record' := by
  have hscope := sameSet_congr hreq.scopeEnvelope hrecord.scopeEnvelope
  have hyellow := sameSet_congr hreq.yellowEnvelope hrecord.yellowEnvelope
  have hkinds := sameSet_congr hreq.attestationKinds hrecord.attestationKinds
  simp only [createRequestMatches, hreq.tenant, hreq.agentName, hreq.ownerTeam, hrecord.tenant,
    hrecord.agentName, hrecord.ownerTeam, hscope, hyellow, hkinds]

/-- The record is the one that a server keeps for the request: its lists are sorted and without
repeats. -/
structure AgentRecord.Stores (record : AgentRecord) (req : CreateAgentRequest) : Prop where
  tenant : record.tenant = req.tenant
  agentName : record.agentName = req.agentName
  ownerTeam : record.ownerTeam = req.ownerTeam
  scopeEnvelope : record.scopeEnvelope = canonical req.scopeEnvelope
  yellowEnvelope : record.yellowEnvelope = canonical req.yellowEnvelope
  attestationKinds : record.attestationKindsAccepted = canonical req.attestationKinds

/-- A record that was stored of a request is described by it. -/
theorem AgentRecord.Stores.describes {record : AgentRecord} {req : CreateAgentRequest}
    (h : record.Stores req) : req.Describes record where
  tenant := h.tenant.symm
  agentName := h.agentName.symm
  ownerTeam := h.ownerTeam.symm
  scopeEnvelope := by
    rw [h.scopeEnvelope]
    exact (sameMembers_canonical _).symm
  yellowEnvelope := by
    rw [h.yellowEnvelope]
    exact (sameMembers_canonical _).symm
  attestationKinds := by
    rw [h.attestationKinds]
    exact (sameMembers_canonical _).symm

/-- The comparison before an idempotent create decides equality of names and of sets. It does not
see the order or the repetition of list entries, nor a description, and a request matches the
record that a server keeps for it. -/
theorem createRequestMatches_decides_sets :
    (∀ req record, createRequestMatches req record = true ↔
      (req.tenant = record.tenant ∧ req.agentName = record.agentName ∧
          req.ownerTeam = record.ownerTeam) ∧
        (∀ scope, scope ∈ req.scopeEnvelope ↔ scope ∈ record.scopeEnvelope) ∧
        (∀ scope, scope ∈ req.yellowEnvelope ↔ scope ∈ record.yellowEnvelope) ∧
        ∀ kind, kind ∈ req.attestationKinds ↔ kind ∈ record.attestationKindsAccepted) ∧
    (∀ (req req' : CreateAgentRequest) (record record' : AgentRecord), req.Rewrites req' →
      record.Rewrites record' →
        createRequestMatches req record = createRequestMatches req' record') ∧
    ∀ (req : CreateAgentRequest) (record : AgentRecord), record.Stores req →
      createRequestMatches req record = true := by
  refine ⟨fun req record => ?_, fun _ _ _ _ => createRequestMatches_congr, fun req record h => ?_⟩
  · rw [createRequestMatches_iff]
    constructor
    · intro h
      exact ⟨⟨h.tenant, h.agentName, h.ownerTeam⟩, h.scopeEnvelope, h.yellowEnvelope,
        h.attestationKinds⟩
    · rintro ⟨⟨htenant, hagent, howner⟩, hscope, hyellow, hkinds⟩
      exact ⟨htenant, hagent, howner, hscope, hyellow, hkinds⟩
  · rw [createRequestMatches_iff]
    exact h.describes

namespace Fixture

/-- A request whose lists repeat entries out of order. -/
def createBot : CreateAgentRequest where
  tenant := "acme"
  agentName := "bot"
  ownerTeam := "payments"
  scopeEnvelope := ["pay", "mail", "pay"]
  yellowEnvelope := []
  attestationKinds := ["tpm", "aws"]
  description := some "pays invoices"
  actorSub := none

/-- The record kept for it. -/
def bot : AgentRecord where
  tenant := "acme"
  agentName := "bot"
  scopeEnvelope := ["mail", "pay"]
  yellowEnvelope := []
  attestationKindsAccepted := ["aws", "tpm"]
  ownerTeam := "payments"
  description := none

/-- A record is matched by the request that it was stored of, also with its scopes swapped. -/
theorem createRequestMatches_decides_sets_bot :
    createRequestMatches { createBot with scopeEnvelope := ["mail", "pay"], description := none }
        bot = createRequestMatches createBot bot ∧
      createRequestMatches createBot bot = true := by
  obtain ⟨_, hrewritten, hstored⟩ := createRequestMatches_decides_sets
  constructor
  · apply hrewritten
    · refine ⟨rfl, rfl, rfl, fun scope => ?_, fun _ => Iff.rfl, fun _ => Iff.rfl⟩
      simp only [createBot, List.mem_cons, List.not_mem_nil]
      tauto
    · exact ⟨rfl, rfl, rfl, fun _ => Iff.rfl, fun _ => Iff.rfl, fun _ => Iff.rfl⟩
  · exact hstored createBot bot ⟨rfl, rfl, rfl, by decide, by decide, by decide⟩

end Fixture

/-! ### Requests

The tenant of an agent is a query parameter that is added to the URL after the join.
-/

namespace AgentsClient

/-- The reference of `get`. -/
def get (id : String) : String := s!"agents/{percentEncode id}"

/-- The reference of `id_with_tenant`. -/
def idWithTenant (id verb : String) : String := s!"agents/{percentEncode id}/{verb}"

/-- The reference of `suspend`. -/
def suspend (id : String) : String := idWithTenant id "suspend"

/-- The reference of `unsuspend`. -/
def unsuspend (id : String) : String := idWithTenant id "unsuspend"

/-- The reference of `decommission`. -/
def decommission (id : String) : String := idWithTenant id "decommission"

/-- The reference of `containment`. -/
def containment (id : String) : String := idWithTenant id "containment"

/-- The reference of `clear_containment`. -/
def clearContainment (id : String) : String := idWithTenant id "containment/clear"

/-- The reference of `envelope_narrow`. -/
def envelopeNarrow (id : String) : String := idWithTenant id "envelope/narrow"

/-- The reference of `envelope_widen`. -/
def envelopeWiden (id : String) : String := idWithTenant id "envelope/widen"

/-- The reference of `attestation_kinds`. -/
def attestationKinds (id : String) : String := idWithTenant id "attestation-kinds"

/-- The reference of `transfer_owner_team`. -/
def transferOwnerTeam (id : String) : String := idWithTenant id "owner-team"

/-- The reference of `record_certification`. -/
def recordCertification (id : String) : String := idWithTenant id "certification"

/-- The reference of `set_description`. -/
def setDescription (id : String) : String := idWithTenant id "description"

/-- The reference of `get_budget`. -/
def getBudget (tenant : String) : String := s!"tenants/{percentEncode tenant}/budget"

/-- The reference of `set_budget`. -/
def setBudget (tenant : String) : String := s!"tenants/{percentEncode tenant}/budget"

/-- The reference of `start_tenant_lifecycle`. -/
def startTenantLifecycle (tenant : String) : String :=
  s!"tenants/{percentEncode tenant}/lifecycle"

/-- The reference of `tenant_lifecycle`. -/
def tenantLifecycle (tenant operationId : String) : String :=
  s!"tenants/{percentEncode tenant}/lifecycle/{percentEncode operationId}"

/-- The reference of `claim_tenant_lifecycle_step`. -/
def claimTenantLifecycleStep (tenant operationId stepId : String) : String :=
  s!"tenants/{percentEncode tenant}/lifecycle/{percentEncode operationId}" ++
    s!"/steps/{percentEncode stepId}/claim"

/-- The reference of `complete_tenant_lifecycle_step`. -/
def completeTenantLifecycleStep (tenant operationId stepId : String) : String :=
  s!"tenants/{percentEncode tenant}/lifecycle/{percentEncode operationId}" ++
    s!"/steps/{percentEncode stepId}/complete"

/-- The reference of `retry_tenant_lifecycle_step`. -/
def retryTenantLifecycleStep (tenant operationId stepId : String) : String :=
  s!"tenants/{percentEncode tenant}/lifecycle/{percentEncode operationId}" ++
    s!"/steps/{percentEncode stepId}/retry"

/-- The reference of `offboard_tenant_effect`. -/
def offboardTenantEffect (tenant : String) : String :=
  s!"tenants/{percentEncode tenant}/offboard"

end AgentsClient

end ClavenarSdk
