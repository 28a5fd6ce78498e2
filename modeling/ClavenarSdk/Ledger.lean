import ClavenarSdk.DateTime
import ClavenarSdk.Encoding.Query
import ClavenarSdk.Url

/-!
# Ledger requests

`ledger.rs`. Each method of `LedgerClient` writes the reference that it joins to the base URL.
-/

namespace ClavenarSdk

/-- Append a parameter to a reference if there is one. -/
def pushSome {α : Type} (value : Option α) (text : α → String) (path : String) : String :=
  match value with
  | some value => path ++ text value
  | none => path

/-- A character with the Unicode property `White_Space`. -/
def isWhiteSpace (c : Char) : Bool :=
  (0x09 ≤ c.toNat && c.toNat ≤ 0x0d) || (0x2000 ≤ c.toNat && c.toNat ≤ 0x200a) ||
    c.toNat ∈ [0x20, 0x85, 0xa0, 0x1680, 0x2028, 0x2029, 0x202f, 0x205f, 0x3000]

/-- `str::trim`. -/
def trim (s : String) : String :=
  String.ofList ((s.toList.dropWhile isWhiteSpace).rdropWhile isWhiteSpace)

/-- A text without white space is trimmed already. -/
theorem trim_of_forall {s : String} (h : ∀ c ∈ s.toList, isWhiteSpace c = false) : trim s = s := by
  have hleft : s.toList.dropWhile isWhiteSpace = s.toList :=
    List.dropWhile_eq_self_iff.mpr fun hne => by simp [h _ (List.getElem_mem hne)]
  have hright : s.toList.rdropWhile isWhiteSpace = s.toList :=
    List.rdropWhile_eq_self_iff.mpr fun hne => by simp [h _ (List.getLast_mem hne)]
  rw [trim, hleft, hright, String.ofList_toList]

/-- `AuditFilterParams`. -/
structure AuditFilterParams where
  seqFrom : Option ℤ
  seqTo : Option ℤ
  from_ : Option DateTime
  to_ : Option DateTime
  methods : List String
  originalMethod : Option String
  reason : Option String
  verdict : Option String
  brainDelta : Option String

/-- `HuntParams`. -/
structure HuntParams where
  method : Option String
  signal : Option String
  authorized : Option Bool
  from_ : Option DateTime
  to_ : Option DateTime
  limit : ℤ
  demoSessionToken : Option String
  tenant : Option String

/-- `ReplayCorpusParams`. -/
structure ReplayCorpusParams where
  since : DateTime
  until_ : Option DateTime
  agentId : Option String
  toolType : Option String
  tenantPrefix : Option String
  limit : ℤ

/-- The scope of an analysis or of compliance evidence. -/
structure Scope where
  demoSessionToken : Option String
  tenant : Option String

/-- `RegulatoryExportOptions`, the fields that go into the query. -/
structure RegulatoryExportOptions where
  tenant : Option String
  includeExports : Bool
  includeCompliance : Bool

variable [Chrono]

/-- The methods that an audit filter sends. -/
def AuditFilterParams.effectiveMethods (filter : AuditFilterParams) : List String :=
  filter.methods.filter fun m => trim m ≠ ""

/-- `AuditFilterParams::append_query`. -/
def AuditFilterParams.appendQuery (filter : AuditFilterParams) (path : String) : String :=
  let path := pushSome filter.seqFrom (fun seqFrom => s!"&seq_from={seqFrom}") path
  let path := pushSome filter.seqTo (fun seqTo => s!"&seq_to={seqTo}") path
  let path := pushSome filter.from_ (fun t => s!"&from={percentEncode (toRfc3339 t)}") path
  let path := pushSome filter.to_ (fun t => s!"&to={percentEncode (toRfc3339 t)}") path
  let methods := ",".intercalate (filter.effectiveMethods.map percentEncode)
  let path := if filter.methods ≠ [] then
      if methods ≠ "" then path ++ "&methods=" ++ methods else path
    else path
  let path := pushSome filter.originalMethod
    (fun value => s!"&original_method={percentEncode value}") path
  let path := pushSome filter.reason (fun value => s!"&reason={percentEncode value}") path
  let path := pushSome filter.verdict (fun value => s!"&verdict={percentEncode value}") path
  pushSome filter.brainDelta (fun value => s!"&brain_delta={percentEncode value}") path

namespace LedgerClient

/-! ### Audit reads -/

/-- The reference of `audit_correlation`. -/
def auditCorrelation (correlationId : String) : String :=
  s!"audit/correlation/{percentEncode correlationId}"

/-- The reference of `audit_agent`. -/
def auditAgent (agentId : String) : String := s!"audit/{percentEncode agentId}"

/-- The reference of `audit_agent_paged`. -/
def auditAgentPaged (agentId : String) (limit offset : ℕ) : String :=
  s!"audit/{percentEncode agentId}?limit={limit}&offset={offset}"

/-- The reference of `audit_agent_paged_before`. -/
def auditAgentPagedBefore (agentId : String) (limit : ℕ) (beforeSeq : ℤ) : String :=
  s!"audit/{percentEncode agentId}?limit={limit}&before={beforeSeq}"

/-- The reference of `audit_agent_paged_after`. -/
def auditAgentPagedAfter (agentId : String) (limit : ℕ) (afterSeq : ℤ) : String :=
  s!"audit/{percentEncode agentId}?limit={limit}&after={afterSeq}"

/-- The reference of `audit_agent_paged_since_for_tenant`. -/
def auditAgentPagedSinceForTenant (agentId : String) (limit offset : ℕ) (since : DateTime)
    (tenant : Option String) : String :=
  let path := s!"audit/{percentEncode agentId}?limit={limit}&offset={offset}" ++
    s!"&since={percentEncode (toRfc3339 since)}"
  pushSome tenant (fun t => s!"&tenant={percentEncode t}") path

/-- The reference of `audit_agent_paged_filtered`. -/
def auditAgentPagedFiltered (agentId : String) (limit offset : ℕ) (filter : AuditFilterParams) :
    String :=
  filter.appendQuery s!"audit/{percentEncode agentId}?limit={limit}&offset={offset}"

/-- The reference of `audit_agent_paged_before_filtered`. -/
def auditAgentPagedBeforeFiltered (agentId : String) (limit : ℕ) (beforeSeq : ℤ)
    (filter : AuditFilterParams) : String :=
  filter.appendQuery s!"audit/{percentEncode agentId}?limit={limit}&before={beforeSeq}"

/-- The reference of `audit_agent_paged_after_filtered`. -/
def auditAgentPagedAfterFiltered (agentId : String) (limit : ℕ) (afterSeq : ℤ)
    (filter : AuditFilterParams) : String :=
  filter.appendQuery s!"audit/{percentEncode agentId}?limit={limit}&after={afterSeq}"

/-- The reference of `audit_agent_count`. -/
def auditAgentCount (agentId : String) : String := s!"audit/{percentEncode agentId}/count"

/-- The reference of `audit_agent_count_filtered`. -/
def auditAgentCountFiltered (agentId : String) (filter : AuditFilterParams) : String :=
  filter.appendQuery s!"audit/{percentEncode agentId}/count?"

/-- The reference of `lifecycle_for_agent`. -/
def lifecycleForAgent (tenant agentId : String) : String :=
  s!"audit/agent/{percentEncode tenant}/{percentEncode agentId}/lifecycle"

/-- The reference of `masked_params_for_entry`. -/
def maskedParamsForEntry (entryId : String) : String :=
  s!"audit/entry/{percentEncode entryId}/masked-params"

/-- The reference of `replay_corpus`. -/
def replayCorpus (params : ReplayCorpusParams) : String :=
  let path := s!"audit/replay/corpus?since={percentEncode (toRfc3339 params.since)}" ++
    s!"&limit={params.limit}"
  let path := pushSome params.until_ (fun t => s!"&until={percentEncode (toRfc3339 t)}") path
  let path := pushSome params.agentId (fun a => s!"&agent_id={percentEncode a}") path
  let path := pushSome params.toolType (fun t => s!"&tool_type={percentEncode t}") path
  pushSome params.tenantPrefix (fun tp => s!"&tenant_prefix={percentEncode tp}") path

/-! ### Analyses -/

/-- The reference of `envelope_analysis_for_tenant`. -/
def envelopeAnalysisForTenant (agentId : String) (windowDays : ℕ) (tenant : Option String) :
    String :=
  pushSome tenant (fun t => s!"&tenant={percentEncode t}")
    (s!"analysis/agent-envelope-recommendations?agent_id={percentEncode agentId}" ++
      s!"&window_days={windowDays}")

/-- The reference of `behavioral_baseline_for_tenant`. -/
def behavioralBaselineForTenant (agentId : String) (baselineDays recentDays : ℕ)
    (tenant : Option String) : String :=
  pushSome tenant (fun t => s!"&tenant={percentEncode t}")
    (s!"analysis/agent-behavioral-baseline?agent_id={percentEncode agentId}" ++
      s!"&baseline_days={baselineDays}&recent_days={recentDays}")

/-- The reference of `silent_agents_for_tenant`. -/
def silentAgentsForTenant (sinceHours : ℕ) (tenant : Option String) : String :=
  pushSome tenant (fun t => s!"&tenant={percentEncode t}")
    s!"analysis/silent-agents?since_hours={sinceHours}"

/-- The reference of `fleet_behavioral_diff_scoped`. -/
def fleetBehavioralDiffScoped (baselineDays recentDays : ℕ) (limit : ℤ) (scope : Scope) :
    String :=
  let path := s!"analysis/fleet-behavioral-diff?baseline_days={baselineDays}" ++
    s!"&recent_days={recentDays}&limit={limit}"
  let path := pushSome scope.demoSessionToken
    (fun token => s!"&demo_session_token={percentEncode token}") path
  pushSome scope.tenant (fun t => s!"&tenant={percentEncode t}") path

/-- The reference of `fleet_behavioral_diff_for_tenant`. -/
def fleetBehavioralDiffForTenant (baselineDays recentDays : ℕ) (limit : ℤ)
    (tenant : Option String) : String :=
  fleetBehavioralDiffScoped baselineDays recentDays limit ⟨none, tenant⟩

/-- The reference of `model_upgrade_canary_scoped`. -/
def modelUpgradeCanaryScoped (cutover : Option String) (windowHours : ℕ) (scope : Scope) :
    String :=
  let path := s!"analysis/model-upgrade-canary?window_hours={windowHours}"
  let path := pushSome cutover (fun c => s!"&cutover={percentEncode c}") path
  let path := pushSome scope.demoSessionToken
    (fun token => s!"&demo_session_token={percentEncode token}") path
  pushSome scope.tenant (fun t => s!"&tenant={percentEncode t}") path

/-- The reference of `model_upgrade_canary_for_tenant`. -/
def modelUpgradeCanaryForTenant (cutover : Option String) (windowHours : ℕ)
    (tenant : Option String) : String :=
  modelUpgradeCanaryScoped cutover windowHours ⟨none, tenant⟩

/-- The reference of `hunt`. -/
def hunt (params : HuntParams) : String :=
  let path := s!"audit/hunt?limit={params.limit}"
  let path := pushSome params.method (fun m => s!"&method={percentEncode m}") path
  let path := pushSome params.signal (fun s => s!"&signal={percentEncode s}") path
  let path := pushSome params.authorized (fun a => s!"&authorized={a}") path
  let path := pushSome params.from_ (fun f => s!"&from={percentEncode (toRfc3339 f)}") path
  let path := pushSome params.to_ (fun t => s!"&to={percentEncode (toRfc3339 t)}") path
  let path := pushSome params.demoSessionToken
    (fun token => s!"&demo_session_token={percentEncode token}") path
  pushSome params.tenant (fun tenant => s!"&tenant={percentEncode tenant}") path

/-! ### Finops, exports and cases -/

/-- The reference of `finops_spend`. -/
def finopsSpend (window tenant : Option String) (limit : ℤ) : String :=
  let path := s!"finops/spend?limit={limit}"
  let path := pushSome window (fun w => s!"&window={percentEncode w}") path
  pushSome tenant (fun t => s!"&tenant={percentEncode t}") path

/-- The reference of `active_agent_invoice`. -/
def activeAgentInvoice (tenant asOf observedThrough : String) : String :=
  s!"finops/active-agents?tenant={percentEncode tenant}&as_of={percentEncode asOf}" ++
    s!"&observed_through={percentEncode observedThrough}"

/-- The reference of `regulatory_export`, which needs a tenant. -/
def regulatoryExport (from_ to_ : DateTime) (opts : RegulatoryExportOptions) :
    Except ClavenarError String :=
  match opts.tenant with
  | none => .error (.invalidConfig "regulatory export requires an authenticated tenant")
  | some tenant =>
    let path := s!"export/regulatory?tenant={percentEncode tenant}" ++
      s!"&from={percentEncode (toRfc3339Secs from_)}&to={percentEncode (toRfc3339Secs to_)}"
    let path := if opts.includeExports then path ++ "&include_exports=true" else path
    .ok (if opts.includeCompliance then path ++ "&include_compliance=true" else path)

/-- The reference of `compliance_evidence_scoped`. -/
def complianceEvidenceScoped (from_ to_ : DateTime) (scope : Scope) : String :=
  let path := s!"compliance/evidence?from={percentEncode (toRfc3339Secs from_)}" ++
    s!"&to={percentEncode (toRfc3339Secs to_)}"
  let path := pushSome scope.demoSessionToken
    (fun token => s!"&demo_session_token={percentEncode token}") path
  pushSome scope.tenant (fun t => s!"&tenant={percentEncode t}") path

/-- The reference of `list_cases`. -/
def listCases (status : Option String) (limit : ℤ) : String :=
  pushSome status (fun s => s!"&status={percentEncode s}") s!"cases?limit={limit}"

/-- The reference of `get_case`. -/
def getCase (id : String) : String := s!"cases/{percentEncode id}"

/-- The reference of `append_case_timeline`. -/
def appendCaseTimeline (id : String) : String := s!"cases/{percentEncode id}/timeline"

/-- The reference of `set_case_status`. -/
def setCaseStatus (id : String) : String := s!"cases/{percentEncode id}/status"

/-- The reference of `classify_case`. -/
def classifyCase (id : String) : String := s!"cases/{percentEncode id}/classify"

/-- The reference of `attach_case`. -/
def attachCase (id : String) : String := s!"cases/{percentEncode id}/attach"

/-- The reference of `tenant_lifecycle`. -/
def tenantLifecycle (tenant : String) : String :=
  s!"admin/tenants/{percentEncode tenant}/lifecycle"

/-- The reference of `tombstone_tenant`. -/
def tombstoneTenant (tenant : String) : String :=
  s!"admin/tenants/{percentEncode tenant}/tombstone"

end LedgerClient

end ClavenarSdk
