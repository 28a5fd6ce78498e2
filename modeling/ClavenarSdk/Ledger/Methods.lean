import ClavenarSdk.Ledger.Query

/-!
# The queries of the ledger methods

Each method of `LedgerClient` that builds a query sends exactly its parameters, so none of its
values adds, drops, shadows or alters another one.
-/

namespace ClavenarSdk

open Encoding

/-- The methods of `LedgerClient` that build a query, with their arguments. -/
inductive LedgerQuery where
  | auditAgentPaged (agentId : String) (limit offset : ℕ)
  | auditAgentPagedBefore (agentId : String) (limit : ℕ) (beforeSeq : ℤ)
  | auditAgentPagedAfter (agentId : String) (limit : ℕ) (afterSeq : ℤ)
  | auditAgentPagedSinceForTenant (agentId : String) (limit offset : ℕ) (since : DateTime)
      (tenant : Option String)
  | auditAgentPagedFiltered (agentId : String) (limit offset : ℕ) (filter : AuditFilterParams)
  | auditAgentPagedBeforeFiltered (agentId : String) (limit : ℕ) (beforeSeq : ℤ)
      (filter : AuditFilterParams)
  | auditAgentPagedAfterFiltered (agentId : String) (limit : ℕ) (afterSeq : ℤ)
      (filter : AuditFilterParams)
  | auditAgentCountFiltered (agentId : String) (filter : AuditFilterParams)
  | replayCorpus (params : ReplayCorpusParams)
  | envelopeAnalysisForTenant (agentId : String) (windowDays : ℕ) (tenant : Option String)
  | behavioralBaselineForTenant (agentId : String) (baselineDays recentDays : ℕ)
      (tenant : Option String)
  | silentAgentsForTenant (sinceHours : ℕ) (tenant : Option String)
  | fleetBehavioralDiffForTenant (baselineDays recentDays : ℕ) (limit : ℤ)
      (tenant : Option String)
  | fleetBehavioralDiffScoped (baselineDays recentDays : ℕ) (limit : ℤ) (scope : Scope)
  | modelUpgradeCanaryForTenant (cutover : Option String) (windowHours : ℕ)
      (tenant : Option String)
  | modelUpgradeCanaryScoped (cutover : Option String) (windowHours : ℕ) (scope : Scope)
  | hunt (params : HuntParams)
  | finopsSpend (window tenant : Option String) (limit : ℤ)
  | activeAgentInvoice (tenant asOf observedThrough : String)
  | regulatoryExport (from_ to_ : DateTime) (opts : RegulatoryExportOptions)
  | complianceEvidenceScoped (from_ to_ : DateTime) (scope : Scope)
  | listCases (status : Option String) (limit : ℤ)

/-- The route of the audit reads of one agent. -/
def auditRoute (agentId : String) : List Char :=
  "audit/".toList ++ (percentEncode agentId).toList

/-- The route of an agent's rows begins neither a query nor a fragment, whatever the agent is
called. -/
theorem auditRoute_plain (agentId : String) : ∀ c ∈ auditRoute agentId, c ≠ '?' ∧ c ≠ '#' := by
  intro c hc
  rcases List.mem_append.mp hc with hc | hc
  · have hroute : ∀ c ∈ "audit/".toList, c ≠ '?' ∧ c ≠ '#' := by simp
    exact hroute c hc
  · have hne := ne_of_isPlain (isPlain_of_mem_percentEncode hc)
    exact ⟨hne.2.2.2.1, hne.2.2.2.2⟩

section

variable [Chrono]

namespace LedgerQuery

/-- The reference that the method joins to the base URL. -/
def reference : LedgerQuery → Except ClavenarError String
  | auditAgentPaged agentId limit offset => .ok (LedgerClient.auditAgentPaged agentId limit offset)
  | auditAgentPagedBefore agentId limit beforeSeq =>
    .ok (LedgerClient.auditAgentPagedBefore agentId limit beforeSeq)
  | auditAgentPagedAfter agentId limit afterSeq =>
    .ok (LedgerClient.auditAgentPagedAfter agentId limit afterSeq)
  | auditAgentPagedSinceForTenant agentId limit offset since tenant =>
    .ok (LedgerClient.auditAgentPagedSinceForTenant agentId limit offset since tenant)
  | auditAgentPagedFiltered agentId limit offset filter =>
    .ok (LedgerClient.auditAgentPagedFiltered agentId limit offset filter)
  | auditAgentPagedBeforeFiltered agentId limit beforeSeq filter =>
    .ok (LedgerClient.auditAgentPagedBeforeFiltered agentId limit beforeSeq filter)
  | auditAgentPagedAfterFiltered agentId limit afterSeq filter =>
    .ok (LedgerClient.auditAgentPagedAfterFiltered agentId limit afterSeq filter)
  | auditAgentCountFiltered agentId filter =>
    .ok (LedgerClient.auditAgentCountFiltered agentId filter)
  | replayCorpus params => .ok (LedgerClient.replayCorpus params)
  | envelopeAnalysisForTenant agentId windowDays tenant =>
    .ok (LedgerClient.envelopeAnalysisForTenant agentId windowDays tenant)
  | behavioralBaselineForTenant agentId baselineDays recentDays tenant =>
    .ok (LedgerClient.behavioralBaselineForTenant agentId baselineDays recentDays tenant)
  | silentAgentsForTenant sinceHours tenant =>
    .ok (LedgerClient.silentAgentsForTenant sinceHours tenant)
  | fleetBehavioralDiffForTenant baselineDays recentDays limit tenant =>
    .ok (LedgerClient.fleetBehavioralDiffForTenant baselineDays recentDays limit tenant)
  | fleetBehavioralDiffScoped baselineDays recentDays limit scope =>
    .ok (LedgerClient.fleetBehavioralDiffScoped baselineDays recentDays limit scope)
  | modelUpgradeCanaryForTenant cutover windowHours tenant =>
    .ok (LedgerClient.modelUpgradeCanaryForTenant cutover windowHours tenant)
  | modelUpgradeCanaryScoped cutover windowHours scope =>
    .ok (LedgerClient.modelUpgradeCanaryScoped cutover windowHours scope)
  | hunt params => .ok (LedgerClient.hunt params)
  | finopsSpend window tenant limit => .ok (LedgerClient.finopsSpend window tenant limit)
  | activeAgentInvoice tenant asOf observedThrough =>
    .ok (LedgerClient.activeAgentInvoice tenant asOf observedThrough)
  | regulatoryExport from_ to_ opts => LedgerClient.regulatoryExport from_ to_ opts
  | complianceEvidenceScoped from_ to_ scope =>
    .ok (LedgerClient.complianceEvidenceScoped from_ to_ scope)
  | listCases status limit => .ok (LedgerClient.listCases status limit)

/-- What the method can send: each key with the values that were asked for. -/
def slots : LedgerQuery → List (String × Option (List String))
  | auditAgentPaged _ limit offset => [always "limit" limit.repr, always "offset" offset.repr]
  | auditAgentPagedBefore _ limit beforeSeq =>
    [always "limit" limit.repr, always "before" beforeSeq.repr]
  | auditAgentPagedAfter _ limit afterSeq =>
    [always "limit" limit.repr, always "after" afterSeq.repr]
  | auditAgentPagedSinceForTenant _ limit offset since tenant =>
    [always "limit" limit.repr, always "offset" offset.repr, always "since" (toRfc3339 since),
      slot "tenant" tenant id]
  | auditAgentPagedFiltered _ limit offset filter =>
    [always "limit" limit.repr, always "offset" offset.repr] ++ filter.slots
  | auditAgentPagedBeforeFiltered _ limit beforeSeq filter =>
    [always "limit" limit.repr, always "before" beforeSeq.repr] ++ filter.slots
  | auditAgentPagedAfterFiltered _ limit afterSeq filter =>
    [always "limit" limit.repr, always "after" afterSeq.repr] ++ filter.slots
  | auditAgentCountFiltered _ filter => filter.slots
  | replayCorpus params =>
    [always "since" (toRfc3339 params.since), always "limit" params.limit.repr,
      slot "until" params.until_ toRfc3339, slot "agent_id" params.agentId id,
      slot "tool_type" params.toolType id, slot "tenant_prefix" params.tenantPrefix id]
  | envelopeAnalysisForTenant agentId windowDays tenant =>
    [always "agent_id" agentId, always "window_days" windowDays.repr, slot "tenant" tenant id]
  | behavioralBaselineForTenant agentId baselineDays recentDays tenant =>
    [always "agent_id" agentId, always "baseline_days" baselineDays.repr,
      always "recent_days" recentDays.repr, slot "tenant" tenant id]
  | silentAgentsForTenant sinceHours tenant =>
    [always "since_hours" sinceHours.repr, slot "tenant" tenant id]
  | fleetBehavioralDiffForTenant baselineDays recentDays limit tenant =>
    [always "baseline_days" baselineDays.repr, always "recent_days" recentDays.repr,
      always "limit" limit.repr, slot "tenant" tenant id]
  | fleetBehavioralDiffScoped baselineDays recentDays limit scope =>
    [always "baseline_days" baselineDays.repr, always "recent_days" recentDays.repr,
      always "limit" limit.repr, slot "demo_session_token" scope.demoSessionToken id,
      slot "tenant" scope.tenant id]
  | modelUpgradeCanaryForTenant cutover windowHours tenant =>
    [always "window_hours" windowHours.repr, slot "cutover" cutover id, slot "tenant" tenant id]
  | modelUpgradeCanaryScoped cutover windowHours scope =>
    [always "window_hours" windowHours.repr, slot "cutover" cutover id,
      slot "demo_session_token" scope.demoSessionToken id, slot "tenant" scope.tenant id]
  | hunt params =>
    [always "limit" params.limit.repr, slot "method" params.method id,
      slot "signal" params.signal id, slot "authorized" params.authorized toString,
      slot "from" params.from_ toRfc3339, slot "to" params.to_ toRfc3339,
      slot "demo_session_token" params.demoSessionToken id, slot "tenant" params.tenant id]
  | finopsSpend window tenant limit =>
    [always "limit" limit.repr, slot "window" window id, slot "tenant" tenant id]
  | activeAgentInvoice tenant asOf observedThrough =>
    [always "tenant" tenant, always "as_of" asOf, always "observed_through" observedThrough]
  | regulatoryExport from_ to_ opts =>
    [slot "tenant" opts.tenant id, always "from" (toRfc3339Secs from_),
      always "to" (toRfc3339Secs to_), flag "include_exports" opts.includeExports,
      flag "include_compliance" opts.includeCompliance]
  | complianceEvidenceScoped from_ to_ scope =>
    [always "from" (toRfc3339Secs from_), always "to" (toRfc3339Secs to_),
      slot "demo_session_token" scope.demoSessionToken id, slot "tenant" scope.tenant id]
  | listCases status limit => [always "limit" limit.repr, slot "status" status id]

/-- What the method was asked to send. -/
def params (query : LedgerQuery) : List Param := present query.slots

end LedgerQuery

/-! ### What each method sends -/

/-- A page of an agent's rows is asked for with its limit and offset. -/
theorem writes_auditAgentPaged (agentId : String) (limit offset : ℕ) :
    Writes (auditRoute agentId) (LedgerClient.auditAgentPaged agentId limit offset)
      (LedgerQuery.auditAgentPaged agentId limit offset).slots :=
  writes_of_separated (auditRoute agentId)
    [("limit", [limit.repr]), ("offset", [offset.repr])] (auditRoute_plain agentId)
    (by simp [IsKey])
    (by simp [LedgerClient.auditAgentPaged, auditRoute, Param.raw, separated_cons_cons])

/-- A page before a row is asked for with its limit and the number of the row. -/
theorem writes_auditAgentPagedBefore (agentId : String) (limit : ℕ) (beforeSeq : ℤ) :
    Writes (auditRoute agentId) (LedgerClient.auditAgentPagedBefore agentId limit beforeSeq)
      (LedgerQuery.auditAgentPagedBefore agentId limit beforeSeq).slots :=
  writes_of_separated (auditRoute agentId)
    [("limit", [limit.repr]), ("before", [beforeSeq.repr])] (auditRoute_plain agentId)
    (by simp [IsKey])
    (by simp [LedgerClient.auditAgentPagedBefore, auditRoute, Param.raw, separated_cons_cons])

/-- A page after a row is asked for with its limit and the number of the row. -/
theorem writes_auditAgentPagedAfter (agentId : String) (limit : ℕ) (afterSeq : ℤ) :
    Writes (auditRoute agentId) (LedgerClient.auditAgentPagedAfter agentId limit afterSeq)
      (LedgerQuery.auditAgentPagedAfter agentId limit afterSeq).slots :=
  writes_of_separated (auditRoute agentId)
    [("limit", [limit.repr]), ("after", [afterSeq.repr])] (auditRoute_plain agentId)
    (by simp [IsKey])
    (by simp [LedgerClient.auditAgentPagedAfter, auditRoute, Param.raw, separated_cons_cons])

/-- A page since an instant is asked for with the instant and, if there is one, the tenant. -/
theorem writes_auditAgentPagedSinceForTenant (agentId : String) (limit offset : ℕ)
    (since : DateTime) (tenant : Option String) :
    Writes (auditRoute agentId)
      (LedgerClient.auditAgentPagedSinceForTenant agentId limit offset since tenant)
      (LedgerQuery.auditAgentPagedSinceForTenant agentId limit offset since tenant).slots := by
  have h : Writes _ (s!"audit/{percentEncode agentId}?limit={limit}&offset={offset}" ++
      s!"&since={percentEncode (toRfc3339 since)}")
      [always "limit" limit.repr, always "offset" offset.repr, always "since" (toRfc3339 since)] :=
    writes_of_separated (auditRoute agentId)
      [("limit", [limit.repr]), ("offset", [offset.repr]), ("since", [toRfc3339 since])]
      (auditRoute_plain agentId) (by simp [IsKey])
      (by simp [auditRoute, Param.raw, separated_cons_cons])
  exact h.pushSome tenant "tenant" id (by simp [IsKey]) fun v => by simp

/-- A filtered page carries the parameters of the filter after its own. -/
theorem writes_auditAgentPagedFiltered (agentId : String) (limit offset : ℕ)
    (filter : AuditFilterParams) :
    Writes (auditRoute agentId) (LedgerClient.auditAgentPagedFiltered agentId limit offset filter)
      (LedgerQuery.auditAgentPagedFiltered agentId limit offset filter).slots :=
  writes_appendQuery (writes_auditAgentPaged agentId limit offset) filter

/-- So does a filtered page before a row. -/
theorem writes_auditAgentPagedBeforeFiltered (agentId : String) (limit : ℕ) (beforeSeq : ℤ)
    (filter : AuditFilterParams) :
    Writes (auditRoute agentId)
      (LedgerClient.auditAgentPagedBeforeFiltered agentId limit beforeSeq filter)
      (LedgerQuery.auditAgentPagedBeforeFiltered agentId limit beforeSeq filter).slots :=
  writes_appendQuery (writes_auditAgentPagedBefore agentId limit beforeSeq) filter

/-- So does a filtered page after a row. -/
theorem writes_auditAgentPagedAfterFiltered (agentId : String) (limit : ℕ) (afterSeq : ℤ)
    (filter : AuditFilterParams) :
    Writes (auditRoute agentId)
      (LedgerClient.auditAgentPagedAfterFiltered agentId limit afterSeq filter)
      (LedgerQuery.auditAgentPagedAfterFiltered agentId limit afterSeq filter).slots :=
  writes_appendQuery (writes_auditAgentPagedAfter agentId limit afterSeq) filter

/-- A count carries the parameters of the filter only. -/
theorem writes_auditAgentCountFiltered (agentId : String) (filter : AuditFilterParams) :
    Writes (auditRoute agentId ++ "/count".toList)
      (LedgerClient.auditAgentCountFiltered agentId filter)
      (LedgerQuery.auditAgentCountFiltered agentId filter).slots := by
  have hroute : ∀ c ∈ auditRoute agentId ++ "/count".toList, c ≠ '?' ∧ c ≠ '#' := by
    intro c hc
    rcases List.mem_append.mp hc with hc | hc
    · exact auditRoute_plain agentId c hc
    · have hcount : ∀ c ∈ "/count".toList, c ≠ '?' ∧ c ≠ '#' := by simp
      exact hcount c hc
  have h : Writes _ s!"audit/{percentEncode agentId}/count?" [] :=
    writes_of_separated _ [] hroute (by simp) (by simp [auditRoute])
  exact writes_appendQuery h filter

/-- A replay corpus is asked for with the parameters that are set. -/
theorem writes_replayCorpus (params : ReplayCorpusParams) :
    Writes "audit/replay/corpus".toList
      (LedgerClient.replayCorpus params) (LedgerQuery.replayCorpus params).slots := by
  have h : Writes _ (s!"audit/replay/corpus?since={percentEncode (toRfc3339 params.since)}" ++
      s!"&limit={params.limit}")
      [always "since" (toRfc3339 params.since), always "limit" params.limit.repr] :=
    writes_of_separated "audit/replay/corpus".toList
      [("since", [toRfc3339 params.since]), ("limit", [params.limit.repr])] (by simp)
      (by simp [IsKey]) (by simp [Param.raw, separated_cons_cons])
  exact (((h.pushSome
    params.until_ "until" toRfc3339 (by simp [IsKey]) fun v => by simp).pushSome
    params.agentId "agent_id" id (by simp [IsKey]) fun v => by simp).pushSome
    params.toolType "tool_type" id (by simp [IsKey]) fun v => by simp).pushSome
    params.tenantPrefix "tenant_prefix" id (by simp [IsKey]) fun v => by simp

/-- The analysis of an envelope is asked for with the agent, the days and the tenant. -/
theorem writes_envelopeAnalysisForTenant (agentId : String) (windowDays : ℕ)
    (tenant : Option String) :
    Writes "analysis/agent-envelope-recommendations".toList
      (LedgerClient.envelopeAnalysisForTenant agentId windowDays tenant)
      (LedgerQuery.envelopeAnalysisForTenant agentId windowDays tenant).slots := by
  have h : Writes _ (s!"analysis/agent-envelope-recommendations?agent_id={percentEncode agentId}" ++
      s!"&window_days={windowDays}")
      [always "agent_id" agentId, always "window_days" windowDays.repr] :=
    writes_of_separated "analysis/agent-envelope-recommendations".toList
      [("agent_id", [agentId]), ("window_days", [windowDays.repr])] (by simp)
      (by simp [IsKey]) (by simp [Param.raw, separated_cons_cons])
  exact h.pushSome
    tenant "tenant" id (by simp [IsKey]) fun v => by simp

/-- A behavioural baseline is asked for with the agent, both spans of days and the tenant. -/
theorem writes_behavioralBaselineForTenant (agentId : String) (baselineDays recentDays : ℕ)
    (tenant : Option String) :
    Writes "analysis/agent-behavioral-baseline".toList
      (LedgerClient.behavioralBaselineForTenant agentId baselineDays recentDays tenant)
      (LedgerQuery.behavioralBaselineForTenant agentId baselineDays recentDays tenant).slots := by
  have h : Writes _ (s!"analysis/agent-behavioral-baseline?agent_id={percentEncode agentId}" ++
      s!"&baseline_days={baselineDays}&recent_days={recentDays}")
      [always "agent_id" agentId, always "baseline_days" baselineDays.repr,
        always "recent_days" recentDays.repr] :=
    writes_of_separated "analysis/agent-behavioral-baseline".toList
      [("agent_id", [agentId]), ("baseline_days", [baselineDays.repr]),
        ("recent_days", [recentDays.repr])] (by simp)
      (by simp [IsKey]) (by simp [Param.raw, separated_cons_cons])
  exact h.pushSome
    tenant "tenant" id (by simp [IsKey]) fun v => by simp

/-- Silent agents are asked for with the hours and the tenant. -/
theorem writes_silentAgentsForTenant (sinceHours : ℕ) (tenant : Option String) :
    Writes "analysis/silent-agents".toList (LedgerClient.silentAgentsForTenant sinceHours tenant)
      (LedgerQuery.silentAgentsForTenant sinceHours tenant).slots := by
  have h : Writes _ s!"analysis/silent-agents?since_hours={sinceHours}"
      [always "since_hours" sinceHours.repr] :=
    writes_of_separated "analysis/silent-agents".toList
      [("since_hours", [sinceHours.repr])] (by simp)
      (by simp [IsKey]) (by simp [Param.raw])
  exact h.pushSome
    tenant "tenant" id (by simp [IsKey]) fun v => by simp

/-- A fleet diff is asked for with both spans of days, the limit and the scope. -/
theorem writes_fleetBehavioralDiffScoped (baselineDays recentDays : ℕ) (limit : ℤ)
    (scope : Scope) :
    Writes "analysis/fleet-behavioral-diff".toList
      (LedgerClient.fleetBehavioralDiffScoped baselineDays recentDays limit scope)
      (LedgerQuery.fleetBehavioralDiffScoped baselineDays recentDays limit scope).slots := by
  have h : Writes _ (s!"analysis/fleet-behavioral-diff?baseline_days={baselineDays}" ++
      s!"&recent_days={recentDays}&limit={limit}")
      [always "baseline_days" baselineDays.repr, always "recent_days" recentDays.repr,
        always "limit" limit.repr] :=
    writes_of_separated "analysis/fleet-behavioral-diff".toList
      [("baseline_days", [baselineDays.repr]), ("recent_days", [recentDays.repr]),
        ("limit", [limit.repr])] (by simp)
      (by simp [IsKey]) (by simp [Param.raw, separated_cons_cons])
  exact (h.pushSome
    scope.demoSessionToken "demo_session_token" id (by simp [IsKey]) fun v => by simp).pushSome
    scope.tenant "tenant" id (by simp [IsKey]) fun v => by simp

/-- A canary of a model upgrade is asked for with the cutover, the hours and the scope. -/
theorem writes_modelUpgradeCanaryScoped (cutover : Option String) (windowHours : ℕ)
    (scope : Scope) :
    Writes "analysis/model-upgrade-canary".toList
      (LedgerClient.modelUpgradeCanaryScoped cutover windowHours scope)
      (LedgerQuery.modelUpgradeCanaryScoped cutover windowHours scope).slots := by
  have h : Writes _ s!"analysis/model-upgrade-canary?window_hours={windowHours}"
      [always "window_hours" windowHours.repr] :=
    writes_of_separated "analysis/model-upgrade-canary".toList
      [("window_hours", [windowHours.repr])] (by simp)
      (by simp [IsKey]) (by simp [Param.raw])
  exact ((h.pushSome
    cutover "cutover" id (by simp [IsKey]) fun v => by simp).pushSome
    scope.demoSessionToken "demo_session_token" id (by simp [IsKey]) fun v => by simp).pushSome
    scope.tenant "tenant" id (by simp [IsKey]) fun v => by simp

/-- A hunt carries the parameters that are set, and its limit. -/
theorem writes_hunt (params : HuntParams) :
    Writes "audit/hunt".toList (LedgerClient.hunt params) (LedgerQuery.hunt params).slots := by
  have h : Writes _ s!"audit/hunt?limit={params.limit}"
      [always "limit" params.limit.repr] :=
    writes_of_separated "audit/hunt".toList
      [("limit", [params.limit.repr])] (by simp)
      (by simp [IsKey]) (by simp [Param.raw])
  exact ((((((h.pushSome
    params.method "method" id (by simp [IsKey]) fun v => by simp).pushSome
    params.signal "signal" id (by simp [IsKey]) fun v => by simp).pushSome
    params.authorized "authorized" toString (by simp [IsKey]) fun v => by simp).pushSome
    params.from_ "from" toRfc3339 (by simp [IsKey]) fun v => by simp).pushSome
    params.to_ "to" toRfc3339 (by simp [IsKey]) fun v => by simp).pushSome
    params.demoSessionToken "demo_session_token" id (by simp [IsKey]) fun v => by simp).pushSome
    params.tenant "tenant" id (by simp [IsKey]) fun v => by simp

/-- Spend is asked for with the window, the tenant and the limit. -/
theorem writes_finopsSpend (window tenant : Option String) (limit : ℤ) :
    Writes "finops/spend".toList (LedgerClient.finopsSpend window tenant limit)
      (LedgerQuery.finopsSpend window tenant limit).slots := by
  have h : Writes _ s!"finops/spend?limit={limit}"
      [always "limit" limit.repr] :=
    writes_of_separated "finops/spend".toList
      [("limit", [limit.repr])] (by simp)
      (by simp [IsKey]) (by simp [Param.raw])
  exact (h.pushSome
    window "window" id (by simp [IsKey]) fun v => by simp).pushSome
    tenant "tenant" id (by simp [IsKey]) fun v => by simp

/-- An invoice is asked for with the tenant and both dates. -/
theorem writes_activeAgentInvoice (tenant asOf observedThrough : String) :
    Writes "finops/active-agents".toList
      (LedgerClient.activeAgentInvoice tenant asOf observedThrough)
      (LedgerQuery.activeAgentInvoice tenant asOf observedThrough).slots := by
  have h : Writes _
      (s!"finops/active-agents?tenant={percentEncode tenant}&as_of={percentEncode asOf}" ++
      s!"&observed_through={percentEncode observedThrough}")
      [always "tenant" tenant, always "as_of" asOf, always "observed_through" observedThrough] :=
    writes_of_separated "finops/active-agents".toList
      [("tenant", [tenant]), ("as_of", [asOf]), ("observed_through", [observedThrough])] (by simp)
      (by simp [IsKey]) (by simp [Param.raw, separated_cons_cons])
  exact h

/-- Compliance evidence is asked for with both bounds and the scope. -/
theorem writes_complianceEvidenceScoped (from_ to_ : DateTime) (scope : Scope) :
    Writes "compliance/evidence".toList (LedgerClient.complianceEvidenceScoped from_ to_ scope)
      (LedgerQuery.complianceEvidenceScoped from_ to_ scope).slots := by
  have h : Writes _ (s!"compliance/evidence?from={percentEncode (toRfc3339Secs from_)}" ++
      s!"&to={percentEncode (toRfc3339Secs to_)}")
      [always "from" (toRfc3339Secs from_), always "to" (toRfc3339Secs to_)] :=
    writes_of_separated "compliance/evidence".toList
      [("from", [toRfc3339Secs from_]), ("to", [toRfc3339Secs to_])] (by simp)
      (by simp [IsKey]) (by simp [Param.raw, separated_cons_cons])
  exact (h.pushSome
    scope.demoSessionToken "demo_session_token" id (by simp [IsKey]) fun v => by simp).pushSome
    scope.tenant "tenant" id (by simp [IsKey]) fun v => by simp

/-- Cases are asked for with the status and the limit. -/
theorem writes_listCases (status : Option String) (limit : ℤ) :
    Writes "cases".toList
      (LedgerClient.listCases status limit) (LedgerQuery.listCases status limit).slots := by
  have h : Writes _ s!"cases?limit={limit}"
      [always "limit" limit.repr] :=
    writes_of_separated "cases".toList
      [("limit", [limit.repr])] (by simp)
      (by simp [IsKey]) (by simp [Param.raw])
  exact h.pushSome
    status "status" id (by simp [IsKey]) fun v => by simp

/-- An export that is not refused is asked for with both bounds, the tenant and the flags that are
set. -/
theorem writes_regulatoryExport (from_ to_ : DateTime) (opts : RegulatoryExportOptions)
    {reference : String} (h : LedgerClient.regulatoryExport from_ to_ opts = .ok reference) :
    Writes "export/regulatory".toList
      reference (LedgerQuery.regulatoryExport from_ to_ opts).slots := by
  obtain ⟨tenant, includeExports, includeCompliance⟩ := opts
  cases tenant with
  | none => exact absurd h nofun
  | some tenant =>
    have hbase : Writes _ (s!"export/regulatory?tenant={percentEncode tenant}" ++
        s!"&from={percentEncode (toRfc3339Secs from_)}&to={percentEncode (toRfc3339Secs to_)}")
        [always "tenant" tenant, always "from" (toRfc3339Secs from_),
          always "to" (toRfc3339Secs to_)] :=
      writes_of_separated "export/regulatory".toList
        [("tenant", [tenant]), ("from", [toRfc3339Secs from_]), ("to", [toRfc3339Secs to_])]
        (by simp) (by simp [IsKey]) (by simp [Param.raw, separated_cons_cons])
    rw [← Except.ok.inj h]
    exact (hbase.pushFlag includeExports "include_exports" "&include_exports=true"
      (by simp [IsKey]) (by simp)).pushFlag includeCompliance "include_compliance"
      "&include_compliance=true" (by simp [IsKey]) (by simp)

/-! ### Reading a query back -/

/-- Every method sends the parameters that it was given. -/
theorem LedgerQuery.writes {query : LedgerQuery} {reference : String}
    (h : query.reference = .ok reference) :
    ∃ route slots, Writes route reference slots ∧ present slots = query.params := by
  cases query with
  | regulatoryExport from_ to_ opts => exact ⟨_, _, writes_regulatoryExport from_ to_ opts h, rfl⟩
  | fleetBehavioralDiffForTenant baselineDays recentDays limit tenant =>
    rw [← Except.ok.inj h]
    exact ⟨_, _, writes_fleetBehavioralDiffScoped baselineDays recentDays limit ⟨none, tenant⟩, rfl⟩
  | modelUpgradeCanaryForTenant cutover windowHours tenant =>
    rw [← Except.ok.inj h]
    exact ⟨_, _, writes_modelUpgradeCanaryScoped cutover windowHours ⟨none, tenant⟩, rfl⟩
  | auditAgentPaged => exact ⟨_, _, Except.ok.inj h ▸ writes_auditAgentPaged .., rfl⟩
  | auditAgentPagedBefore => exact ⟨_, _, Except.ok.inj h ▸ writes_auditAgentPagedBefore .., rfl⟩
  | auditAgentPagedAfter => exact ⟨_, _, Except.ok.inj h ▸ writes_auditAgentPagedAfter .., rfl⟩
  | auditAgentPagedSinceForTenant =>
    exact ⟨_, _, Except.ok.inj h ▸ writes_auditAgentPagedSinceForTenant .., rfl⟩
  | auditAgentPagedFiltered =>
    exact ⟨_, _, Except.ok.inj h ▸ writes_auditAgentPagedFiltered .., rfl⟩
  | auditAgentPagedBeforeFiltered =>
    exact ⟨_, _, Except.ok.inj h ▸ writes_auditAgentPagedBeforeFiltered .., rfl⟩
  | auditAgentPagedAfterFiltered =>
    exact ⟨_, _, Except.ok.inj h ▸ writes_auditAgentPagedAfterFiltered .., rfl⟩
  | auditAgentCountFiltered =>
    exact ⟨_, _, Except.ok.inj h ▸ writes_auditAgentCountFiltered .., rfl⟩
  | replayCorpus => exact ⟨_, _, Except.ok.inj h ▸ writes_replayCorpus .., rfl⟩
  | envelopeAnalysisForTenant =>
    exact ⟨_, _, Except.ok.inj h ▸ writes_envelopeAnalysisForTenant .., rfl⟩
  | behavioralBaselineForTenant =>
    exact ⟨_, _, Except.ok.inj h ▸ writes_behavioralBaselineForTenant .., rfl⟩
  | silentAgentsForTenant => exact ⟨_, _, Except.ok.inj h ▸ writes_silentAgentsForTenant .., rfl⟩
  | fleetBehavioralDiffScoped =>
    exact ⟨_, _, Except.ok.inj h ▸ writes_fleetBehavioralDiffScoped .., rfl⟩
  | modelUpgradeCanaryScoped =>
    exact ⟨_, _, Except.ok.inj h ▸ writes_modelUpgradeCanaryScoped .., rfl⟩
  | hunt => exact ⟨_, _, Except.ok.inj h ▸ writes_hunt .., rfl⟩
  | finopsSpend => exact ⟨_, _, Except.ok.inj h ▸ writes_finopsSpend .., rfl⟩
  | activeAgentInvoice => exact ⟨_, _, Except.ok.inj h ▸ writes_activeAgentInvoice .., rfl⟩
  | complianceEvidenceScoped =>
    exact ⟨_, _, Except.ok.inj h ▸ writes_complianceEvidenceScoped .., rfl⟩
  | listCases => exact ⟨_, _, Except.ok.inj h ▸ writes_listCases .., rfl⟩

/-- The keys that a method can send are distinct. -/
theorem LedgerQuery.nodup_keys_slots (query : LedgerQuery) : (query.slots.map Prod.fst).Nodup := by
  cases query <;> simp [LedgerQuery.slots, AuditFilterParams.slots, slot, always, flag]

/-- No request repeats a key. -/
theorem LedgerQuery.nodup_keys (query : LedgerQuery) : (query.params.map Prod.fst).Nodup :=
  (keys_present_sublist query.slots).nodup query.nodup_keys_slots

omit [Chrono] in
/-- The keys and the bytes of the values determine the parameters. -/
theorem params_injective :
    Function.Injective fun params : List Param =>
      params.map fun p => (p.1.toList, p.2.map utf8Bytes) := by
  apply List.map_injective_iff.mpr
  rintro ⟨key, values⟩ ⟨key', values'⟩ h
  obtain ⟨hkey, hvalues⟩ := Prod.mk.inj h
  exact Prod.ext (String.toList_injective hkey)
    (List.map_injective_iff.mpr utf8Bytes_injective hvalues)

/-- What a server reads when it splits the values at commas before it decodes them. -/
theorem LedgerQuery.map_splitOn {query : LedgerQuery} {reference : String}
    (h : query.reference = .ok reference) :
    ((queryPairs (queryPart reference.toList)).map fun p =>
        (p.1, (p.2.splitOn ',').map percentDecode)) =
      query.params.map fun p => (p.1.toList, p.2.map utf8Bytes) := by
  obtain ⟨route, slots, hwrites, hparams⟩ := LedgerQuery.writes h
  rw [hwrites.1.queryPairs, List.map_map, ← hparams]
  apply List.map_congr_left
  intro p hp
  rw [Function.comp_apply, Param.map_percentDecode_splitOn_raw (hwrites.2 p hp).2]
  rfl

/-- A query reads as exactly the parameters of its method, each once and in order: the values of
`methods` one by one when they are split at the commas, and all of them with commas between them
when they are not. Calls with different parameters have different queries. -/
theorem LedgerQuery.reads_exactly {query : LedgerQuery} {reference : String}
    (h : query.reference = .ok reference) :
    ((queryPairs (queryPart reference.toList)).map fun p => (p.1, percentDecode p.2)) =
        query.params.map (fun p => (p.1.toList, utf8Bytes (",".intercalate p.2))) ∧
      ((queryPairs (queryPart reference.toList)).map fun p =>
          (p.1, (p.2.splitOn ',').map percentDecode)) =
        query.params.map (fun p => (p.1.toList, p.2.map utf8Bytes)) ∧
      (query.params.map Prod.fst).Nodup ∧
      ∀ {query' : LedgerQuery} {reference' : String}, query'.reference = .ok reference' →
        queryPart reference.toList = queryPart reference'.toList →
          query.params = query'.params := by
  refine ⟨?_, LedgerQuery.map_splitOn h, query.nodup_keys, ?_⟩
  · obtain ⟨route, slots, hwrites, hparams⟩ := LedgerQuery.writes h
    rw [hwrites.1.queryPairs, List.map_map, ← hparams]
    apply List.map_congr_left
    intro p _
    rw [Function.comp_apply, Param.percentDecode_raw]
    rfl
  · intro query' reference' h' hsame
    apply params_injective
    dsimp only
    rw [← LedgerQuery.map_splitOn h, hsame, LedgerQuery.map_splitOn h']

end

namespace Fixture

/-- `chrono` on the first seconds of the epoch. -/
@[reducible] def chrono : Chrono where
  toRfc3339 t := s!"1970-01-01T00:00:0{t.secs}+00:00"
  toRfc3339Secs t := s!"1970-01-01T00:00:0{t.secs}Z"

attribute [local instance] chrono

/-- A hunt whose method is written to look like another parameter. -/
def huntParams : HuntParams where
  method := some "a&tenant=b,%26"
  signal := none
  authorized := some true
  from_ := some (.ofSecs 1)
  to_ := none
  limit := 50
  demoSessionToken := none
  tenant := some "acme"

/-- The hunt is read as it was meant: its method stays one value. -/
theorem reads_exactly_hunt :
    ((queryPairs (queryPart (LedgerClient.hunt huntParams).toList)).map fun p =>
        (p.1, percentDecode p.2)) =
      [("limit".toList, utf8Bytes "50"), ("method".toList, utf8Bytes "a&tenant=b,%26"),
        ("authorized".toList, utf8Bytes "true"),
        ("from".toList, utf8Bytes "1970-01-01T00:00:01+00:00"),
        ("tenant".toList, utf8Bytes "acme")] :=
  (@LedgerQuery.reads_exactly chrono (.hunt huntParams) _ rfl).1

end Fixture

end ClavenarSdk
