import ClavenarSdk.Agents
import ClavenarSdk.Ledger.Methods
import ClavenarSdk.Policies

/-!
# Identifiers in paths

The methods of the ledger, agent and policy clients insert identifiers of the caller between the
fixed names of a path. An identifier stays one segment of the requested path unless it is a dot
segment, which the encoding does not change.
-/

namespace ClavenarSdk

open Encoding

/-! ### Names -/

/-- The fixed names in the paths of the clients. -/
def pathNames : List String :=
  ["audit", "correlation", "count", "agent", "lifecycle", "entry", "masked-params", "cases",
    "timeline", "status", "classify", "attach", "admin", "tenants", "tombstone", "agents",
    "suspend", "unsuspend", "decommission", "containment", "clear", "envelope", "narrow", "widen",
    "attestation-kinds", "owner-team", "certification", "description", "budget", "steps", "claim",
    "complete", "retry", "offboard", "policies", "tenant", "provision", "versions", "diff",
    "activate", "deactivate", "categories", "rollback", "templates", "install", "lab"]

/-- Every fixed name is a word. -/
theorem isWord_pathNames : ∀ name ∈ pathNames, IsWord name := by
  simp [pathNames, IsWord]

/-- The parts of a path are words and identifiers, and begin with a word. -/
def IsRoute (parts : List PathPart) : Prop :=
  (∃ lead next rest, parts = .literal lead :: next :: rest) ∧
    ∀ name, .literal name ∈ parts → IsWord name

/-- A reference that consists of the parts of a route, and perhaps of a query. -/
theorem IsRoute.spells {parts : List PathPart} (h : IsRoute parts) {reference : String}
    {tail : List Char} (htail : IsQuery tail)
    (htext : reference.toList = separated '/' (parts.map PathPart.text) ++ tail) :
    Spells reference parts :=
  ⟨h.1, fun name hname => (h.2 name hname).isName, tail, htail, htext⟩

/-- A reference that consists of the parts of a route spells it. -/
theorem IsRoute.spells_of_text {parts : List PathPart} (h : IsRoute parts) {reference : String}
    (htext : reference.toList = separated '/' (parts.map PathPart.text)) :
    Spells reference parts :=
  h.spells (.inl rfl) (by rw [htext, List.append_nil])

/-- So does a reference that writes parameters after the route. -/
theorem IsRoute.spells_of_writes {parts : List PathPart} (h : IsRoute parts) {route : List Char}
    {reference : String} {slots : List (String × Option (List String))}
    (hwrites : Writes route reference slots)
    (hroute : route = separated '/' (parts.map PathPart.text)) : Spells reference parts := by
  obtain ⟨⟨-, query, htext, hquery, -⟩, -⟩ := hwrites
  exact h.spells (.inr ⟨query, rfl, fun c hc => (hquery c hc).2⟩) (by rw [htext, hroute])

/-! ### `LedgerClient` -/

/-- The route of an agent's rows, part by part. -/
theorem auditRoute_eq (agentId : String) :
    auditRoute agentId =
      separated '/' ([PathPart.literal "audit", .inserted agentId].map PathPart.text) := by
  simp [auditRoute, PathPart.text, separated_cons_cons]

/-- The route of the count, part by part. -/
theorem auditRoute_append_count (agentId : String) :
    auditRoute agentId ++ "/count".toList =
      separated '/' ([PathPart.literal "audit", .inserted agentId, .literal "count"].map
        PathPart.text) := by
  simp [auditRoute, PathPart.text, separated_cons_cons]

/-- The methods of `LedgerClient` that insert identifiers in a path, with their arguments. -/
inductive LedgerPath where
  | auditCorrelation (correlationId : String)
  | auditAgent (agentId : String)
  | auditAgentPaged (agentId : String) (limit offset : ℕ)
  | auditAgentPagedBefore (agentId : String) (limit : ℕ) (beforeSeq : ℤ)
  | auditAgentPagedAfter (agentId : String) (limit : ℕ) (afterSeq : ℤ)
  | auditAgentPagedSinceForTenant (agentId : String) (limit offset : ℕ) (since : DateTime)
      (tenant : Option String)
  | auditAgentPagedFiltered (agentId : String) (limit offset : ℕ) (filter : AuditFilterParams)
  | auditAgentPagedBeforeFiltered (agentId : String) (limit : ℕ) (beforeSeq : ℤ)
      (filter : AuditFilterParams)
  | auditAgentPagedAfterFiltered (agentId : String) (limit : ℕ) (afterSeq : ℤ)
      (filter : AuditFilterParams)
  | auditAgentCount (agentId : String)
  | auditAgentCountFiltered (agentId : String) (filter : AuditFilterParams)
  | lifecycleForAgent (tenant agentId : String)
  | maskedParamsForEntry (entryId : String)
  | getCase (id : String)
  | appendCaseTimeline (id : String)
  | setCaseStatus (id : String)
  | classifyCase (id : String)
  | attachCase (id : String)
  | tenantLifecycle (tenant : String)
  | tombstoneTenant (tenant : String)

namespace LedgerPath

variable [Chrono] in
/-- The reference that the method joins to the base URL. -/
def reference : LedgerPath → String
  | auditCorrelation correlationId => LedgerClient.auditCorrelation correlationId
  | auditAgent agentId => LedgerClient.auditAgent agentId
  | auditAgentPaged agentId limit offset => LedgerClient.auditAgentPaged agentId limit offset
  | auditAgentPagedBefore agentId limit beforeSeq =>
    LedgerClient.auditAgentPagedBefore agentId limit beforeSeq
  | auditAgentPagedAfter agentId limit afterSeq =>
    LedgerClient.auditAgentPagedAfter agentId limit afterSeq
  | auditAgentPagedSinceForTenant agentId limit offset since tenant =>
    LedgerClient.auditAgentPagedSinceForTenant agentId limit offset since tenant
  | auditAgentPagedFiltered agentId limit offset filter =>
    LedgerClient.auditAgentPagedFiltered agentId limit offset filter
  | auditAgentPagedBeforeFiltered agentId limit beforeSeq filter =>
    LedgerClient.auditAgentPagedBeforeFiltered agentId limit beforeSeq filter
  | auditAgentPagedAfterFiltered agentId limit afterSeq filter =>
    LedgerClient.auditAgentPagedAfterFiltered agentId limit afterSeq filter
  | auditAgentCount agentId => LedgerClient.auditAgentCount agentId
  | auditAgentCountFiltered agentId filter => LedgerClient.auditAgentCountFiltered agentId filter
  | lifecycleForAgent tenant agentId => LedgerClient.lifecycleForAgent tenant agentId
  | maskedParamsForEntry entryId => LedgerClient.maskedParamsForEntry entryId
  | getCase id => LedgerClient.getCase id
  | appendCaseTimeline id => LedgerClient.appendCaseTimeline id
  | setCaseStatus id => LedgerClient.setCaseStatus id
  | classifyCase id => LedgerClient.classifyCase id
  | attachCase id => LedgerClient.attachCase id
  | tenantLifecycle tenant => LedgerClient.tenantLifecycle tenant
  | tombstoneTenant tenant => LedgerClient.tombstoneTenant tenant

/-- The segments that the method means. -/
def parts : LedgerPath → List PathPart
  | auditCorrelation correlationId =>
    [.literal "audit", .literal "correlation", .inserted correlationId]
  | auditAgent agentId => [.literal "audit", .inserted agentId]
  | auditAgentPaged agentId _ _ => [.literal "audit", .inserted agentId]
  | auditAgentPagedBefore agentId _ _ => [.literal "audit", .inserted agentId]
  | auditAgentPagedAfter agentId _ _ => [.literal "audit", .inserted agentId]
  | auditAgentPagedSinceForTenant agentId _ _ _ _ => [.literal "audit", .inserted agentId]
  | auditAgentPagedFiltered agentId _ _ _ => [.literal "audit", .inserted agentId]
  | auditAgentPagedBeforeFiltered agentId _ _ _ => [.literal "audit", .inserted agentId]
  | auditAgentPagedAfterFiltered agentId _ _ _ => [.literal "audit", .inserted agentId]
  | auditAgentCount agentId => [.literal "audit", .inserted agentId, .literal "count"]
  | auditAgentCountFiltered agentId _ => [.literal "audit", .inserted agentId, .literal "count"]
  | lifecycleForAgent tenant agentId =>
    [.literal "audit", .literal "agent", .inserted tenant, .inserted agentId, .literal "lifecycle"]
  | maskedParamsForEntry entryId =>
    [.literal "audit", .literal "entry", .inserted entryId, .literal "masked-params"]
  | getCase id => [.literal "cases", .inserted id]
  | appendCaseTimeline id => [.literal "cases", .inserted id, .literal "timeline"]
  | setCaseStatus id => [.literal "cases", .inserted id, .literal "status"]
  | classifyCase id => [.literal "cases", .inserted id, .literal "classify"]
  | attachCase id => [.literal "cases", .inserted id, .literal "attach"]
  | tenantLifecycle tenant =>
    [.literal "admin", .literal "tenants", .inserted tenant, .literal "lifecycle"]
  | tombstoneTenant tenant =>
    [.literal "admin", .literal "tenants", .inserted tenant, .literal "tombstone"]

/-- The parts of a ledger path make a route. -/
theorem isRoute_parts (call : LedgerPath) : IsRoute call.parts := by
  have hwords := isWord_pathNames
  simp only [pathNames, List.forall_mem_cons] at hwords
  cases call <;> simp [IsRoute, parts, hwords]

/-- Every method spells the segments that it means. -/
theorem spells [Chrono] (call : LedgerPath) : Spells call.reference call.parts := by
  have hroute := call.isRoute_parts
  cases call with
  | auditAgentPaged agentId =>
    exact hroute.spells_of_writes (writes_auditAgentPaged ..) (auditRoute_eq agentId)
  | auditAgentPagedBefore agentId =>
    exact hroute.spells_of_writes (writes_auditAgentPagedBefore ..) (auditRoute_eq agentId)
  | auditAgentPagedAfter agentId =>
    exact hroute.spells_of_writes (writes_auditAgentPagedAfter ..) (auditRoute_eq agentId)
  | auditAgentPagedSinceForTenant agentId =>
    exact hroute.spells_of_writes (writes_auditAgentPagedSinceForTenant ..) (auditRoute_eq agentId)
  | auditAgentPagedFiltered agentId =>
    exact hroute.spells_of_writes (writes_auditAgentPagedFiltered ..) (auditRoute_eq agentId)
  | auditAgentPagedBeforeFiltered agentId =>
    exact hroute.spells_of_writes (writes_auditAgentPagedBeforeFiltered ..) (auditRoute_eq agentId)
  | auditAgentPagedAfterFiltered agentId =>
    exact hroute.spells_of_writes (writes_auditAgentPagedAfterFiltered ..) (auditRoute_eq agentId)
  | auditAgentCountFiltered agentId =>
    exact hroute.spells_of_writes (writes_auditAgentCountFiltered ..)
      (auditRoute_append_count agentId)
  | auditCorrelation | auditAgent | auditAgentCount | lifecycleForAgent | maskedParamsForEntry
  | getCase | appendCaseTimeline | setCaseStatus | classifyCase | attachCase | tenantLifecycle
  | tombstoneTenant =>
    apply hroute.spells_of_text
    dsimp only [reference, parts]
    delta LedgerClient.auditCorrelation LedgerClient.auditAgent LedgerClient.auditAgentCount
      LedgerClient.lifecycleForAgent LedgerClient.maskedParamsForEntry LedgerClient.getCase
      LedgerClient.appendCaseTimeline LedgerClient.setCaseStatus LedgerClient.classifyCase
      LedgerClient.attachCase LedgerClient.tenantLifecycle LedgerClient.tombstoneTenant
    simp [PathPart.text, separated_cons_cons]

end LedgerPath

/-! ### `AgentsClient` -/

/-- The methods of `AgentsClient` that insert identifiers in a path, with these identifiers. -/
inductive AgentsPath where
  | get (id : String)
  | suspend (id : String)
  | unsuspend (id : String)
  | decommission (id : String)
  | containment (id : String)
  | clearContainment (id : String)
  | envelopeNarrow (id : String)
  | envelopeWiden (id : String)
  | attestationKinds (id : String)
  | transferOwnerTeam (id : String)
  | recordCertification (id : String)
  | setDescription (id : String)
  | getBudget (tenant : String)
  | setBudget (tenant : String)
  | startTenantLifecycle (tenant : String)
  | tenantLifecycle (tenant operationId : String)
  | claimTenantLifecycleStep (tenant operationId stepId : String)
  | completeTenantLifecycleStep (tenant operationId stepId : String)
  | retryTenantLifecycleStep (tenant operationId stepId : String)
  | offboardTenantEffect (tenant : String)

namespace AgentsPath

/-- The reference that the method joins to the base URL. -/
def reference : AgentsPath → String
  | get id => AgentsClient.get id
  | suspend id => AgentsClient.suspend id
  | unsuspend id => AgentsClient.unsuspend id
  | decommission id => AgentsClient.decommission id
  | containment id => AgentsClient.containment id
  | clearContainment id => AgentsClient.clearContainment id
  | envelopeNarrow id => AgentsClient.envelopeNarrow id
  | envelopeWiden id => AgentsClient.envelopeWiden id
  | attestationKinds id => AgentsClient.attestationKinds id
  | transferOwnerTeam id => AgentsClient.transferOwnerTeam id
  | recordCertification id => AgentsClient.recordCertification id
  | setDescription id => AgentsClient.setDescription id
  | getBudget tenant => AgentsClient.getBudget tenant
  | setBudget tenant => AgentsClient.setBudget tenant
  | startTenantLifecycle tenant => AgentsClient.startTenantLifecycle tenant
  | tenantLifecycle tenant operationId => AgentsClient.tenantLifecycle tenant operationId
  | claimTenantLifecycleStep tenant operationId stepId =>
    AgentsClient.claimTenantLifecycleStep tenant operationId stepId
  | completeTenantLifecycleStep tenant operationId stepId =>
    AgentsClient.completeTenantLifecycleStep tenant operationId stepId
  | retryTenantLifecycleStep tenant operationId stepId =>
    AgentsClient.retryTenantLifecycleStep tenant operationId stepId
  | offboardTenantEffect tenant => AgentsClient.offboardTenantEffect tenant

/-- The segments that the method means. -/
def parts : AgentsPath → List PathPart
  | get id => [.literal "agents", .inserted id]
  | suspend id => [.literal "agents", .inserted id, .literal "suspend"]
  | unsuspend id => [.literal "agents", .inserted id, .literal "unsuspend"]
  | decommission id => [.literal "agents", .inserted id, .literal "decommission"]
  | containment id => [.literal "agents", .inserted id, .literal "containment"]
  | clearContainment id =>
    [.literal "agents", .inserted id, .literal "containment", .literal "clear"]
  | envelopeNarrow id => [.literal "agents", .inserted id, .literal "envelope", .literal "narrow"]
  | envelopeWiden id => [.literal "agents", .inserted id, .literal "envelope", .literal "widen"]
  | attestationKinds id => [.literal "agents", .inserted id, .literal "attestation-kinds"]
  | transferOwnerTeam id => [.literal "agents", .inserted id, .literal "owner-team"]
  | recordCertification id => [.literal "agents", .inserted id, .literal "certification"]
  | setDescription id => [.literal "agents", .inserted id, .literal "description"]
  | getBudget tenant => [.literal "tenants", .inserted tenant, .literal "budget"]
  | setBudget tenant => [.literal "tenants", .inserted tenant, .literal "budget"]
  | startTenantLifecycle tenant => [.literal "tenants", .inserted tenant, .literal "lifecycle"]
  | tenantLifecycle tenant operationId =>
    [.literal "tenants", .inserted tenant, .literal "lifecycle", .inserted operationId]
  | claimTenantLifecycleStep tenant operationId stepId =>
    [.literal "tenants", .inserted tenant, .literal "lifecycle", .inserted operationId,
      .literal "steps", .inserted stepId, .literal "claim"]
  | completeTenantLifecycleStep tenant operationId stepId =>
    [.literal "tenants", .inserted tenant, .literal "lifecycle", .inserted operationId,
      .literal "steps", .inserted stepId, .literal "complete"]
  | retryTenantLifecycleStep tenant operationId stepId =>
    [.literal "tenants", .inserted tenant, .literal "lifecycle", .inserted operationId,
      .literal "steps", .inserted stepId, .literal "retry"]
  | offboardTenantEffect tenant => [.literal "tenants", .inserted tenant, .literal "offboard"]

/-- The parts of an agents path make a route. -/
theorem isRoute_parts (call : AgentsPath) : IsRoute call.parts := by
  have hwords := isWord_pathNames
  simp only [pathNames, List.forall_mem_cons] at hwords
  cases call <;> simp [IsRoute, parts, hwords]

/-- Every method spells the segments that it means. -/
theorem spells (call : AgentsPath) : Spells call.reference call.parts := by
  apply call.isRoute_parts.spells_of_text
  cases call <;>
    (dsimp only [reference, parts]
     delta AgentsClient.idWithTenant AgentsClient.get AgentsClient.suspend AgentsClient.unsuspend
       AgentsClient.decommission AgentsClient.containment AgentsClient.clearContainment
       AgentsClient.envelopeNarrow AgentsClient.envelopeWiden AgentsClient.attestationKinds
       AgentsClient.transferOwnerTeam AgentsClient.recordCertification AgentsClient.setDescription
       AgentsClient.getBudget AgentsClient.setBudget AgentsClient.startTenantLifecycle
       AgentsClient.tenantLifecycle AgentsClient.claimTenantLifecycleStep
       AgentsClient.completeTenantLifecycleStep AgentsClient.retryTenantLifecycleStep
       AgentsClient.offboardTenantEffect
     simp [PathPart.text, separated_cons_cons])

end AgentsPath

/-! ### `PoliciesClient` -/

/-- The methods of `PoliciesClient` that insert identifiers in a path, with their arguments. -/
inductive PoliciesPath where
  | tenantLifecycle (tenant : String)
  | provisionTenant (tenant : String)
  | get (name : String)
  | listVersions (name : String)
  | getVersion (name : String) (version : ℤ)
  | diff (name : String)
  | update (name : String)
  | activate (name : String)
  | deactivate (name : String)
  | activateCategory (domain : String)
  | deactivateCategory (domain : String)
  | delete (name : String)
  | rollback (name : String) (version : ℤ)
  | getTemplate (name : String)
  | installTemplate (name : String)
  | labTemplate (name : String)

namespace PoliciesPath

/-- The reference that the method joins to the base URL. -/
def reference : PoliciesPath → String
  | tenantLifecycle tenant => PoliciesClient.tenantLifecycle tenant
  | provisionTenant tenant => PoliciesClient.provisionTenant tenant
  | get name => PoliciesClient.get name
  | listVersions name => PoliciesClient.listVersions name
  | getVersion name version => PoliciesClient.getVersion name version
  | diff name => PoliciesClient.diff name
  | update name => PoliciesClient.update name
  | activate name => PoliciesClient.activate name
  | deactivate name => PoliciesClient.deactivate name
  | activateCategory domain => PoliciesClient.activateCategory domain
  | deactivateCategory domain => PoliciesClient.deactivateCategory domain
  | delete name => PoliciesClient.delete name
  | rollback name version => PoliciesClient.rollback name version
  | getTemplate name => PoliciesClient.getTemplate name
  | installTemplate name => PoliciesClient.installTemplate name
  | labTemplate name => PoliciesClient.labTemplate name

/-- The segments that the method means. -/
def parts : PoliciesPath → List PathPart
  | tenantLifecycle tenant =>
    [.literal "admin", .literal "tenants", .inserted tenant, .literal "lifecycle"]
  | provisionTenant tenant =>
    [.literal "policies", .literal "tenant", .inserted tenant, .literal "provision"]
  | get name => [.literal "policies", .inserted name]
  | listVersions name => [.literal "policies", .inserted name, .literal "versions"]
  | getVersion name version =>
    [.literal "policies", .inserted name, .literal "versions", .literal version.repr]
  | diff name => [.literal "policies", .inserted name, .literal "diff"]
  | update name => [.literal "policies", .inserted name]
  | activate name => [.literal "policies", .inserted name, .literal "activate"]
  | deactivate name => [.literal "policies", .inserted name, .literal "deactivate"]
  | activateCategory domain =>
    [.literal "policies", .literal "categories", .inserted domain, .literal "activate"]
  | deactivateCategory domain =>
    [.literal "policies", .literal "categories", .inserted domain, .literal "deactivate"]
  | delete name => [.literal "policies", .inserted name]
  | rollback name version =>
    [.literal "policies", .inserted name, .literal "rollback", .literal version.repr]
  | getTemplate name => [.literal "policies", .literal "templates", .inserted name]
  | installTemplate name =>
    [.literal "policies", .literal "templates", .inserted name, .literal "install"]
  | labTemplate name => [.literal "policies", .literal "templates", .inserted name, .literal "lab"]

/-- The parts of a policies path make a route. -/
theorem isRoute_parts (call : PoliciesPath) : IsRoute call.parts := by
  have hwords := isWord_pathNames
  simp only [pathNames, List.forall_mem_cons] at hwords
  cases call <;> simp [IsRoute, parts, hwords]

/-- Every method spells the segments that it means. -/
theorem spells (call : PoliciesPath) : Spells call.reference call.parts := by
  apply call.isRoute_parts.spells_of_text
  cases call <;>
    (dsimp only [reference, parts]
     delta PoliciesClient.tenantLifecycle PoliciesClient.provisionTenant PoliciesClient.get
       PoliciesClient.listVersions PoliciesClient.getVersion PoliciesClient.diff
       PoliciesClient.update PoliciesClient.activate PoliciesClient.deactivate
       PoliciesClient.activateCategory PoliciesClient.deactivateCategory PoliciesClient.delete
       PoliciesClient.rollback PoliciesClient.getTemplate PoliciesClient.installTemplate
       PoliciesClient.labTemplate
     simp [PathPart.text, separated_cons_cons])

end PoliciesPath

/-! ### All clients -/

/-- The methods of the three clients that insert identifiers in a path. -/
inductive ClientPath where
  | ledger (call : LedgerPath)
  | agents (call : AgentsPath)
  | policies (call : PoliciesPath)

namespace ClientPath

variable [Chrono] in
/-- The reference that the method joins to the base URL. -/
def reference : ClientPath → String
  | ledger call => call.reference
  | agents call => call.reference
  | policies call => call.reference

/-- The segments that the method means. -/
def parts : ClientPath → List PathPart
  | ledger call => call.parts
  | agents call => call.parts
  | policies call => call.parts

/-- Every path method spells its parts. -/
theorem spells [Chrono] (call : ClientPath) : Spells call.reference call.parts := by
  cases call with
  | ledger call => exact call.spells
  | agents call => exact call.spells
  | policies call => exact call.spells

/-- With every accepted base URL, a method requests the path of the base with its fixed names and
one segment for each identifier, which reads as the identifier, if and only if no identifier is
a dot segment. -/
theorem requests_iff_not_dots [UrlCrate] (hjoins : JoinsPaths) [Chrono] {base : String}
    {url : Url} (hbase : parseBaseUrl base = .ok url) :
    ∃ directory, url.IsDirectory directory ∧ ∀ call : ClientPath,
      url.Requests directory call.reference call.parts ↔
        ∀ s, .inserted s ∈ call.parts → s ≠ "." ∧ s ≠ ".." := by
  obtain ⟨directory, hurl⟩ := isDirectory_of_parseBaseUrl hbase
  exact ⟨directory, hurl, fun call => call.spells.requests_iff hjoins hurl⟩

end ClientPath

namespace Fixture

attribute [local instance] urlCrate chrono

/-- Under the API's URL a path method requests its parts exactly if no inserted text is a dot
segment. -/
theorem requests_iff_not_dots_api :
    ∃ directory, apiUrl.withSlash.IsDirectory directory ∧ ∀ call : ClientPath,
      apiUrl.withSlash.Requests directory call.reference call.parts ↔
        ∀ s, .inserted s ∈ call.parts → s ≠ "." ∧ s ≠ ".." :=
  ClientPath.requests_iff_not_dots joinsPaths_urlCrate parseBaseUrl_api

/-- The correlation id `..` drops the segment before it. -/
theorem audit_correlation_dots :
    parseBaseUrl "http://h/api" = .ok apiUrl.withSlash ∧
      apiUrl.withSlash.join (LedgerClient.auditCorrelation "..") =
        some ["api".toList, "audit".toList, []] ∧
      ∀ directory, apiUrl.withSlash.IsDirectory directory →
        ¬apiUrl.withSlash.Requests directory
          (ClientPath.ledger (.auditCorrelation "..")).reference
          (ClientPath.ledger (.auditCorrelation "..")).parts := by
  have hspells := (ClientPath.ledger (.auditCorrelation "..")).spells
  refine ⟨parseBaseUrl_api, ?_, fun directory hdirectory hrequests => ?_⟩
  · have hurl : apiUrl.withSlash.IsDirectory ["api".toList] := rfl
    refine (hspells.join joinsPaths_urlCrate hurl).trans ?_
    decide +kernel
  · have hsafe := (hspells.requests_iff joinsPaths_urlCrate hdirectory).mp hrequests ".."
      (List.mem_of_getLast? rfl)
    exact hsafe.2 rfl

end Fixture

end ClavenarSdk
