import ClavenarSdk.Encoding.Form
import ClavenarSdk.Routes

/-!
# Tenants in queries

`policies.rs`, `agents.rs` and `hil.rs`. After the join the clients append pairs to the query of
the URL: the tenant of a scoped client, the filters of a list. The query of a request says what
its method was given and nothing else, whatever the strings contain.
-/

namespace ClavenarSdk

open Encoding

/-! ### Targets -/

/-- Where a request goes: the segments of its path, and its query. -/
structure Target where
  segments : List (List Char)
  query : Option (List Char)

/-- `Url::join` for a path-relative reference without a query. -/
def Url.target [UrlCrate] (url : Url) (reference : String) : Option Target :=
  (url.join reference).map fun segments => ⟨segments, none⟩

namespace Target

/-- `query_pairs_mut().append_pair`. -/
def appendPair (target : Target) (key value : String) : Target :=
  { target with query := Encoding.appendPair target.query (utf8Bytes key) (utf8Bytes value) }

/-- The pairs that a server reads. -/
def pairs (target : Target) : List (List UInt8 × List UInt8) := formPairs target.query

/-- Appending a pair leaves the path as it is. -/
@[simp] theorem appendPair_segments (target : Target) (key value : String) :
    (target.appendPair key value).segments = target.segments := rfl

/-- A pair is appended to the pairs of the query. -/
@[simp] theorem pairs_appendPair (target : Target) (key value : String) :
    (target.appendPair key value).pairs = target.pairs ++ [(utf8Bytes key, utf8Bytes value)] :=
  formPairs_appendPair _ _ _

end Target

/-- Pairs of texts as a server reads them. -/
def pairBytes (pairs : List (String × String)) : List (List UInt8 × List UInt8) :=
  pairs.map fun pair => (utf8Bytes pair.1, utf8Bytes pair.2)

/-- No pairs have no bytes. -/
@[simp] theorem pairBytes_nil : pairBytes [] = [] := rfl

/-- Pairs are taken to bytes one by one. -/
@[simp] theorem pairBytes_cons (key value : String) (pairs : List (String × String)) :
    pairBytes ((key, value) :: pairs) = (utf8Bytes key, utf8Bytes value) :: pairBytes pairs := rfl

/-- So are pairs after others. -/
@[simp] theorem pairBytes_append (pairs pairs' : List (String × String)) :
    pairBytes (pairs ++ pairs') = pairBytes pairs ++ pairBytes pairs' := List.map_append

/-- A pair is determined by its bytes. -/
theorem pair_injective : Function.Injective fun pair : String × String =>
    (utf8Bytes pair.1, utf8Bytes pair.2) := by
  intro pair pair' h
  obtain ⟨hkey, hvalue⟩ := Prod.mk.inj h
  exact Prod.ext (utf8Bytes_injective hkey) (utf8Bytes_injective hvalue)

/-- Pairs are determined by their bytes. -/
theorem pairBytes_injective : Function.Injective pairBytes :=
  List.map_injective_iff.mpr pair_injective

/-- A pair is there exactly if its bytes are. -/
theorem mem_pairBytes_iff {key value : String} {pairs : List (String × String)} :
    (utf8Bytes key, utf8Bytes value) ∈ pairBytes pairs ↔ (key, value) ∈ pairs :=
  List.mem_map_of_injective (a := (key, value)) pair_injective

/-! ### Where requests go -/

/-- A single plain segment is resolved in the directory. -/
theorem resolveReference_plain {escapes : Char → Bool} (hescapes : EscapesPath escapes)
    {special : Bool} {directory : List (List Char)} {segment : List Char} (hne : segment ≠ [])
    (h : ∀ c ∈ segment, isPlain c = true) :
    resolveReference escapes special directory segment = some (resolve directory [segment]) := by
  have hclean : clean segment = segment :=
    clean_of_forall fun c hc => lt_toNat_of_not_inPathSet (inPathSet_of_isPlain (h c hc))
  have hpart : pathPart segment = segment := by
    rw [pathPart, List.takeWhile_eq_self_iff]
    intro c hc
    simp [ne_of_isPlain (h c hc)]
  have hscheme : hasScheme segment = false := by
    have hname : (segment.takeWhile fun c => c ≠ ':') = segment := by
      rw [List.takeWhile_eq_self_iff]
      intro c hc
      simp [ne_of_isPlain (h c hc)]
    simp only [hasScheme, hname, lt_irrefl, decide_false, Bool.false_and]
  have hseparator : ∀ c ∈ segment, isSeparator special c = false := by
    intro c hc
    simp [isSeparator, ne_of_isPlain (h c hc)]
  have hrelative : isPathRelative special segment = true := by
    obtain ⟨c, rest, rfl⟩ := List.exists_cons_of_ne_nil hne
    have hc := ne_of_isPlain (h c (by simp))
    simp [isPathRelative, hscheme, hseparator c (by simp), hc]
  rw [resolveReference, hclean, if_pos hrelative, hpart, List.splitOnP_eq_singleton hseparator,
    List.map_singleton, hescapes.encodeSegment_eq h]

/-- A request goes to this path with these pairs: it reads as its parts unless an inserted string
is a dot segment, and the pairs are there in any case. -/
def Addresses (directory : List (List Char)) (target : Option Target) (parts : List PathPart)
    (pairs : List (String × String)) : Prop :=
  ∃ goal, target = some goal ∧ goal.pairs = pairBytes pairs ∧
    ((∃ segments, goal.segments = directory ++ segments ∧
      List.Forall₂ PathPart.Reads parts segments) ↔
        ∀ s, .inserted s ∈ parts → s ≠ "." ∧ s ≠ "..")

section

variable {url : Url} {directory : List (List Char)}

/-- A reference that spells its parts addresses them, without a query. -/
theorem Spells.addresses [UrlCrate] (hjoins : JoinsPaths) {reference : String}
    {parts : List PathPart} (h : Spells reference parts) (hurl : url.IsDirectory directory) :
    Addresses directory (url.target reference) parts [] := by
  have hjoin := h.join hjoins hurl
  have hrequests := h.requests_iff hjoins hurl
  refine ⟨⟨_, none⟩, by rw [Url.target, hjoin]; rfl, rfl, ?_⟩
  rw [← hrequests]
  simp only [Url.Requests, hjoin, Option.some.injEq]

/-- A word addresses itself. -/
theorem IsWord.addresses [UrlCrate] (hjoins : JoinsPaths) {name : String} (h : IsWord name)
    (hurl : url.IsDirectory directory) :
    Addresses directory (url.target name) [.literal name] [] := by
  have hname := h.isName
  obtain ⟨escapes, hescapes, hresolves⟩ := hjoins.exists_join hurl
  have hjoin : url.join name = some (directory ++ [name.toList]) := by
    apply hresolves
    rw [resolveReference_plain hescapes hname.1 hname.2.1, resolve_of_forall_not_isDot]
    simpa using hname.2.2
  refine ⟨⟨_, none⟩, by rw [Url.target, hjoin]; rfl, rfl, ?_⟩
  simp [PathPart.Reads]

/-- One more pair. -/
theorem Addresses.appendPair {target : Option Target} {parts : List PathPart}
    {pairs : List (String × String)} (h : Addresses directory target parts pairs)
    (key value : String) :
    Addresses directory (target.map fun goal => goal.appendPair key value) parts
      (pairs ++ [(key, value)]) := by
  obtain ⟨goal, rfl, hpairs, hpath⟩ := h
  refine ⟨goal.appendPair key value, rfl, ?_, hpath⟩
  rw [Target.pairs_appendPair, hpairs, pairBytes_append]
  rfl

end

/-! ### `PoliciesClient` -/

/-- `PoliciesClient`, what its URLs depend on. -/
structure PoliciesClient where
  baseUrl : Url
  tenant : Option String

namespace PoliciesClient

/-- `with_tenant`. -/
def withTenant (client : PoliciesClient) (tenant : Option String) : PoliciesClient :=
  { client with tenant }

/-- `join`. -/
def join [UrlCrate] (client : PoliciesClient) (suffix : String) : Option Target :=
  (client.baseUrl.target suffix).map fun url =>
    match client.tenant with
    | some tenant => url.appendPair "tenant" tenant
    | none => url

end PoliciesClient

/-- The paths that are not joined by `join`: their tenant is in the path. -/
def PoliciesPath.unscoped : PoliciesPath → Bool
  | tenantLifecycle _ | provisionTenant _ => true
  | _ => false

/-- A request of `PoliciesClient`. The diff has bounds in its query, and is no plain path. -/
inductive PoliciesRequest where
  | list (includeDeleted : Bool)
  | create
  | validate
  | evaluateBatch
  | mine
  | listTemplates
  | diff (name : String) (start stop : ℤ)
  | path (call : PoliciesPath) (h : ∀ name, call ≠ .diff name)

namespace PoliciesRequest

/-- The URL of the request. -/
def target [UrlCrate] (client : PoliciesClient) : PoliciesRequest → Option Target
  | list includeDeleted => (client.join "policies").map fun url =>
    if includeDeleted then url.appendPair "include_deleted" "true" else url
  | create => client.join "policies"
  | validate => client.join "policies/validate"
  | evaluateBatch => client.join "policies/evaluate-batch"
  | mine => client.join "policies/mine"
  | listTemplates => client.join "policies/templates"
  | diff name start stop => (client.join (PoliciesClient.diff name)).map fun url =>
    (url.appendPair "from" start.repr).appendPair "to" stop.repr
  | path call _ =>
    if call.unscoped then client.baseUrl.target call.reference else client.join call.reference

/-- The segments that the method means. -/
def parts : PoliciesRequest → List PathPart
  | list _ | create => [.literal "policies"]
  | validate => [.literal "policies", .literal "validate"]
  | evaluateBatch => [.literal "policies", .literal "evaluate-batch"]
  | mine => [.literal "policies", .literal "mine"]
  | listTemplates => [.literal "policies", .literal "templates"]
  | diff name _ _ => (PoliciesPath.diff name).parts
  | path call _ => call.parts

/-- The request carries the tenant of its client. -/
def stamped : PoliciesRequest → Bool
  | path call _ => !call.unscoped
  | _ => true

/-- The parameters of the method itself. -/
def parameters : PoliciesRequest → List (String × String)
  | list true => [("include_deleted", "true")]
  | diff _ start stop => [("from", start.repr), ("to", stop.repr)]
  | _ => []

/-- The tenant of the client, if the request carries one, and the parameters. -/
def pairs (tenant : Option String) (request : PoliciesRequest) : List (String × String) :=
  (if request.stamped then tenant.toList.map fun tenant => ("tenant", tenant) else []) ++
    request.parameters

end PoliciesRequest

section

variable [UrlCrate] {client : PoliciesClient} {directory : List (List Char)}

/-- Joining adds the tenant of the client. -/
theorem Addresses.join {suffix : String} {parts : List PathPart}
    (h : Addresses directory (client.baseUrl.target suffix) parts []) :
    Addresses directory (client.join suffix) parts
      (client.tenant.toList.map fun tenant => ("tenant", tenant)) := by
  unfold PoliciesClient.join
  cases client.tenant with
  | none => simpa using h
  | some tenant => simpa using h.appendPair "tenant" tenant

omit [UrlCrate] in
/-- Two words with a slash between them spell two fixed parts. -/
theorem spells_literals {first second : String} (hfirst : IsWord first) (hsecond : IsWord second)
    {reference : String} (h : reference = first ++ "/" ++ second) :
    Spells reference [.literal first, .literal second] := by
  have hroute : IsRoute [.literal first, .literal second] := by
    refine ⟨⟨_, _, _, rfl⟩, fun name hname => ?_⟩
    simp only [List.mem_cons, PathPart.literal.injEq, List.not_mem_nil, or_false] at hname
    rcases hname with rfl | rfl
    · exact hfirst
    · exact hsecond
  refine hroute.spells_of_text ?_
  simp [h, PathPart.text, separated_cons_cons]

/-- Every request of a client goes where it is meant to, with the tenant of the client. -/
theorem PoliciesRequest.addresses (hjoins : JoinsPaths) (client : PoliciesClient)
    (request : PoliciesRequest) (hurl : client.baseUrl.IsDirectory directory) :
    Addresses directory (request.target client) request.parts (request.pairs client.tenant) := by
  have hword : IsWord "policies" := by simp [IsWord]
  have hplain := (hword.addresses hjoins hurl).join
  have hfixed : ∀ name, IsWord name → Addresses directory (client.join ("policies" ++ "/" ++ name))
      [.literal "policies", .literal name]
      (client.tenant.toList.map fun tenant => ("tenant", tenant)) :=
    fun name hname => ((spells_literals hword hname rfl).addresses hjoins hurl).join
  have hwords : ∀ name ∈ ["validate", "evaluate-batch", "mine", "templates"], IsWord name := by
    simp [IsWord]
  cases request with
  | list includeDeleted =>
    cases includeDeleted with
    | false => simpa [target, pairs, parameters, stamped, parts] using hplain
    | true =>
      simpa [target, pairs, parameters, stamped, parts] using
        hplain.appendPair "include_deleted" "true"
  | create => simpa [target, pairs, parameters, stamped, parts] using hplain
  | validate =>
    simpa [target, pairs, parameters, stamped, parts] using
      hfixed "validate" (hwords _ (by simp))
  | evaluateBatch =>
    simpa [target, pairs, parameters, stamped, parts] using
      hfixed "evaluate-batch" (hwords _ (by simp))
  | mine =>
    simpa [target, pairs, parameters, stamped, parts] using hfixed "mine" (hwords _ (by simp))
  | listTemplates =>
    simpa [target, pairs, parameters, stamped, parts] using
      hfixed "templates" (hwords _ (by simp))
  | diff name start stop =>
    have hjoined := ((PoliciesPath.diff name).spells.addresses hjoins hurl).join
    have hbounds := (hjoined.appendPair "from" start.repr).appendPair "to" stop.repr
    simpa [target, pairs, parameters, stamped, parts, PoliciesPath.reference,
      Function.comp_def] using hbounds
  | path call hcall =>
    have hpath := call.spells.addresses hjoins hurl
    by_cases hunscoped : call.unscoped = true
    · simpa [target, pairs, parameters, stamped, parts, hunscoped] using hpath
    · simpa [target, pairs, parameters, stamped, parts, hunscoped] using hpath.join

end

/-- The only parameter called `tenant` is the tenant of the client. -/
theorem PoliciesRequest.tenant_mem_pairs_iff (request : PoliciesRequest) (tenant : Option String)
    (value : String) : ("tenant", value) ∈ request.pairs tenant ↔
      request.stamped = true ∧ tenant = some value := by
  have hown : ("tenant", value) ∉ request.parameters := by
    cases request with
    | list includeDeleted => cases includeDeleted <;> simp [parameters]
    | _ => simp [parameters]
  rw [pairs, List.mem_append, or_iff_left hown]
  by_cases hstamped : request.stamped = true
  · rw [if_pos hstamped, and_iff_right hstamped]
    cases tenant <;> simp [eq_comm]
  · rw [if_neg hstamped]
    simp [hstamped]

/-- The tenant of a scoped client is on every request that carries one, and cannot be forged. With
every accepted base URL and whatever the names are, the query of a request consists of the
tenant of the client and the parameters of the method, and no other pair is called `tenant`. The
path reads as the method meant it unless a name is a dot segment. Requests with the same URL
carry the same tenant. -/
theorem policies_requests_scoped [UrlCrate] (hjoins : JoinsPaths) {base : String} {url : Url}
    (hbase : parseBaseUrl base = .ok url) :
    ∃ directory, url.IsDirectory directory ∧
      (∀ tenant (request : PoliciesRequest),
        Addresses directory (request.target ⟨url, tenant⟩) request.parts (request.pairs tenant)) ∧
      (∀ tenant (request : PoliciesRequest) goal, request.target ⟨url, tenant⟩ = some goal →
        ∀ value, (utf8Bytes "tenant", utf8Bytes value) ∈ goal.pairs ↔
          request.stamped = true ∧ tenant = some value) ∧
      ∀ tenant tenant' (request request' : PoliciesRequest), request.stamped = true →
        request'.stamped = true →
        request.target ⟨url, tenant⟩ = request'.target ⟨url, tenant'⟩ → tenant = tenant' := by
  obtain ⟨directory, hurl⟩ := isDirectory_of_parseBaseUrl hbase
  have haddresses : ∀ tenant (request : PoliciesRequest),
      Addresses directory (request.target ⟨url, tenant⟩) request.parts (request.pairs tenant) :=
    fun tenant request => PoliciesRequest.addresses hjoins ⟨url, tenant⟩ request hurl
  have hread : ∀ tenant (request : PoliciesRequest) goal,
      request.target ⟨url, tenant⟩ = some goal → ∀ value,
        (utf8Bytes "tenant", utf8Bytes value) ∈ goal.pairs ↔
          request.stamped = true ∧ tenant = some value := by
    intro tenant request goal hgoal value
    obtain ⟨goal', hgoal', hpairs, -⟩ := haddresses tenant request
    obtain rfl := Option.some.inj (hgoal.symm.trans hgoal')
    rw [hpairs, mem_pairBytes_iff, request.tenant_mem_pairs_iff]
  refine ⟨directory, hurl, haddresses, hread, ?_⟩
  intro tenant tenant' request request' hstamped hstamped' hsame
  obtain ⟨goal, hgoal, -⟩ := haddresses tenant request
  have hvalues : ∀ value, tenant = some value ↔ tenant' = some value := by
    intro value
    have h := hread tenant request goal hgoal value
    rw [hread tenant' request' goal (hsame ▸ hgoal) value, and_iff_right hstamped,
      and_iff_right hstamped'] at h
    exact h.symm
  exact Option.ext hvalues

namespace Fixture

attribute [local instance] urlCrate

/-- The listing of policies is scoped to the tenant, whatever that is called. -/
theorem policies_requests_scoped_api :
    ∃ directory, apiUrl.withSlash.IsDirectory directory ∧
      Addresses directory ((PoliciesRequest.list true).target ⟨apiUrl.withSlash, some "a&tenant=b"⟩)
        [.literal "policies"] [("tenant", "a&tenant=b"), ("include_deleted", "true")] := by
  obtain ⟨directory, hdirectory, haddresses, -⟩ :=
    policies_requests_scoped joinsPaths_urlCrate parseBaseUrl_api
  exact ⟨directory, hdirectory, haddresses (some "a&tenant=b") (.list true)⟩

end Fixture

/-! ### `AgentsClient` -/

/-- `AgentState`. -/
inductive AgentState where
  | active
  | suspended
  | decommissioned
  deriving DecidableEq

/-- `AgentState::as_wire`. -/
def AgentState.asWire : AgentState → String
  | active => "active"
  | suspended => "suspended"
  | decommissioned => "decommissioned"

/-- `AgentListFilter`. -/
structure AgentListFilter where
  state : Option AgentState
  ownerTeam : Option String

/-- The paths of one agent, whose tenant is in the query. -/
def AgentsPath.ofAgent : AgentsPath → Bool
  | getBudget _ | setBudget _ | startTenantLifecycle _ | tenantLifecycle _ _
  | claimTenantLifecycleStep _ _ _ | completeTenantLifecycleStep _ _ _
  | retryTenantLifecycleStep _ _ _ | offboardTenantEffect _ => false
  | _ => true

/-- A request of `AgentsClient`: about all agents of a tenant, about one agent, or about a tenant
that is named in the path. A new agent has its tenant in the body. -/
inductive AgentsRequest where
  | list (tenant : String) (filter : AgentListFilter)
  | listOrphans (tenant : String)
  | listActiveGrants (tenant agentName : String)
  | create
  | agent (call : AgentsPath) (tenant : String) (h : call.ofAgent = true)
  | ofTenant (call : AgentsPath) (h : call.ofAgent = false)

namespace AgentsRequest

/-- The URL of the request. -/
def target [UrlCrate] (baseUrl : Url) : AgentsRequest → Option Target
  | list tenant filter => (baseUrl.target "agents").map fun url =>
    let url := url.appendPair "tenant" tenant
    let url := match filter.state with
      | some state => url.appendPair "state" state.asWire
      | none => url
    match filter.ownerTeam with
    | some team => url.appendPair "owner_team" team
    | none => url
  | listOrphans tenant =>
    (baseUrl.target "agents/orphans").map fun url => url.appendPair "tenant" tenant
  | listActiveGrants tenant agentName => (baseUrl.target "grants").map fun url =>
    ((url.appendPair "tenant" tenant).appendPair "agent_name" agentName).appendPair
      "active" "true"
  | create => baseUrl.target "agents"
  | agent call tenant _ =>
    (baseUrl.target call.reference).map fun url => url.appendPair "tenant" tenant
  | ofTenant call _ => baseUrl.target call.reference

/-- The segments that the method means. -/
def parts : AgentsRequest → List PathPart
  | list _ _ | create => [.literal "agents"]
  | listOrphans _ => [.literal "agents", .literal "orphans"]
  | listActiveGrants _ _ => [.literal "grants"]
  | agent call _ _ | ofTenant call _ => call.parts

/-- The parameters that the method means. -/
def pairs : AgentsRequest → List (String × String)
  | list tenant filter => ("tenant", tenant) ::
    (filter.state.toList.map fun state => ("state", state.asWire)) ++
      filter.ownerTeam.toList.map fun team => ("owner_team", team)
  | listOrphans tenant | agent _ tenant _ => [("tenant", tenant)]
  | listActiveGrants tenant agentName =>
    [("tenant", tenant), ("agent_name", agentName), ("active", "true")]
  | create | ofTenant _ _ => []

variable {baseUrl : Url} {directory : List (List Char)}

/-- Every request goes where it is meant to, with the parameters that it was given. -/
theorem addresses [UrlCrate] (hjoins : JoinsPaths) (request : AgentsRequest)
    (hurl : baseUrl.IsDirectory directory) :
    Addresses directory (request.target baseUrl) request.parts request.pairs := by
  have hagents : IsWord "agents" := by simp [IsWord]
  have hgrants : IsWord "grants" := by simp [IsWord]
  have horphans : IsWord "orphans" := by simp [IsWord]
  cases request with
  | list tenant filter =>
    obtain ⟨state, team⟩ := filter
    have htenant := (hagents.addresses hjoins hurl).appendPair "tenant" tenant
    cases state with
    | none =>
      cases team with
      | none => simpa [target, pairs, parts] using htenant
      | some team =>
        simpa [target, pairs, parts, Function.comp_def] using
          htenant.appendPair "owner_team" team
    | some state =>
      have hstate := htenant.appendPair "state" state.asWire
      cases team with
      | none => simpa [target, pairs, parts, Function.comp_def] using hstate
      | some team =>
        simpa [target, pairs, parts, Function.comp_def] using
          hstate.appendPair "owner_team" team
  | listOrphans tenant =>
    have hspells := (spells_literals hagents horphans rfl).addresses hjoins hurl
    simpa [target, pairs, parts] using hspells.appendPair "tenant" tenant
  | listActiveGrants tenant agentName =>
    have hnamed := ((hgrants.addresses hjoins hurl).appendPair "tenant" tenant).appendPair
      "agent_name" agentName
    simpa [target, pairs, parts, Function.comp_def] using hnamed.appendPair "active" "true"
  | create => exact hagents.addresses hjoins hurl
  | agent call tenant _ =>
    simpa [target, pairs, parts] using
      (call.spells.addresses hjoins hurl).appendPair "tenant" tenant
  | ofTenant call _ => exact call.spells.addresses hjoins hurl

/-- The tenant that the query names. -/
def tenant : AgentsRequest → Option String
  | list tenant _ | listOrphans tenant | listActiveGrants tenant _ | agent _ tenant _ => some tenant
  | create | ofTenant _ _ => none

/-- The query of a request names a tenant exactly if it is the one of the request. -/
theorem tenant_mem_pairs_iff (request : AgentsRequest) (value : String) :
    ("tenant", value) ∈ request.pairs ↔ request.tenant = some value := by
  cases request <;> simp [pairs, tenant, eq_comm]

/-- States differ on the wire. -/
theorem asWire_injective {state state' : AgentState} (h : state.asWire = state'.asWire) :
    state = state' := by
  cases state <;> cases state' <;> simp [AgentState.asWire] at h ⊢

/-- The parameters of a list are its tenant and its filter. -/
theorem pairs_list_inj {tenant tenant' : String} {filter filter' : AgentListFilter}
    (h : (list tenant filter).pairs = (list tenant' filter').pairs) :
    tenant = tenant' ∧ filter = filter' := by
  obtain ⟨state, team⟩ := filter
  obtain ⟨state', team'⟩ := filter'
  cases state <;> cases state' <;> cases team <;> cases team' <;> simp [pairs] at h
  all_goals
    simp only [AgentListFilter.mk.injEq, Option.some.injEq, true_and, and_true]
    first
      | exact h
      | exact ⟨h.1, asWire_injective h.2⟩
      | exact ⟨h.1, asWire_injective h.2.1, h.2.2⟩

end AgentsRequest

/-- An agent request is about the tenant that it was given. With every accepted base URL and
whatever the strings are, the query of a request consists of the parameters of its method, and no
other pair is called `tenant`. The path reads as the method meant it unless an identifier is a dot
segment. Lists with the same URL have the same tenant and the same filter. -/
theorem agents_requests_scoped [UrlCrate] (hjoins : JoinsPaths) {base : String} {url : Url}
    (hbase : parseBaseUrl base = .ok url) :
    ∃ directory, url.IsDirectory directory ∧
      (∀ request : AgentsRequest,
        Addresses directory (request.target url) request.parts request.pairs) ∧
      (∀ (request : AgentsRequest) goal, request.target url = some goal →
        ∀ value, (utf8Bytes "tenant", utf8Bytes value) ∈ goal.pairs ↔
          request.tenant = some value) ∧
      ∀ tenant tenant' filter filter', (AgentsRequest.list tenant filter).target url =
        (AgentsRequest.list tenant' filter').target url → tenant = tenant' ∧ filter = filter' := by
  obtain ⟨directory, hurl⟩ := isDirectory_of_parseBaseUrl hbase
  refine ⟨directory, hurl, fun request => request.addresses hjoins hurl, ?_, ?_⟩
  · intro request goal hgoal value
    obtain ⟨goal', hgoal', hpairs, -⟩ := request.addresses hjoins hurl
    obtain rfl := Option.some.inj (hgoal.symm.trans hgoal')
    rw [hpairs, mem_pairBytes_iff, request.tenant_mem_pairs_iff]
  · intro tenant tenant' filter filter' hsame
    obtain ⟨goal, hgoal, hpairs, -⟩ := (AgentsRequest.list tenant filter).addresses hjoins hurl
    obtain ⟨goal', hgoal', hpairs', -⟩ :=
      (AgentsRequest.list tenant' filter').addresses hjoins hurl
    obtain rfl := Option.some.inj (hgoal.symm.trans (hsame.trans hgoal'))
    exact AgentsRequest.pairs_list_inj (pairBytes_injective (hpairs.symm.trans hpairs'))

namespace Fixture

attribute [local instance] urlCrate

/-- The listing of agents names the tenant, the state and the team. -/
theorem agents_requests_scoped_api :
    ∃ directory, apiUrl.withSlash.IsDirectory directory ∧
      Addresses directory
        ((AgentsRequest.list "acme" ⟨some .active, some "ops&tenant=b"⟩).target apiUrl.withSlash)
        [.literal "agents"]
        [("tenant", "acme"), ("state", "active"), ("owner_team", "ops&tenant=b")] := by
  obtain ⟨directory, hdirectory, haddresses, -⟩ :=
    agents_requests_scoped joinsPaths_urlCrate parseBaseUrl_api
  exact ⟨directory, hdirectory, haddresses (.list "acme" ⟨some .active, some "ops&tenant=b"⟩)⟩

end Fixture

end ClavenarSdk
