import ClavenarSdk.Targets

/-!
# Decisions

`hil.rs`. `decide` writes an operator's decision into a request: the row into the path, the
decision into the body, and the trust path and the tenant into headers. All of it can be read
back.
-/

namespace ClavenarSdk

open Encoding

/-! ### The body -/

/-- `Decision`. -/
inductive Decision where
  | approve
  | deny
  | modify
  deriving DecidableEq

/-- The lower-case name. -/
def Decision.wireName : Decision → String
  | .approve => "approve"
  | .deny => "deny"
  | .modify => "modify"

/-- Decisions differ on the wire. -/
theorem Decision.wireName_injective : Function.Injective Decision.wireName := by
  intro decision decision' h
  cases decision <;> cases decision' <;> simp [Decision.wireName] at h ⊢

/-- `ArgumentScalarReplacement`. -/
structure ArgumentScalarReplacement where
  path : List String
  value : Value

/-- `ModificationDiff`. -/
structure ModificationDiff where
  contract : String
  replacements : List ArgumentScalarReplacement

instance : Serialize Decision := ⟨fun decision => .string decision.wireName⟩

instance : Serialize ArgumentScalarReplacement where
  toJson replacement :=
    .object [("path", toJson replacement.path), ("value", toJson replacement.value)]

instance : Serialize ModificationDiff where
  toJson diff :=
    .object [("contract", toJson diff.contract), ("replacements", toJson diff.replacements)]

/-- `DecideRequest`. -/
structure DecideRequest where
  decision : Decision
  decidedBy : String
  reason : Option String
  modificationDiff : Option ModificationDiff
  approverAssertion : Option Value
  decidedVia : Option String
  tenant : Option String

/-- A member that is skipped when there is no value. -/
def memberIfSome {α : Type} [Serialize α] (name : String) (value : Option α) :
    List (String × Json) :=
  value.toList.map fun v => (name, toJson v)

/-- The members of the body. -/
def DecideRequest.members (body : DecideRequest) : List (String × Json) :=
  [("decision", toJson body.decision), ("decided_by", toJson body.decidedBy)] ++
    memberIfSome "reason" body.reason ++
    memberIfSome "modification_diff" body.modificationDiff ++
    memberIfSome "approver_assertion" body.approverAssertion ++
    memberIfSome "decided_via" body.decidedVia ++
    memberIfSome "tenant" body.tenant

instance : Serialize DecideRequest := ⟨fun body => .object body.members⟩

/-- Texts differ as documents. -/
theorem string_toJson_injective : Function.Injective (toJson : String → Json) :=
  fun _ _ h => Json.string.inj h

/-- Values differ as documents. -/
theorem value_toJson_injective : Function.Injective (toJson : Value → Json) :=
  fun _ _ h => Value.ext h

/-- Lists of items that differ as documents do too. -/
theorem list_toJson_injective {α : Type} [Serialize α]
    (h : Function.Injective (toJson : α → Json)) :
    Function.Injective (toJson : List α → Json) :=
  fun _ _ hitems => List.map_injective_iff.mpr h (Json.array.inj hitems)

/-- Decisions differ as documents. -/
theorem decision_toJson_injective : Function.Injective (toJson : Decision → Json) :=
  fun _ _ h => Decision.wireName_injective (Json.string.inj h)

/-- Replacements differ as documents. -/
theorem replacement_toJson_injective :
    Function.Injective (toJson : ArgumentScalarReplacement → Json) := by
  rintro ⟨path, value⟩ ⟨path', value'⟩ h
  have hmembers := Json.object.inj h
  simp only [List.cons.injEq, Prod.mk.injEq, true_and, and_true] at hmembers
  obtain rfl := list_toJson_injective string_toJson_injective hmembers.1
  obtain rfl := value_toJson_injective hmembers.2
  rfl

/-- Diffs differ as documents. -/
theorem diff_toJson_injective : Function.Injective (toJson : ModificationDiff → Json) := by
  rintro ⟨contract, replacements⟩ ⟨contract', replacements'⟩ h
  have hmembers := Json.object.inj h
  simp only [List.cons.injEq, Prod.mk.injEq, true_and, and_true] at hmembers
  obtain rfl := string_toJson_injective hmembers.1
  obtain rfl := list_toJson_injective replacement_toJson_injective hmembers.2
  rfl

/-- Looking up a name among the members finds an optional first member only under its own name. -/
@[simp] theorem lookup_memberIfSome_append {α : Type} [Serialize α] (name name' : String)
    (value : Option α) (members : List (String × Json)) :
    (memberIfSome name value ++ members).lookup name' =
      if name' = name then (value.map toJson).or (members.lookup name')
      else members.lookup name' := by
  cases value with
  | none => simp [memberIfSome]
  | some v =>
    by_cases h : name' = name
    · simp [memberIfSome, h]
    · simp [memberIfSome, List.lookup_cons, beq_false_of_ne h, h]

/-- An optional member is found under its name if it has a value. -/
@[simp] theorem lookup_memberIfSome {α : Type} [Serialize α] (name name' : String)
    (value : Option α) :
    (memberIfSome name value).lookup name' =
      if name' = name then value.map toJson else none := by
  have h := lookup_memberIfSome_append name name' value []
  simpa using h

/-- Each field of the body is found under its name. -/
theorem DecideRequest.lookup_members (body : DecideRequest) :
    body.members.lookup "decision" = some (toJson body.decision) ∧
    body.members.lookup "decided_by" = some (toJson body.decidedBy) ∧
    body.members.lookup "reason" = body.reason.map toJson ∧
    body.members.lookup "modification_diff" = body.modificationDiff.map toJson ∧
    body.members.lookup "approver_assertion" = body.approverAssertion.map toJson ∧
    body.members.lookup "decided_via" = body.decidedVia.map toJson ∧
    body.members.lookup "tenant" = body.tenant.map toJson := by
  have hdecision : ∀ name, name ≠ "decision" → name ≠ "decided_by" →
      body.members.lookup name = (memberIfSome "reason" body.reason ++
        (memberIfSome "modification_diff" body.modificationDiff ++
        (memberIfSome "approver_assertion" body.approverAssertion ++
        (memberIfSome "decided_via" body.decidedVia ++
        memberIfSome "tenant" body.tenant)))).lookup name := by
    intro name h h'
    simp [members, List.lookup_cons, beq_false_of_ne h, beq_false_of_ne h']
  refine ⟨rfl, rfl, ?_, ?_, ?_, ?_, ?_⟩ <;> rw [hdecision _ (by simp) (by simp)] <;> simp

/-! ### Trust paths -/

/-- `DecisionPrincipalMethod`. -/
inductive DecisionPrincipalMethod where
  | oidc
  | saml
  | basicAdmin
  | operatorMtls
  deriving DecidableEq

/-- The kebab-case name. -/
def DecisionPrincipalMethod.wireName : DecisionPrincipalMethod → String
  | .oidc => "oidc"
  | .saml => "saml"
  | .basicAdmin => "basic-admin"
  | .operatorMtls => "operator-mtls"

/-- Methods differ on the wire. -/
theorem DecisionPrincipalMethod.wireName_injective :
    Function.Injective DecisionPrincipalMethod.wireName := by
  intro method method' h
  cases method <;> cases method' <;> simp [DecisionPrincipalMethod.wireName] at h ⊢

instance : Serialize DecisionPrincipalMethod := ⟨fun method => .string method.wireName⟩

/-- `ConsolePrincipalClaim`. -/
structure ConsolePrincipalClaim where
  subject : String
  tenant : String
  method : DecisionPrincipalMethod

instance : Serialize ConsolePrincipalClaim where
  toJson claim := .object [("subject", toJson claim.subject), ("tenant", toJson claim.tenant),
    ("method", toJson claim.method)]

/-- The hexadecimal text of the compact JSON. -/
def ConsolePrincipalClaim.encoded (claim : ConsolePrincipalClaim) : String :=
  hexEncode (utf8Bytes (toJson claim).text)

/-- The text of a claim, piece by piece: each value is quoted between fixed texts. -/
theorem ConsolePrincipalClaim.toList_text (claim : ConsolePrincipalClaim) :
    (toJson claim).text.toList = "\x7b\"subject\":".toList ++ ((quote claim.subject).toList ++
      (",\"tenant\":".toList ++ ((quote claim.tenant).toList ++
        (",\"method\":".toList ++ ((quote claim.method.wireName).toList ++
          "\x7d".toList))))) := by
  have hsubject : quote "subject" = "\"subject\"" := by rfl
  have htenant : quote "tenant" = "\"tenant\"" := by rfl
  have hmethod : quote "method" = "\"method\"" := by rfl
  simp only [toJson, Json.text, Json.textMembers, hsubject, htenant, hmethod,
    String.intercalate_cons_cons, String.intercalate_singleton, String.toList_append,
    List.append_assoc]
  rfl

/-- A principal header can be read back. -/
theorem ConsolePrincipalClaim.encoded_injective :
    Function.Injective ConsolePrincipalClaim.encoded := by
  intro claim claim' h
  have htext := congrArg String.toList (utf8Bytes_injective (hexEncode_injective h))
  rw [toList_text, toList_text] at htext
  obtain ⟨hsubject, hrest⟩ := quote_append_inj (List.append_cancel_left htext)
  obtain ⟨htenant, hrest⟩ := quote_append_inj (List.append_cancel_left hrest)
  obtain ⟨hmethod, -⟩ := quote_append_inj (List.append_cancel_left hrest)
  obtain ⟨subject, tenant, method⟩ := claim
  obtain ⟨subject', tenant', method'⟩ := claim'
  dsimp only at hsubject htenant hmethod
  obtain rfl := hsubject
  obtain rfl := htenant
  obtain rfl := DecisionPrincipalMethod.wireName_injective hmethod
  rfl

/-- `HilDecideCredential`. -/
inductive HilDecideCredential where
  | sessionCookie (cookie : String)
  | bearer (token subject : String) (method : DecisionPrincipalMethod)
  | demoSession (jwt : String)

/-- `HIL_SESSION_COOKIE`. -/
def hilSessionCookie : String := "clavenar_hil_session"

/-- `DEMO_SESSION_COOKIE`. -/
def demoSessionCookie : String := "clavenar_demo_session"

/-- `DECISION_PRINCIPAL_HEADER`. -/
def decisionPrincipalHeader : String := "x-clavenar-decision-principal"

/-- `TENANT_SCOPE_HEADER`. -/
def tenantScopeHeader : String := "x-clavenar-tenant-scope"

/-! ### Requests -/

/-- What the builder of a request uses of the `http` crate: which strings are header values. -/
class HttpCrate where
  isHeaderValue : String → Bool

export HttpCrate (isHeaderValue)

/-- A POST with a JSON body. -/
structure HilPost where
  segments : List (List Char)
  headers : List (String × String)
  json : Json

/-- A request under construction. One with a bad header value cannot be sent. -/
abbrev RequestBuilder : Type := Option HilPost

/-- `RequestBuilder::header`. -/
def RequestBuilder.header [HttpCrate] (builder : RequestBuilder) (name value : String) :
    RequestBuilder :=
  builder.bind fun request =>
    if isHeaderValue value then some { request with headers := request.headers ++ [(name, value)] }
    else none

/-- `HilClient`, what its requests depend on. -/
structure HilClient where
  baseUrl : Url
  tenant : Option String

/-- The arguments of `decide`. -/
structure DecideCall where
  id : Uuid
  decision : Decision
  decidedBy : String
  reason : Option String
  modificationDiff : Option ModificationDiff
  approverAssertion : Option Value
  credential : Option HilDecideCredential
  decidedVia : Option String

/-- The body of `decide`. -/
def DecideCall.body (tenant : Option String) (call : DecideCall) : DecideRequest where
  decision := call.decision
  decidedBy := call.decidedBy
  reason := call.reason
  modificationDiff := call.modificationDiff
  approverAssertion := call.approverAssertion
  decidedVia := call.decidedVia
  -- Only a call without a credential names the tenant in its body.
  tenant := if call.credential.isNone then tenant else none

namespace HilClient

variable [HttpCrate]

/-- `with_tenant`. -/
def withTenant (client : HilClient) (tenant : Option String) : HilClient :=
  { client with tenant }

/-- `apply_tenant_scope`. -/
def applyTenantScope (client : HilClient) (request : RequestBuilder) : RequestBuilder :=
  match client.tenant with
  | some tenant => request.header tenantScopeHeader tenant
  | none => request

/-- The request of `decide`. -/
def decide [UrlCrate] (client : HilClient) (call : DecideCall) : RequestBuilder := do
  let segments ← client.baseUrl.join ("decide/" ++ call.id.toText)
  let request := client.applyTenantScope (some ⟨segments, [], toJson (call.body client.tenant)⟩)
  match call.credential with
  | some (.sessionCookie cookie) => request.header "cookie" (hilSessionCookie ++ "=" ++ cookie)
  | some (.bearer token subject method) =>
    let principal : ConsolePrincipalClaim := ⟨subject, client.tenant.getD "unscoped", method⟩
    (request.header "authorization" ("Bearer " ++ token)).header decisionPrincipalHeader
      principal.encoded
  | some (.demoSession jwt) => request.header "cookie" (demoSessionCookie ++ "=" ++ jwt)
  | none => request

end HilClient

/-! ### What is sent -/

/-- The headers of a trust path. -/
def HilDecideCredential.headers (tenant : Option String) :
    HilDecideCredential → List (String × String)
  | sessionCookie cookie => [("cookie", hilSessionCookie ++ "=" ++ cookie)]
  | bearer token subject method => [("authorization", "Bearer " ++ token),
      (decisionPrincipalHeader,
        ConsolePrincipalClaim.encoded ⟨subject, tenant.getD "unscoped", method⟩)]
  | demoSession jwt => [("cookie", demoSessionCookie ++ "=" ++ jwt)]

/-- The headers of a decision. -/
def DecideCall.headers (tenant : Option String) (call : DecideCall) : List (String × String) :=
  (tenant.toList.map fun tenant => (tenantScopeHeader, tenant)) ++
    call.credential.toList.flatMap fun credential => credential.headers tenant

/-- A row has a single plain segment. -/
theorem Uuid.isWord_toText (u : Uuid) : IsWord u.toText := by
  have hdigit : ∀ d < 16, (Nat.digitChar d).isAlphanum = true := by decide
  have hbytes : ∀ c ∈ u.bytes.flatMap hexByte, (c.isAlphanum || c == '-') = true := by
    intro c hc
    obtain ⟨b, -, hc⟩ := List.mem_flatMap.mp hc
    have hlt : b.toNat < 256 := b.toNat_lt
    simp only [hexByte, List.mem_cons, List.not_mem_nil, or_false] at hc
    rcases hc with rfl | rfl
    · rw [hdigit _ (by omega), Bool.true_or]
    · rw [hdigit _ (by omega), Bool.true_or]
  refine ⟨by simp [toText], fun c hc => ?_⟩
  simp only [toText, String.toList_ofList, List.mem_append, List.mem_cons] at hc
  rcases hc with (((hc | rfl | hc) | rfl | hc) | rfl | hc) | rfl | hc
  · exact hbytes c (List.mem_of_mem_take hc)
  · decide
  · exact hbytes c (List.mem_of_mem_drop (List.mem_of_mem_take hc))
  · decide
  · exact hbytes c (List.mem_of_mem_drop (List.mem_of_mem_take hc))
  · decide
  · exact hbytes c (List.mem_of_mem_drop (List.mem_of_mem_take hc))
  · decide
  · exact hbytes c (List.mem_of_mem_drop hc)

/-- The reference of a decision is resolved to the row in the directory. -/
theorem join_decide [UrlCrate] (hjoins : JoinsPaths) {url : Url} {directory : List (List Char)}
    (hurl : url.IsDirectory directory) (id : Uuid) :
    url.join ("decide/" ++ id.toText) =
      some (directory ++ ["decide".toList, id.toText.toList]) := by
  have hword : IsWord "decide" := by simp [IsWord]
  have hspells : Spells ("decide/" ++ id.toText) [.literal "decide", .literal id.toText] :=
    spells_literals hword id.isWord_toText rfl
  rw [hspells.join hjoins hurl]
  have hdot : ∀ segment ∈ ["decide".toList, id.toText.toList], ¬IsDot segment := by
    intro segment hsegment
    simp only [List.mem_cons, List.not_mem_nil, or_false] at hsegment
    rcases hsegment with rfl | rfl
    · exact hword.isName.2.2
    · exact id.isWord_toText.isName.2.2
  rw [← resolve_of_forall_not_isDot hdot]
  rfl

/-- A member of the body of a request. -/
def HilPost.member (request : HilPost) (name : String) : Option Json :=
  match request.json with
  | .object members => members.lookup name
  | _ => none

section

variable [HttpCrate]

/-- One header after the other. -/
def RequestBuilder.addHeaders (builder : RequestBuilder) (headers : List (String × String)) :
    RequestBuilder :=
  headers.foldl (fun builder header => builder.header header.1 header.2) builder

/-- A request that cannot be built stays so. -/
theorem RequestBuilder.addHeaders_none (headers : List (String × String)) :
    RequestBuilder.addHeaders none headers = none := by
  induction headers with
  | nil => rfl
  | cons header headers ih => exact ih

/-- All values have to be allowed. -/
theorem RequestBuilder.addHeaders_eq_some_iff (headers : List (String × String))
    {start request : HilPost} :
    RequestBuilder.addHeaders (some start) headers = some request ↔
      (∀ header ∈ headers, isHeaderValue header.2 = true) ∧
        request = { start with headers := start.headers ++ headers } := by
  induction headers generalizing start with
  | nil =>
    rw [List.append_nil]
    exact ⟨fun h => ⟨by simp, (Option.some.inj h).symm⟩, fun h => congrArg some h.2.symm⟩
  | cons header headers ih =>
    have hstep : addHeaders (some start) (header :: headers) =
        addHeaders (RequestBuilder.header (some start) header.1 header.2) headers := rfl
    rw [hstep, RequestBuilder.header, Option.bind_some]
    by_cases hvalue : isHeaderValue header.2 = true
    · rw [if_pos hvalue, ih, List.forall_mem_cons, and_iff_right hvalue, List.append_assoc]
      rfl
    · simp [hvalue, addHeaders_none]

/-- The headers of a decision are added one after the other. -/
theorem decide_eq_addHeaders [UrlCrate] (hjoins : JoinsPaths) {client : HilClient}
    {directory : List (List Char)} (hurl : client.baseUrl.IsDirectory directory)
    (call : DecideCall) :
    client.decide call = RequestBuilder.addHeaders
      (some ⟨directory ++ ["decide".toList, call.id.toText.toList], [],
        toJson (call.body client.tenant)⟩) (call.headers client.tenant) := by
  obtain ⟨url, tenant⟩ := client
  obtain ⟨id, decision, decidedBy, reason, diff, assertion, credential, via⟩ := call
  rw [HilClient.decide, join_decide hjoins hurl]
  cases tenant with
  | none => rcases credential with _ | ⟨_⟩ | ⟨_, _, _⟩ | ⟨_⟩ <;> rfl
  | some tenant => rcases credential with _ | ⟨_⟩ | ⟨_, _, _⟩ | ⟨_⟩ <;> rfl

/-- A decision is sent if and only if its headers have values that are allowed. -/
theorem decide_eq_some_iff [UrlCrate] (hjoins : JoinsPaths) (client : HilClient)
    {directory : List (List Char)} (hurl : client.baseUrl.IsDirectory directory)
    {call : DecideCall} {request : HilPost} :
    client.decide call = some request ↔
      (∀ header ∈ call.headers client.tenant, isHeaderValue header.2 = true) ∧
        request = ⟨directory ++ ["decide".toList, call.id.toText.toList],
          call.headers client.tenant, toJson (call.body client.tenant)⟩ := by
  rw [decide_eq_addHeaders hjoins hurl, RequestBuilder.addHeaders_eq_some_iff]
  rfl

end

/-- The headers of a decision name the tenant of the client. -/
theorem lookup_scope_headers (tenant : Option String) (call : DecideCall) :
    (call.headers tenant).lookup tenantScopeHeader = tenant := by
  have hscope : ∀ credential : HilDecideCredential,
      (credential.headers tenant).lookup tenantScopeHeader = none := by
    intro credential
    cases credential <;>
      simp [HilDecideCredential.headers, tenantScopeHeader, decisionPrincipalHeader,
        List.lookup_cons]
  cases tenant with
  | some tenant => simp [DecideCall.headers]
  | none =>
    cases hcredential : call.credential with
    | none => simp [DecideCall.headers, hcredential]
    | some credential => simpa [DecideCall.headers, hcredential] using hscope credential

/-- The headers of a trust path tell its parts. -/
theorem HilDecideCredential.headers_injective (tenant : Option String) :
    Function.Injective (HilDecideCredential.headers tenant) := by
  have hvalue : ∀ {name value value' : String}, name ++ value = name ++ value' → value = value' :=
    fun h => (String.append_right_inj _).mp h
  have hcookie : ∀ cookie jwt : String,
      hilSessionCookie ++ "=" ++ cookie ≠ demoSessionCookie ++ "=" ++ jwt := by
    intro cookie jwt h
    have hletter := congrArg (fun s => s.toList[9]?) h
    simp [hilSessionCookie, demoSessionCookie] at hletter
  intro credential credential' h
  cases credential with
  | sessionCookie cookie =>
    cases credential' with
    | sessionCookie cookie' =>
      simp only [headers, List.cons.injEq, Prod.mk.injEq, true_and, and_true] at h
      rw [hvalue h]
    | bearer token subject method => simp [headers] at h
    | demoSession jwt =>
      simp only [headers, List.cons.injEq, Prod.mk.injEq, true_and, and_true] at h
      exact absurd h (hcookie cookie jwt)
  | bearer token subject method =>
    cases credential' with
    | sessionCookie cookie' => simp [headers] at h
    | bearer token' subject' method' =>
      simp only [headers, List.cons.injEq, Prod.mk.injEq, true_and, and_true] at h
      obtain ⟨htoken, hclaim⟩ := h
      have hprincipal := ConsolePrincipalClaim.encoded_injective hclaim
      simp only [ConsolePrincipalClaim.mk.injEq, true_and] at hprincipal
      rw [hvalue htoken, hprincipal.1, hprincipal.2]
    | demoSession jwt => simp [headers] at h
  | demoSession jwt =>
    cases credential' with
    | sessionCookie cookie' =>
      simp only [headers, List.cons.injEq, Prod.mk.injEq, true_and, and_true] at h
      exact absurd h.symm (hcookie cookie' jwt)
    | bearer token subject method => simp [headers] at h
    | demoSession jwt' =>
      simp only [headers, List.cons.injEq, Prod.mk.injEq, true_and, and_true] at h
      rw [hvalue h]

/-- The headers of a decision tell the tenant and the trust path. -/
theorem DecideCall.headers_inj {tenant tenant' : Option String} {call call' : DecideCall}
    (h : call.headers tenant = call'.headers tenant') :
    tenant = tenant' ∧ call.credential = call'.credential := by
  have htenant : tenant = tenant' := by
    rw [← lookup_scope_headers tenant call, h, lookup_scope_headers]
  subst htenant
  rw [headers, headers, List.append_cancel_left_eq] at h
  refine ⟨rfl, ?_⟩
  have hne : ∀ credential : HilDecideCredential, credential.headers tenant ≠ [] := by
    intro credential
    cases credential <;> simp [HilDecideCredential.headers]
  cases hcredential : call.credential with
  | none =>
    cases hcredential' : call'.credential with
    | none => rfl
    | some credential' =>
      simp only [hcredential, hcredential', Option.toList_none, Option.toList_some,
        List.flatMap_nil, List.flatMap_singleton] at h
      exact absurd h.symm (hne credential')
  | some credential =>
    cases hcredential' : call'.credential with
    | none =>
      simp only [hcredential, hcredential', Option.toList_none, Option.toList_some,
        List.flatMap_nil, List.flatMap_singleton] at h
      exact absurd h (hne credential)
    | some credential' =>
      simp only [hcredential, hcredential', Option.toList_some, List.flatMap_singleton] at h
      rw [HilDecideCredential.headers_injective tenant h]

/-- The body tells all that it was given. -/
theorem decideRequest_toJson_injective : Function.Injective (toJson : DecideRequest → Json) := by
  intro body body' h
  have hmembers : body.members = body'.members := Json.object.inj h
  obtain ⟨h1, h2, h3, h4, h5, h6, h7⟩ := body.lookup_members
  obtain ⟨h1', h2', h3', h4', h5', h6', h7'⟩ := body'.lookup_members
  rw [hmembers] at h1 h2 h3 h4 h5 h6 h7
  have hdecision := decision_toJson_injective (Option.some.inj (h1.symm.trans h1'))
  have hdecided := string_toJson_injective (Option.some.inj (h2.symm.trans h2'))
  have hreason := Option.map_injective string_toJson_injective (h3.symm.trans h3')
  have hdiff := Option.map_injective diff_toJson_injective (h4.symm.trans h4')
  have hassertion := Option.map_injective value_toJson_injective (h5.symm.trans h5')
  have hvia := Option.map_injective string_toJson_injective (h6.symm.trans h6')
  have htenant := Option.map_injective string_toJson_injective (h7.symm.trans h7')
  obtain ⟨decision, decidedBy, reason, diff, assertion, via, tenant⟩ := body
  obtain ⟨decision', decidedBy', reason', diff', assertion', via', tenant'⟩ := body'
  dsimp only at hdecision hdecided hreason hdiff hassertion hvia htenant
  simp only [hdecision, hdecided, hreason, hdiff, hassertion, hvia, htenant]

/-- A decision consists of its row, its body and its trust path. -/
theorem decideCall_ext {tenant : Option String} {call call' : DecideCall} (hid : call.id = call'.id)
    (hbody : call.body tenant = call'.body tenant)
    (hcredential : call.credential = call'.credential) :
    call = call' := by
  obtain ⟨id, decision, decidedBy, reason, diff, assertion, credential, via⟩ := call
  obtain ⟨id', decision', decidedBy', reason', diff', assertion', credential', via'⟩ := call'
  simp only [DecideCall.body, DecideRequest.mk.injEq] at hbody
  simp_all

/-- The principal header carries the tenant of the client and the principal of the bearer. -/
theorem mem_headers_principal_iff (tenant : Option String) (call : DecideCall)
    (claim : ConsolePrincipalClaim) :
    (decisionPrincipalHeader, claim.encoded) ∈ call.headers tenant ↔
      claim.tenant = tenant.getD "unscoped" ∧
        ∃ token, call.credential = some (.bearer token claim.subject claim.method) := by
  have hscope : decisionPrincipalHeader ≠ tenantScopeHeader := by
    simp [decisionPrincipalHeader, tenantScopeHeader]
  have hcookie : decisionPrincipalHeader ≠ "cookie" := by simp [decisionPrincipalHeader]
  have hbearer : decisionPrincipalHeader ≠ "authorization" := by simp [decisionPrincipalHeader]
  have hsplit : (decisionPrincipalHeader, claim.encoded) ∈ call.headers tenant ↔
      ∃ credential, call.credential = some credential ∧
        (decisionPrincipalHeader, claim.encoded) ∈ credential.headers tenant := by
    simp [DecideCall.headers, hscope.symm]
  rw [hsplit]
  constructor
  · rintro ⟨credential, hcredential, hmem⟩
    cases credential with
    | sessionCookie cookie => simp [HilDecideCredential.headers, hcookie] at hmem
    | demoSession jwt => simp [HilDecideCredential.headers, hcookie] at hmem
    | bearer token subject method =>
      simp only [HilDecideCredential.headers, List.mem_cons, Prod.mk.injEq, hbearer, false_and,
        true_and, List.not_mem_nil, or_false, false_or] at hmem
      obtain rfl := ConsolePrincipalClaim.encoded_injective hmem
      exact ⟨rfl, token, hcredential⟩
  · rintro ⟨htenant, token, hcredential⟩
    refine ⟨_, hcredential, ?_⟩
    simp only [HilDecideCredential.headers, ← htenant, List.mem_cons, true_or, or_true]

/-- A decision says what it was given, whatever the strings are. With every accepted base URL, it
is sent if and only if its headers have values that are allowed. It goes to its row; the scope
header has the tenant of the client, and a scoped client sends no decision without it; the body
names this tenant if and only if there is no credential; and the principal header holds exactly
the principal of the bearer with this tenant. Decisions with the same request are the same. -/
theorem decisions_readable [UrlCrate] (hjoins : JoinsPaths) [HttpCrate] {base : String} {url : Url}
    (hbase : parseBaseUrl base = .ok url) :
    ∃ directory, url.IsDirectory directory ∧
      (∀ tenant call, (∃ request, HilClient.decide ⟨url, tenant⟩ call = some request) ↔
        ∀ header ∈ call.headers tenant, isHeaderValue header.2 = true) ∧
      (∀ tenant call request, HilClient.decide ⟨url, tenant⟩ call = some request →
        request.segments = directory ++ ["decide".toList, call.id.toText.toList] ∧
        request.headers.lookup tenantScopeHeader = tenant ∧
        (∀ value, request.member "tenant" = some (.string value) ↔
          call.credential = none ∧ tenant = some value) ∧
        ∀ claim : ConsolePrincipalClaim,
          (decisionPrincipalHeader, claim.encoded) ∈ request.headers ↔
            claim.tenant = tenant.getD "unscoped" ∧
            ∃ token, call.credential = some (.bearer token claim.subject claim.method)) ∧
      ∀ tenant tenant' call call' request, HilClient.decide ⟨url, tenant⟩ call = some request →
        HilClient.decide ⟨url, tenant'⟩ call' = some request → tenant = tenant' ∧ call = call' := by
  obtain ⟨directory, hurl⟩ := isDirectory_of_parseBaseUrl hbase
  refine ⟨directory, hurl, fun tenant call => ?_, fun tenant call request hsent => ?_, ?_⟩
  · rw [exists_congr fun request => decide_eq_some_iff hjoins ⟨url, tenant⟩ hurl]
    exact ⟨fun ⟨_, h, _⟩ => h, fun h => ⟨_, h, rfl⟩⟩
  · obtain ⟨-, rfl⟩ := (decide_eq_some_iff hjoins ⟨url, tenant⟩ hurl).mp hsent
    refine ⟨rfl, lookup_scope_headers tenant call, fun value => ?_,
      mem_headers_principal_iff tenant call⟩
    have htenant : HilPost.member ⟨directory ++ ["decide".toList, call.id.toText.toList],
        call.headers tenant, toJson (call.body tenant)⟩ "tenant" =
          (call.body tenant).tenant.map toJson := (call.body tenant).lookup_members.2.2.2.2.2.2
    rw [htenant]
    cases hcredential : call.credential <;> simp [DecideCall.body, hcredential, toJson]
  · intro tenant tenant' call call' request hsent hsent'
    obtain ⟨-, rfl⟩ := (decide_eq_some_iff hjoins ⟨url, tenant⟩ hurl).mp hsent
    obtain ⟨-, hsame⟩ := (decide_eq_some_iff hjoins ⟨url, tenant'⟩ hurl).mp hsent'
    simp only [HilPost.mk.injEq, List.append_cancel_left_eq, List.cons.injEq, true_and,
      and_true] at hsame
    obtain ⟨hid, hheaders, hbody⟩ := hsame
    obtain ⟨rfl, hcredential⟩ := DecideCall.headers_inj hheaders
    refine ⟨rfl, decideCall_ext (Uuid.toText_injective (String.toList_injective hid))
      (decideRequest_toJson_injective hbody) hcredential⟩

namespace Fixture

attribute [local instance] urlCrate

/-- The values that `HeaderValue` documents. -/
@[reducible] def httpCrate : HttpCrate where
  isHeaderValue value := value.toList.all fun c => (32 ≤ c.toNat && c.toNat ≠ 127) || c == '\t'

attribute [local instance] httpCrate

/-- An approval by an operator whose name has a quote in it. -/
def approval : DecideCall where
  id := ⟨List.replicate 16 0, rfl⟩
  decision := .approve
  decidedBy := "ops"
  reason := none
  modificationDiff := none
  approverAssertion := none
  credential := some (.bearer "t" "a\",\"tenant\":\"b" .oidc)
  decidedVia := some "console"

/-- The approval of a principal with quotation marks in its name is sent under the client's tenant.
-/
theorem decisions_readable_approval :
    ∃ directory, apiUrl.withSlash.IsDirectory directory ∧
      ∃ request, HilClient.decide ⟨apiUrl.withSlash, some "acme"⟩ approval = some request ∧
        (decisionPrincipalHeader, ConsolePrincipalClaim.encoded
          ⟨"a\",\"tenant\":\"b", "acme", .oidc⟩) ∈ request.headers := by
  obtain ⟨directory, hdirectory, hsent, hreads, -⟩ :=
    decisions_readable joinsPaths_urlCrate parseBaseUrl_api
  obtain ⟨request, hrequest⟩ := (hsent (some "acme") approval).mpr (by decide +kernel)
  exact ⟨directory, hdirectory, request, hrequest,
    ((hreads _ _ _ hrequest).2.2.2 _).mpr ⟨rfl, "t", rfl⟩⟩

end Fixture

end ClavenarSdk
