import ClavenarSdk.Execution.Calls
import ClavenarSdk.Execution.Surroundings

/-!
# The published contract fixture

The authorization of `contracts/execution-receipt-v1.fixture.json`, the client and the answers
of the integration test over it, and the crates on the finitely many inputs of an example.
-/

namespace ClavenarSdk

open Interaction

/-- The digest written in hexadecimal digits. -/
def digestOfHex (digits : String) : { bytes : List UInt8 // bytes.length = 32 } :=
  let bytes := (hexDecode digits.toList).getD []
  if h : bytes.length = 32 then ⟨bytes, h⟩ else ⟨List.replicate 32 0, List.length_replicate⟩

/-- The crates on the documents, hashed texts and signed texts of an example. The digests and
signatures are given in hexadecimal digits. -/
@[reducible] def cratesOn (documents : List Json) (digests signatures : List (String × String)) :
    Crates where
  SigningKey := Unit
  sign _ text := (hexDecode ((signatures.lookup text).getD "").toList).getD []
  sha256Digest text := digestOfHex ((digests.lookup text).getD "")
  parseJson text :=
    match documents.find? fun document => document.text = text with
    | some document => .ok document
    | none => .error (.syntaxError "expected value")
  joinUrl base path := .ok (base ++ path)
  utf8Error _ := "invalid utf-8 sequence"

/-- A document is read back from its text, if no document before it has the same text. -/
theorem parseJson_cratesOn {documents : List Json} {digests signatures : List (String × String)}
    {document : Json}
    (h : documents.find? (fun d => d.text = document.text) = some document) :
    (cratesOn documents digests signatures).parseJson document.text = .ok document := by
  change (match documents.find? fun d => d.text = document.text with
    | some document => Except.ok document
    | none => _) = _
  rw [h]

/-- A parser that goes by the texts of its documents finds the first one by its text. -/
theorem find?_text_head (document : Json) (documents : List Json) :
    (document :: documents).find? (fun d => d.text = document.text) = some document :=
  List.find?_cons_of_pos (by simp)

/-- Objects whose first members have different names have different texts. -/
theorem Json.text_ne_text {name name' : String} {v v' : Json}
    {members members' : List (String × Json)} (h : name ≠ name') :
    (Json.object ((name, v) :: members)).text ≠ (Json.object ((name', v') :: members')).text := by
  have hstart : ∀ (name : String) (v : Json) (members : List (String × Json)), ∃ rest,
      (Json.object ((name, v) :: members)).text.toList =
        '\x7b' :: ((quote name).toList ++ rest) := by
    intro name v members
    cases members with
    | nil => exact ⟨_, by simp [Json.text, Json.textMembers, List.append_assoc]; rfl⟩
    | cons m members =>
      exact ⟨_, by simp [Json.text, Json.textMembers, List.append_assoc]; rfl⟩
  intro heq
  obtain ⟨rest, hrest⟩ := hstart name v members
  obtain ⟨rest', hrest'⟩ := hstart name' v' members'
  rw [heq, hrest'] at hrest
  exact h (quote_append_inj (List.cons.inj hrest).2).1.symm

namespace Fixture

/-- `354c33ed-e5d3-4af7-a1b8-b009d50b0bc5`. -/
def authorizationId : Uuid :=
  ⟨[0x35, 0x4c, 0x33, 0xed, 0xe5, 0xd3, 0x4a, 0xf7, 0xa1, 0xb8, 0xb0, 0x09, 0xd5, 0x0b, 0x0b,
    0xc5], rfl⟩

/-- `cfcc8767-4c73-41cc-8ece-b855863924c4`. -/
def idempotencyId : Uuid :=
  ⟨[0xcf, 0xcc, 0x87, 0x67, 0x4c, 0x73, 0x41, 0xcc, 0x8e, 0xce, 0xb8, 0x55, 0x86, 0x39, 0x24,
    0xc4], rfl⟩

/-- `c1a28e4c-a17d-5b3d-884b-e5b627f762c2`. -/
def correlationId : Uuid :=
  ⟨[0xc1, 0xa2, 0x8e, 0x4c, 0xa1, 0x7d, 0x5b, 0x3d, 0x88, 0x4b, 0xe5, 0xb6, 0x27, 0xf7, 0x62,
    0xc2], rfl⟩

/-- The arguments of the call. -/
def arguments : Value := .ofJson (.object [("amount", .number (.int 100))])

/-- The signed authorization. -/
def authorization : SignedAuthorization where
  authorization := {
    contract := executionContract
    stage := "authorization"
    authorizationId
    idempotencyId
    correlationId
    agentId := "payments-agent"
    agentSpiffe := "spiffe://clavenar.local/tenant/acme/agent/payments-agent/instance/one"
    tenant := "acme"
    credentialFingerprint :=
      "sha256:1111111111111111111111111111111111111111111111111111111111111111"
    method := "tools/call"
    toolName := "payments.transfer"
    executionPayload := toolEnvelope idempotencyId "payments.transfer" arguments
    payloadSha256 := "sha256:269123e546c75ec2df26ce4a52baeab92e58afdfabcb111c3e9069a37f78f1c5"
    decisionPrincipal := .ofJson (.object [
      ("subject", .string "system:policy-brain"),
      ("tenant", .string "acme"),
      ("method", .string "policy-brain"),
      ("credential",
        .string "sha256:2222222222222222222222222222222222222222222222222222222222222222")])
    modificationDiff := none
    policyBundle := {
      schemaVersion := 1
      version := "2026-07-20.1"
      hashSha256 := "sha256:2222222222222222222222222222222222222222222222222222222222222222"
      policyCount := 7 }
    brainVersion := "brain-2026-07-20"
    brainEvidenceSha256 :=
      "sha256:3333333333333333333333333333333333333333333333333333333333333333" }
  identitySignature := {
    algorithm := "Ed25519"
    keyId := "clavenar-identity:v1"
    value := "vault:v1:AAAAAAAAAAAAAAAAAAAAAAAAAAAAAAAAAAAAAAAAAAAAAAAAAAAAAAAAAAAAAAAAAAAAAAAAAAAAAAAAAAAAAA==" }

/-- The executor of the test, with an effect lookup. -/
def executor : RegisteredToolExecutor := ⟨"payments-provider/v1", true⟩

/-- The identity of the executor is valid. -/
theorem validateExecutorId_executor : validateExecutorId executor.id = .ok () := by
  decide +kernel

/-- The client of the test, with a signing key of the crates at hand. -/
def client [Crates] (signingKey : SigningKey) : ClavenarClient where
  baseUrl := "http://127.0.0.1:54321/"
  auth := .none
  executionSigningKey := some signingKey
  toolExecutor := some executor
  durableExecutionStore := some ⟨true, true⟩

/-- What the client executes with. -/
def dependencies [Crates] (signingKey : SigningKey) : ExecutionDependencies :=
  ⟨executor, signingKey, ⟨true, true⟩⟩

/-- The client has everything that governed execution needs. -/
theorem executionDependencies_client [Crates] (signingKey : SigningKey) :
    (client signingKey).executionDependencies = .ok (dependencies signingKey) :=
  ClavenarClient.executionDependencies_eq_ok_iff.mpr
    ⟨rfl, validateExecutorId_executor, rfl, rfl, rfl⟩

/-- The call of the test. -/
def call : GovernedCall := .executeTool idempotencyId "payments.transfer" arguments

/-- The call passes its checks. -/
theorem gate_call [Crates] (signingKey : SigningKey) :
    call.gate (client signingKey) = .ok (dependencies signingKey) :=
  executionDependencies_client signingKey

/-- What the executor of the test returns. -/
def result : Value :=
  .ofJson (.object [("ok", .bool true), ("source", .string "registered-executor")])

/-- The effect of the test. -/
def effect : ExecutionEffect := ⟨result, "provider-operation-123"⟩

/-- Another effect that a provider could report. -/
def otherEffect : ExecutionEffect := ⟨result, "provider-operation-124"⟩

/-- The SHA-256 digests of the authorized payload and of the result. -/
def digests : List (String × String) := [
  (authorization.authorization.executionPayload.canonical,
    "269123e546c75ec2df26ce4a52baeab92e58afdfabcb111c3e9069a37f78f1c5"),
  (result.canonical, "0e7557119350c8bbaee392bf4b64ba8dfe63cae8555ec686bd4937d2e0c3c7f7")]

/-- The text that is signed for an effect. -/
def signedText (effect : ExecutionEffect) : String :=
  letI := cratesOn [] digests []
  canonicalJsonValue
    (Value.ofJson (toJson (ClavenarClient.unsignedReceipt authorization effect))).json

/-- What the Proxy of the test answers to the receipt. -/
def recorded : Json := .object [
  ("status", .string "recorded"),
  ("contract", .string executionContract),
  ("stage", .string "execution.completed"),
  ("authorization_id", .string authorizationId.toText),
  ("receipt_sha256",
    .string "sha256:a43492442b4bf8fdcec5e6e1b3199afe51cf6135ded2d185f26eaa0b0acaa1cb")]

/-- The ES256 signatures over these texts under the key of the test, the scalar of
thirty-two bytes seven. -/
def signatures : List (String × String) := [
  (signedText effect, "f7cf416255da85d656ac1887d7ed97c33557bf2f928856223979317b096e6244" ++
    "01dab08e665c36f88ddec75d916add407b1e0999f35f608a94b47dd2fd0517d0"),
  (signedText otherEffect, "842cb8982ccbe5e1a631a1528d670735e82f175cfb6af93eba284a06878d974d" ++
    "3c2d49af8c2c214ed2230c7babc128126a58c771d2b4ca6a32072942c76331f7")]

/-- The crates on the inputs of the test. -/
@[reducible] def crates : Crates :=
  cratesOn [toJson authorization, recorded] digests signatures

attribute [local instance] crates

/-- The answer to the decision request. -/
def decision : Response := .ofText 200 (toJson authorization).text

/-- The answers of the test. A lookup finds the other effect. -/
def surroundings : Surroundings where
  decision _ := .ok decision
  receipt _ := .ok (.ofText 201 recorded.text)
  executor _ := .ok effect
  effectLookup _ := .ok (.found otherEffect)
  commitFault := none

/-- The authorization is valid for the call. -/
theorem authorization_valid : authorization.Valid idempotencyId where
  contract := rfl
  stage := rfl
  idempotencyId := rfl
  payloadSha256 := by decide +kernel
  algorithm := rfl

/-- The authorization executes the envelope of the call. -/
theorem envelope_call : authorization.authorization.executionPayload = call.envelope := by
  simp only [authorization, call, GovernedCall.envelope, GovernedCall.requested,
    Requested.envelope, GovernedCall.idempotencyId]

/-- The call of the test obtains the authorization of the fixture. -/
theorem decide_call : call.decide (.ok decision) = .ok (.inr authorization) := by
  refine GovernedCall.decide_ofText ⟨authorization_valid, fun _ => envelope_call,
    by simp [call, GovernedCall.pending], rfl⟩ (length_utf8Bytes_text_le (by decide +kernel)) ?_
    (by simp [Authorization.DiffDecoded, authorization])
  exact parseJson_cratesOn (find?_text_head _ _)

/-- The confirmation of the Proxy, as it is decoded. -/
def receiptRecorded : ReceiptRecorded where
  status := "recorded"
  contract := executionContract
  stage := "execution.completed"
  authorizationId := authorizationId
  receiptSha256 := "sha256:a43492442b4bf8fdcec5e6e1b3199afe51cf6135ded2d185f26eaa0b0acaa1cb"

/-- The confirmation is parsed from its text. -/
theorem parseJson_recorded : parseJson recorded.text = .ok recorded := by
  have hne : (toJson authorization).text ≠ recorded.text := Json.text_ne_text (by decide)
  refine parseJson_cratesOn ?_
  rw [List.find?_cons_of_neg (by simpa using hne)]
  exact find?_text_head _ _

/-- The response with the confirmation is decoded to it. -/
theorem decodeReceiptRecorded_recorded :
    ClavenarClient.decodeReceiptRecorded (.ofText 201 recorded.text) = .ok receiptRecorded := by
  have hraw : readTextLimited (.ofText 201 recorded.text) = .ok recorded.text :=
    readTextLimited_ofText (length_utf8Bytes_text_le (by decide +kernel))
  have hdecoded : (fromJson recorded : Except DecodeError ReceiptRecorded) =
      .ok receiptRecorded := by
    decide +kernel
  have hread : (fromStr recorded.text : Except ClavenarError ReceiptRecorded) =
      .ok receiptRecorded := fromStr_eq parseJson_recorded hdecoded
  rw [ClavenarClient.decodeReceiptRecorded, hraw, ok_bind, hread]
  rfl

/-- The outbox entry of the test. -/
def entry : ReceiptOutboxEntry :=
  ⟨"receipt-354c33ed-e5d3-4af7-a1b8-b009d50b0bc5",
    ClavenarClient.receiptOf () authorization effect⟩

/-- The completion of the call of the test. -/
def completion : ExecutionCompletion :=
  ClavenarClient.completionOf executor.id authorization effect
    (ClavenarClient.receiptOf () authorization effect)

/-- The run of the test. -/
theorem returns_call : ∃ history, (call.run (client ())).Returns history
    (.ok (.executed ⟨receiptRecorded, result, "provider-operation-123"⟩)) := by
  have hentry : validateOutboxEntry entry = .ok () :=
    validateOutboxEntry_eq_ok_iff.mpr ⟨by decide, by decide +kernel, rfl, rfl, rfl⟩
  have hdelivery : ((client ()).deliverOutboxEntry entry).Returns _ (.ok receiptRecorded) :=
    ClavenarClient.deliverOutboxEntry_completed hentry rfl decodeReceiptRecorded_recorded rfl rfl
      rfl
  have hexecuted : ((client ()).executeAuthorization executor () authorization false).Returns _ _ :=
    ClavenarClient.executeAuthorization_delivered (by decide +kernel) rfl hdelivery
  exact ⟨_, GovernedCall.returns_executed (gate_call ()) rfl decide_call hexecuted⟩

end Fixture

end ClavenarSdk
