import ClavenarSdk.Execution.Batch

/-!
# Modified authorizations

What a modification may change of the calls that are executed. The equality check against the
requested envelope is skipped for a modified payload, and the claims about method and tool are
not compared with the payload.
-/

namespace ClavenarSdk

open Interaction ClavenarClient

/-- The normalized envelope of a tool call, with its members in order. -/
theorem toolEnvelope_json (idempotencyId : Uuid) (name : String) (arguments : Value) :
    (toolEnvelope idempotencyId name arguments).json = .object [
      ("id", .string idempotencyId.toText), ("jsonrpc", .string "2.0"),
      ("method", .string "tools/call"),
      ("params", .object [("arguments", arguments.json), ("name", .string name)])] := by
  have h1 : ¬"name" < "arguments" := by decide
  have h3 : "jsonrpc" < "method" := by decide
  have h4 : "method" < "params" := by decide
  have h5 : ¬"jsonrpc" < "id" := by decide
  have h6 : "id" < "method" := by decide
  simp only [toolEnvelope, Value.ofJson, Json.normalize, Json.normalizeMembers, Json.insertMember,
    Value.normalize_json, h1, h3, h4, h5, h6, String.reduceEq, if_true, if_false]

/-- Envelopes of different tools are different. -/
theorem toolEnvelope_inj {idempotencyId idempotencyId' : Uuid} {name name' : String}
    {arguments arguments' : Value}
    (h : toolEnvelope idempotencyId name arguments = toolEnvelope idempotencyId' name' arguments') :
    idempotencyId = idempotencyId' ∧ name = name' ∧ arguments = arguments' := by
  have hjson := congrArg Value.json h
  simp only [toolEnvelope_json, Json.object.injEq, List.cons.injEq, Prod.mk.injEq,
    Json.string.injEq, true_and, and_true] at hjson
  exact ⟨Uuid.toText_injective hjson.1, hjson.2.2, Value.ext hjson.2.1⟩

section

variable [Crates]

/-- The call identity is preserved: an executed tool call has the requested tool, method and id
and, without a modification, the requested arguments, and the claims name the same tool and
method; an executed batch has the requested ids and names in order. -/
def PreservesIdentity (call : GovernedCall) (authorization : SignedAuthorization) : Prop :=
  match call.requested with
  | .tool name arguments =>
    (∃ arguments', authorization.authorization.executionPayload =
        toolEnvelope call.idempotencyId name arguments' ∧
      (authorization.authorization.modificationDiff = none → arguments' = arguments)) ∧
    authorization.authorization.method = "tools/call" ∧
    authorization.authorization.toolName = name
  | .batch calls => ∃ calls',
    SpellsBatch call.idempotencyId calls' authorization.authorization.executionPayload.json ∧
    (calls'.map fun call => (call.id, call.name)) = calls.map fun call => (call.id, call.name)

/-- The Proxy keeps the tool: its claims name the requested tool, and what it modified is still
a call of that tool, or a batch of calls of the requested tools. -/
def KeepsTools (call : GovernedCall) (authorization : SignedAuthorization) : Prop :=
  match call.requested with
  | .tool name _ =>
    authorization.authorization.method = "tools/call" ∧
    authorization.authorization.toolName = name ∧
    (authorization.authorization.modificationDiff ≠ none → ∃ arguments',
      authorization.authorization.executionPayload =
        toolEnvelope call.idempotencyId name arguments')
  | .batch calls => authorization.authorization.modificationDiff ≠ none → ∃ calls',
      SpellsBatch call.idempotencyId calls' authorization.authorization.executionPayload.json ∧
      calls'.map ModelToolCall.name = calls.map ModelToolCall.name

/-- What is executed keeps the identity of the requested calls exactly when the Proxy kept the
tools: the SDK itself compares only ids, and a payload only without a modification. -/
theorem preservesIdentity_iff {client : ClavenarClient} {call : GovernedCall}
    {history : List (Event Answer)} {request : ToolExecutionRequest}
    (hinvokes : (call.run client).Invokes history (.execute request)) :
    ∃ authorization, call.Validated history authorization ∧
      request.executionPayload = authorization.authorization.executionPayload ∧
      (PreservesIdentity call authorization ↔ KeepsTools call authorization) := by
  obtain ⟨_, executor, authorization, _, ⟨⟩, -, hvalidated, -, rfl, -⟩ :=
    (governed_ordered client call).of_invokes hinvokes
  refine ⟨authorization, hvalidated, rfl, ?_⟩
  have hunmodified := hvalidated.1.unmodified
  have haccept := hvalidated.1.accept
  unfold PreservesIdentity KeepsTools
  rw [GovernedCall.envelope] at hunmodified
  cases hrequested : call.requested with
  | tool name arguments =>
    rw [hrequested, Requested.envelope] at hunmodified
    constructor
    · rintro ⟨⟨arguments', hpayload, -⟩, hmethod, htool⟩
      exact ⟨hmethod, htool, fun _ => ⟨arguments', hpayload⟩⟩
    · rintro ⟨hmethod, htool, hmodified⟩
      refine ⟨?_, hmethod, htool⟩
      by_cases hdiff : authorization.authorization.modificationDiff = none
      · exact ⟨arguments, hunmodified hdiff, fun _ => rfl⟩
      · obtain ⟨arguments', hpayload⟩ := hmodified hdiff
        exact ⟨arguments', hpayload, fun hnone => absurd hnone hdiff⟩
  | batch calls =>
    rw [hrequested, Requested.envelope] at hunmodified
    rw [hrequested, Requested.accept, validateBatchAuthorization_eq_ok_iff] at haccept
    obtain ⟨⟨accepted, hsiblings, hspells⟩, -⟩ := haccept
    constructor
    · rintro ⟨calls', hspells', hpairs⟩ -
      refine ⟨calls', hspells', ?_⟩
      simpa [Function.comp_def] using congrArg (List.map Prod.snd) hpairs
    · intro hmodified
      by_cases hdiff : authorization.authorization.modificationDiff = none
      · exact ⟨calls, hunmodified hdiff ▸ spellsBatch_envelope _ _, rfl⟩
      · obtain ⟨calls', hspells', hnames⟩ := hmodified hdiff
        obtain rfl : accepted = calls' := hspells.calls_eq hspells'
        refine ⟨accepted, hspells, ?_⟩
        rw [← List.zip_map', ← List.zip_map', hsiblings.ids, hnames]

end

namespace Fixture

section

attribute [local instance] crates

/-- In the call of the test. -/
theorem preservesIdentity_iff_call : ∃ history request,
    (call.run (client ())).Invokes history (.execute request) ∧
    ∃ authorization, call.Validated history authorization ∧
      (PreservesIdentity call authorization ↔ KeepsTools call authorization) := by
  have hinvokes := GovernedCall.invokes_execute (gate_call ()) rfl decide_call
  obtain ⟨signed, hvalidated, -, hiff⟩ := preservesIdentity_iff hinvokes
  exact ⟨_, _, hinvokes, signed, hvalidated, hiff⟩

end

/-- The authorization of the fixture with a payload for another tool. -/
def diverted : SignedAuthorization :=
  { authorization with authorization := { authorization.authorization with
      executionPayload := toolEnvelope idempotencyId "payments.refund" arguments
      payloadSha256 := "sha256:19e8eae856d8aafb4055606c198ef47a75590d4f778b09e5bc66d3cb93966816"
      modificationDiff := some (.ofJson (.object [("kind", .string "replace"),
        ("path", .string "/params/name")])) } }

/-- The crates on the inputs of a run with it. -/
@[reducible] def divertedCrates : Crates :=
  cratesOn [toJson diverted] [(diverted.authorization.executionPayload.canonical,
    "19e8eae856d8aafb4055606c198ef47a75590d4f778b09e5bc66d3cb93966816")] []

attribute [local instance] divertedCrates

/-- The SDK takes the authorization of the other tool for the call. -/
theorem decide_diverted :
    call.decide (.ok (.ofText 200 (toJson diverted).text)) = .ok (.inr diverted) := by
  have hvalid : diverted.Valid idempotencyId :=
    { contract := rfl, stage := rfl, idempotencyId := rfl, payloadSha256 := by decide +kernel,
      algorithm := rfl }
  refine GovernedCall.decide_ofText ⟨hvalid, by simp [diverted],
    by simp [call, GovernedCall.pending], rfl⟩ (length_utf8Bytes_text_le (by decide +kernel)) ?_
    (by simp [Authorization.DiffDecoded, diverted, Value.ofJson, Json.normalize])
  exact parseJson_cratesOn (find?_text_head _ _)

/-- The executor is invoked for a refund where a transfer was requested and is named by the
claims: the Proxy modified the tool. -/
theorem diverted_executed : ∃ history request,
    (call.run (client ())).Invokes history (.execute request) ∧
    ∀ arguments', request.executionPayload ≠
      toolEnvelope idempotencyId "payments.transfer" arguments' := by
  refine ⟨_, _, GovernedCall.invokes_execute (gate_call ()) rfl decide_diverted,
    fun arguments' heq => ?_⟩
  obtain ⟨-, hname, -⟩ := toolEnvelope_inj heq
  exact absurd hname (by decide)

end Fixture

end ClavenarSdk
