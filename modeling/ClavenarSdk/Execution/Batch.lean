import ClavenarSdk.Execution.Ordering

/-!
# Atomic batches

Which payloads the batch validator accepts. Its decoder reads a struct from an object and also
from the array of its fields, so an envelope has more spellings than the one that is sent.
-/

namespace ClavenarSdk

open Interaction ClavenarClient

/-! ### Spellings of an envelope -/

/-- The document is read as this call. -/
def ModelToolCall.Spells (call : ModelToolCall) (j : Json) : Prop :=
  ∃ arguments, SpellsStruct [("id", .string call.id), ("name", .string call.name),
    ("arguments", arguments)] j ∧ Value.ofJson arguments = call.arguments

/-- The document is read as the envelope of a batch with these calls. -/
def SpellsBatch (idempotencyId : Uuid) (calls : List ModelToolCall) (j : Json) : Prop :=
  ∃ params arguments items,
    SpellsStruct [("jsonrpc", .string "2.0"), ("id", .string idempotencyId.toText),
      ("method", .string atomicToolCallBatchMethod), ("params", params)] j ∧
    SpellsStruct [("name", .string atomicToolCallBatchName), ("arguments", arguments)] params ∧
    SpellsStruct [("contract", .string atomicToolCallBatchContract), ("calls", .array items)]
      arguments ∧
    List.Forall₂ (fun item call => call.Spells item) items calls

/-- The envelope, its parameters, its arguments and its calls are objects. -/
def ObjectForm (j : Json) : Prop :=
  ∃ members params arguments items, j = .object members ∧
    ("params", .object params) ∈ members ∧ ("arguments", .object arguments) ∈ params ∧
    ("calls", .array items) ∈ arguments ∧ ∀ item ∈ items, ∃ members, item = .object members

/-- A call is read from exactly the documents that spell it. -/
theorem modelToolCall_fromJson_eq_ok_iff {j : Json} {call : ModelToolCall} :
    fromJson j = .ok call ↔ call.Spells j := by
  change ModelToolCall.deserialize j = .ok call ↔ _
  have hfields : ∀ v, SpellsStruct [("id", .string call.id), ("name", .string call.name),
      ("arguments", v)] j ↔ _ := fun v => spellsStruct_iff (by simp)
  simp only [List.map_cons, List.map_nil, List.forall_mem_cons, List.not_mem_nil, false_implies,
    implies_true, and_true] at hfields
  simp only [ModelToolCall.deserialize, ModelToolCall.Spells, bind_eq_ok_iff,
    requiredField_eq_ok_iff, string_fromJson_eq_ok_iff, value_fromJson_eq_ok_iff, pure_eq_ok,
    Except.ok.injEq, hfields]
  constructor
  · rintro ⟨members, hmembers, _, ⟨_, hid, rfl⟩, _, ⟨_, hname, rfl⟩, _, ⟨v, hv, rfl⟩, rfl⟩
    exact ⟨v, ⟨members, hmembers, hid, hname, hv⟩, rfl⟩
  · rintro ⟨v, ⟨members, hmembers, hid, hname, hv⟩, hvalue⟩
    exact ⟨members, hmembers, _, ⟨_, hid, rfl⟩, _, ⟨_, hname, rfl⟩, _, ⟨v, hv, hvalue⟩, rfl⟩

/-- Arguments of a batch are read from a contract and the documents of the calls. -/
theorem atomicBatchArguments_fromJson_eq_ok_iff {j : Json} {arguments : AtomicBatchArguments} :
    fromJson j = .ok arguments ↔ ∃ items,
      SpellsStruct [("contract", .string arguments.contract), ("calls", .array items)] j ∧
      List.Forall₂ (fun item call => call.Spells item) items arguments.calls := by
  change AtomicBatchArguments.deserialize j = .ok arguments ↔ _
  have hfields : ∀ items, SpellsStruct [("contract", .string arguments.contract),
      ("calls", .array items)] j ↔ _ := fun items => spellsStruct_iff (by simp)
  simp only [List.map_cons, List.map_nil, List.forall_mem_cons, List.not_mem_nil, false_implies,
    implies_true, and_true] at hfields
  simp only [AtomicBatchArguments.deserialize, bind_eq_ok_iff, requiredField_eq_ok_iff,
    string_fromJson_eq_ok_iff, list_fromJson_eq_ok_iff, modelToolCall_fromJson_eq_ok_iff,
    pure_eq_ok, Except.ok.injEq, hfields]
  constructor
  · rintro ⟨members, hmembers, _, ⟨_, hcontract, rfl⟩, _, ⟨_, hv, items, rfl, hitems⟩, rfl⟩
    exact ⟨items, ⟨members, hmembers, hcontract, hv⟩, hitems⟩
  · rintro ⟨items, ⟨members, hmembers, hcontract, hv⟩, hitems⟩
    exact ⟨members, hmembers, _, ⟨_, hcontract, rfl⟩, _, ⟨_, hv, items, rfl, hitems⟩, rfl⟩

/-- Parameters of a batch are read from a name and the document of the arguments. -/
theorem atomicBatchParams_fromJson_eq_ok_iff {j : Json} {params : AtomicBatchParams} :
    fromJson j = .ok params ↔ ∃ arguments,
      SpellsStruct [("name", .string params.name), ("arguments", arguments)] j ∧
      fromJson arguments = .ok params.arguments := by
  change AtomicBatchParams.deserialize j = .ok params ↔ _
  have hfields : ∀ arguments, SpellsStruct [("name", .string params.name),
      ("arguments", arguments)] j ↔ _ := fun arguments => spellsStruct_iff (by simp)
  simp only [List.map_cons, List.map_nil, List.forall_mem_cons, List.not_mem_nil, false_implies,
    implies_true, and_true] at hfields
  simp only [AtomicBatchParams.deserialize, bind_eq_ok_iff, requiredField_eq_ok_iff,
    string_fromJson_eq_ok_iff, pure_eq_ok, Except.ok.injEq, hfields]
  constructor
  · rintro ⟨members, hmembers, _, ⟨_, hname, rfl⟩, _, ⟨arguments, hv, hread⟩, rfl⟩
    exact ⟨arguments, ⟨members, hmembers, hname, hv⟩, hread⟩
  · rintro ⟨arguments, ⟨members, hmembers, hname, hv⟩, hread⟩
    exact ⟨members, hmembers, _, ⟨_, hname, rfl⟩, _, ⟨arguments, hv, hread⟩, rfl⟩

/-- The envelope of a batch is read from its three texts and the document of the parameters. -/
theorem atomicBatchEnvelope_deserialize_eq_ok_iff {j : Json} {envelope : AtomicBatchEnvelope} :
    AtomicBatchEnvelope.deserialize j = .ok envelope ↔ ∃ params,
      SpellsStruct [("jsonrpc", .string envelope.jsonrpc), ("id", .string envelope.id),
        ("method", .string envelope.method), ("params", params)] j ∧
      fromJson params = .ok envelope.params := by
  have hfields : ∀ params, SpellsStruct [("jsonrpc", .string envelope.jsonrpc),
      ("id", .string envelope.id), ("method", .string envelope.method), ("params", params)] j ↔ _ :=
    fun params => spellsStruct_iff (by simp)
  simp only [List.map_cons, List.map_nil, List.forall_mem_cons, List.not_mem_nil, false_implies,
    implies_true, and_true] at hfields
  simp only [AtomicBatchEnvelope.deserialize, bind_eq_ok_iff, requiredField_eq_ok_iff,
    string_fromJson_eq_ok_iff, pure_eq_ok, Except.ok.injEq, hfields]
  constructor
  · rintro ⟨members, hmembers, _, ⟨_, h1, rfl⟩, _, ⟨_, h2, rfl⟩, _, ⟨_, h3, rfl⟩, _,
      ⟨params, hv, hread⟩, rfl⟩
    exact ⟨params, ⟨members, hmembers, h1, h2, h3, hv⟩, hread⟩
  · rintro ⟨params, ⟨members, hmembers, h1, h2, h3, hv⟩, hread⟩
    exact ⟨members, hmembers, _, ⟨_, h1, rfl⟩, _, ⟨_, h2, rfl⟩, _, ⟨_, h3, rfl⟩, _,
      ⟨params, hv, hread⟩, rfl⟩

/-- What a decoded envelope with the fixed texts says about the document. -/
theorem spellsBatch_iff {idempotencyId : Uuid} {calls : List ModelToolCall} {j : Json} :
    SpellsBatch idempotencyId calls j ↔
      AtomicBatchEnvelope.deserialize j = .ok ⟨"2.0", idempotencyId.toText,
        atomicToolCallBatchMethod,
        ⟨atomicToolCallBatchName, atomicToolCallBatchContract, calls⟩⟩ := by
  simp only [SpellsBatch, atomicBatchEnvelope_deserialize_eq_ok_iff,
    atomicBatchParams_fromJson_eq_ok_iff, atomicBatchArguments_fromJson_eq_ok_iff]
  constructor
  · rintro ⟨params, arguments, items, h1, h2, h3, h4⟩
    exact ⟨params, h1, arguments, h2, items, h3, h4⟩
  · rintro ⟨params, h1, arguments, h2, items, h3, h4⟩
    exact ⟨params, arguments, items, h1, h2, h3, h4⟩

/-- A document spells at most one batch. -/
theorem SpellsBatch.calls_eq {idempotencyId : Uuid} {calls calls' : List ModelToolCall} {j : Json}
    (h : SpellsBatch idempotencyId calls j) (h' : SpellsBatch idempotencyId calls' j) :
    calls = calls' := by
  rw [spellsBatch_iff] at h h'
  simpa using h.symm.trans h'

/-! ### The spelling that is sent -/

/-- A call has one spelling as a sorted object. -/
theorem ModelToolCall.Spells.eq_of_sorted {call : ModelToolCall}
    {members members' : List (String × Json)} (h : call.Spells (.object members))
    (h' : call.Spells (.object members')) (hsorted : (Json.object members).Sorted)
    (hsorted' : (Json.object members').Sorted) : members = members' := by
  obtain ⟨v, hfields, hv⟩ := h
  obtain ⟨v', hfields', hv'⟩ := h'
  have hvsorted : v.Sorted := hsorted.of_mem (hfields.mem.mpr (by simp) :
    ("arguments", v) ∈ members)
  have hvsorted' : v'.Sorted := hsorted'.of_mem (hfields'.mem.mpr (by simp) :
    ("arguments", v') ∈ members')
  have hvalues : v.normalize = v'.normalize := congrArg Value.json (hv.trans hv'.symm)
  rw [Json.normalize_of_sorted hvsorted, Json.normalize_of_sorted hvsorted'] at hvalues
  exact hfields.eq_of_sorted (hvalues ▸ hfields') hsorted hsorted'

/-- Sorted documents that are objects spell the same calls only if they are the same. -/
theorem eq_of_spells_calls {items items' : List Json} {calls : List ModelToolCall}
    (h : List.Forall₂ (fun item call => ModelToolCall.Spells call item) items calls)
    (h' : List.Forall₂ (fun item call => ModelToolCall.Spells call item) items' calls)
    (hobjects : ∀ item ∈ items, ∃ members, item = .object members)
    (hobjects' : ∀ item ∈ items', ∃ members, item = .object members)
    (hsorted : ∀ item ∈ items, item.Sorted) (hsorted' : ∀ item ∈ items', item.Sorted) :
    items = items' := by
  induction h generalizing items' with
  | nil => cases h' with | nil => rfl
  | cons hcall hrest ih =>
    cases h' with
    | cons hcall' hrest' =>
      simp only [List.forall_mem_cons] at hobjects hobjects' hsorted hsorted'
      obtain ⟨members, rfl⟩ := hobjects.1
      obtain ⟨members', rfl⟩ := hobjects'.1
      rw [hcall.eq_of_sorted hcall' hsorted.1 hsorted'.1,
        ih hrest' hobjects.2 hobjects'.2 hsorted.2 hsorted'.2]

/-- A batch has one spelling in object form. -/
theorem SpellsBatch.eq_of_sorted {idempotencyId : Uuid} {calls : List ModelToolCall} {j j' : Json}
    (h : SpellsBatch idempotencyId calls j) (h' : SpellsBatch idempotencyId calls j')
    (hform : ObjectForm j) (hform' : ObjectForm j') (hsorted : j.Sorted) (hsorted' : j'.Sorted) :
    j = j' := by
  obtain ⟨_, _, _, henvelope, hparams, harguments, hcalls⟩ := h
  obtain ⟨_, _, _, henvelope', hparams', harguments', hcalls'⟩ := h'
  obtain ⟨members, params, arguments, items, rfl, hp, ha, hi, hobjects⟩ := hform
  obtain ⟨members', params', arguments', items', rfl, hp', ha', hi', hobjects'⟩ := hform'
  -- the nested documents are the ones that the object form names
  obtain rfl : Json.object params = _ := by simpa using henvelope.mem.mp hp
  obtain rfl : Json.object params' = _ := by simpa using henvelope'.mem.mp hp'
  obtain rfl : Json.object arguments = _ := by simpa using hparams.mem.mp ha
  obtain rfl : Json.object arguments' = _ := by simpa using hparams'.mem.mp ha'
  obtain rfl : items = _ := by simpa using harguments.mem.mp hi
  obtain rfl : items' = _ := by simpa using harguments'.mem.mp hi'
  have hps := hsorted.of_mem hp
  have hps' := hsorted'.of_mem hp'
  have has := hps.of_mem ha
  have has' := hps'.of_mem ha'
  have hitems : items = items' := by
    cases has.of_mem hi with
    | array his =>
    cases has'.of_mem hi' with
    | array his' => exact eq_of_spells_calls hcalls hcalls' hobjects hobjects' his his'
  have harguments : arguments = arguments' :=
    harguments.eq_of_sorted (hitems ▸ harguments') has has'
  have hparams : params = params' := hparams.eq_of_sorted (harguments ▸ hparams') hps hps'
  rw [henvelope.eq_of_sorted (hparams ▸ henvelope') hsorted hsorted']

/-- A call is spelled by what is written of it. -/
theorem modelToolCall_spells (call : ModelToolCall) : call.Spells (toJson call).normalize := by
  refine ⟨call.arguments.json, spellsStruct_normalize (by simp) ?_, by simp⟩
  simp [Json.normalize, toJson]

/-- A list of calls is normalized call by call. -/
theorem normalize_calls (calls : List ModelToolCall) :
    (toJson calls).normalize = .array (calls.map fun call => (toJson call).normalize) := by
  change Json.normalize (.array (calls.map toJson)) = _
  simp [Json.normalize, Json.normalizeItems_eq_map]

/-- The envelope that is sent is a spelling of the batch. -/
theorem spellsBatch_envelope (idempotencyId : Uuid) (calls : List ModelToolCall) :
    SpellsBatch idempotencyId calls (atomicBatchEnvelope idempotencyId calls).json := by
  have hcalls : List.Forall₂ (fun item call => ModelToolCall.Spells call item)
      (calls.map fun call => (toJson call).normalize) calls := by
    simp [List.forall₂_map_left_iff, List.forall₂_same, modelToolCall_spells]
  refine ⟨_, _, _, spellsStruct_normalize (by simp) rfl, spellsStruct_normalize (by simp) rfl,
    spellsStruct_normalize (by simp) ?_, hcalls⟩
  simp [Json.normalize, normalize_calls]

/-- The envelope of a batch consists of objects. -/
theorem objectForm_envelope (idempotencyId : Uuid) (calls : List ModelToolCall) :
    ObjectForm (atomicBatchEnvelope idempotencyId calls).json := by
  have hmem : ∀ {fields : List (String × Json)} {m : String × Json}, (fields.map Prod.fst).Nodup →
      m ∈ (fields.map fun f => (f.1, f.2.normalize)) → m ∈ Json.normalizeMembers fields :=
    fun hnames => (Json.normalizeMembers_perm hnames).mem_iff.mpr
  refine ⟨_, _, _, _, rfl, hmem (by simp) (.tail _ (.tail _ (.tail _ (.head _)))),
    hmem (by simp) (.tail _ (.head _)), hmem (by simp) (.tail _ (.head _)), fun item hitem => ?_⟩
  rw [Json.normalizeItems_eq_map, List.map_map] at hitem
  obtain ⟨call, -, rfl⟩ := List.mem_map.mp hitem
  exact ⟨_, rfl⟩

/-! ### What the batch validator accepts -/

/-- A valid list of calls with the ids of the requested ones, in their order. -/
structure SameSiblings (calls calls' : List ModelToolCall) : Prop where
  valid : validateModelToolCalls calls' = .ok ()
  ids : calls'.map ModelToolCall.id = calls.map ModelToolCall.id

/-- The validator accepts the spellings of envelopes for the requested siblings. -/
theorem validateBatchAuthorization_eq_ok_iff {signed : SignedAuthorization}
    {idempotencyId : Uuid} {calls : List ModelToolCall} {payload : Value} :
    validateBatchAuthorization signed idempotencyId calls payload = .ok () ↔
      (∃ calls', SameSiblings calls calls' ∧
        SpellsBatch idempotencyId calls' signed.authorization.executionPayload.json) ∧
      (signed.authorization.modificationDiff = none →
        signed.authorization.executionPayload = payload) := by
  unfold validateBatchAuthorization
  constructor
  · intro h
    cases henvelope :
        AtomicBatchEnvelope.deserialize signed.authorization.executionPayload.json with
    | error error => simp [henvelope] at h
    | ok envelope =>
      simp only [henvelope, bind_eq_ok_iff] at h
      obtain ⟨⟨⟩, hvalid, h⟩ := h
      split_ifs at h with hinvalid
      simp only [not_or, not_not, not_and] at hinvalid
      obtain ⟨h1, h2, h3, h4, h5, h6, h7⟩ := hinvalid
      refine ⟨⟨envelope.params.arguments.calls, ⟨hvalid, h6⟩, spellsBatch_iff.mpr ?_⟩, h7⟩
      rw [henvelope, ← h1, ← h2, ← h3, ← h4, ← h5]
  · rintro ⟨⟨calls', hsiblings, hspells⟩, hdiff⟩
    rw [spellsBatch_iff] at hspells
    simpa [hspells, hsiblings.valid, hsiblings.ids] using hdiff

/-- What the contract asks of a batch authorization: the envelope of the requested siblings,
and without a modification the envelope that was sent. -/
def IsBatchEnvelope (idempotencyId : Uuid) (calls : List ModelToolCall)
    (signed : SignedAuthorization) : Prop :=
  (∃ calls', SameSiblings calls calls' ∧
    signed.authorization.executionPayload = atomicBatchEnvelope idempotencyId calls') ∧
  (signed.authorization.modificationDiff = none →
    signed.authorization.executionPayload = atomicBatchEnvelope idempotencyId calls)

/-- The payload spells an envelope of the requested siblings, with a struct in it written as
the array of its fields. -/
def PositionalSpelling (idempotencyId : Uuid) (calls : List ModelToolCall) (payload : Value) :
    Prop :=
  ¬ObjectForm payload.json ∧
    ∃ calls', SameSiblings calls calls' ∧ SpellsBatch idempotencyId calls' payload.json

/-- A payload in object form spells at most the envelope that it is. -/
theorem spellsBatch_iff_eq_envelope {idempotencyId : Uuid} {calls : List ModelToolCall}
    {payload : Value} (hform : ObjectForm payload.json) :
    SpellsBatch idempotencyId calls payload.json ↔
      payload = atomicBatchEnvelope idempotencyId calls := by
  constructor
  · intro h
    exact Value.ext (h.eq_of_sorted (spellsBatch_envelope idempotencyId calls) hform
      (objectForm_envelope idempotencyId calls) payload.sorted (Value.sorted _))
  · rintro rfl
    exact spellsBatch_envelope idempotencyId calls

/-- The validator is exact unless a modified payload uses a positional spelling. -/
theorem validateBatchAuthorization_exact_iff {idempotencyId : Uuid} {calls : List ModelToolCall}
    (hcalls : validateModelToolCalls calls = .ok ()) (signed : SignedAuthorization) :
    (validateBatchAuthorization signed idempotencyId calls
        (atomicBatchEnvelope idempotencyId calls) = .ok () ↔
      IsBatchEnvelope idempotencyId calls signed) ↔
    (signed.authorization.modificationDiff = none ∨
      ¬PositionalSpelling idempotencyId calls signed.authorization.executionPayload) := by
  rw [validateBatchAuthorization_eq_ok_iff, IsBatchEnvelope, PositionalSpelling]
  have hself : SameSiblings calls calls := ⟨hcalls, rfl⟩
  by_cases hform : ObjectForm signed.authorization.executionPayload.json
  · simp only [spellsBatch_iff_eq_envelope hform, hform, not_true, false_and, not_false_iff,
      or_true]
  by_cases hdiff : signed.authorization.modificationDiff = none
  · simp only [hdiff, forall_const, true_or, iff_true]
    constructor
    · rintro ⟨-, heq⟩
      exact ⟨⟨calls, hself, heq⟩, heq⟩
    · rintro ⟨-, heq⟩
      refine ⟨⟨calls, hself, ?_⟩, heq⟩
      rw [heq]
      exact spellsBatch_envelope idempotencyId calls
  · have hnot : ∀ calls', signed.authorization.executionPayload ≠
        atomicBatchEnvelope idempotencyId calls' := fun calls' heq =>
      hform (heq ▸ objectForm_envelope idempotencyId calls')
    simp [hdiff, hnot, hform]

section

variable [Crates]

/-- The batch validator accepts exactly the batch envelopes unless a modified payload uses a
positional spelling. It accepts every honest echo, and what a batch call hands to its executor
is the object form of an envelope under the same condition. -/
theorem batch_exact_iff {idempotencyId : Uuid} {calls : List ModelToolCall}
    (hcalls : validateModelToolCalls calls = .ok ()) :
    (∀ signed : SignedAuthorization, (validateBatchAuthorization signed idempotencyId calls
          (atomicBatchEnvelope idempotencyId calls) = .ok () ↔
        IsBatchEnvelope idempotencyId calls signed) ↔
      (signed.authorization.modificationDiff = none ∨
        ¬PositionalSpelling idempotencyId calls signed.authorization.executionPayload)) ∧
    (∀ signed : SignedAuthorization,
      signed.authorization.executionPayload = atomicBatchEnvelope idempotencyId calls →
      validateBatchAuthorization signed idempotencyId calls
        (atomicBatchEnvelope idempotencyId calls) = .ok ()) ∧
    ∀ (client : ClavenarClient) (call : GovernedCall) (history : List (Event Answer))
      (request : ToolExecutionRequest),
      call.requested = .batch calls → call.idempotencyId = idempotencyId →
      (call.run client).Invokes history (.execute request) →
      ∃ authorization, call.Validated history authorization ∧
        request.executionPayload = authorization.authorization.executionPayload ∧
        (IsBatchEnvelope idempotencyId calls authorization ↔
          (authorization.authorization.modificationDiff = none ∨
            ¬PositionalSpelling idempotencyId calls request.executionPayload)) := by
  refine ⟨validateBatchAuthorization_exact_iff hcalls, fun signed hecho => ?_, ?_⟩
  · rw [validateBatchAuthorization_eq_ok_iff, hecho]
    exact ⟨⟨calls, ⟨hcalls, rfl⟩, spellsBatch_envelope idempotencyId calls⟩, fun _ => rfl⟩
  · rintro client call history request hrequested rfl hinvokes
    obtain ⟨_, executor, authorization, _, ⟨⟩, -, hvalidated, -, rfl, -⟩ :=
      (governed_ordered client call).of_invokes hinvokes
    have haccept := hvalidated.1.accept
    rw [hrequested, Requested.accept] at haccept
    refine ⟨authorization, hvalidated, rfl, ?_⟩
    exact (iff_true_left haccept).symm.trans
      (validateBatchAuthorization_exact_iff hcalls authorization)

end

namespace Fixture

/-- The siblings of a batch with the call of the test. -/
def siblings : List ModelToolCall := [⟨"call-1", "payments.transfer", arguments⟩]

/-- The two calls make a valid batch. -/
theorem validateModelToolCalls_siblings : validateModelToolCalls siblings = .ok () := by
  decide +kernel

/-- A modified payload with every struct written as the array of its fields. -/
def positional : Value := .ofJson (.array [
  .string "2.0", .string idempotencyId.toText, .string atomicToolCallBatchMethod,
  .array [.string atomicToolCallBatchName, .array [.string atomicToolCallBatchContract,
    .array [.array [.string "call-1", .string "payments.transfer", arguments.json]]]]])

/-- The authorization of the fixture for it. -/
def positionalAuthorization : SignedAuthorization :=
  { authorization with authorization := { authorization.authorization with
      method := atomicToolCallBatchMethod
      toolName := atomicToolCallBatchName
      executionPayload := positional
      payloadSha256 := "sha256:1e010813f8a318b35e02b268129426c7947f126fe8ca119c195d6f7132cb715c"
      modificationDiff := some (.ofJson (.object [("kind", .string "replace"),
        ("path", .string "/params/arguments/calls/0/arguments/amount")])) } }

/-- The crates on the inputs of a run with it. -/
@[reducible] def positionalCrates : Crates :=
  cratesOn [toJson positionalAuthorization]
    [(positional.canonical, "1e010813f8a318b35e02b268129426c7947f126fe8ca119c195d6f7132cb715c")] []

attribute [local instance] positionalCrates

/-- In the batch of the test. -/
theorem batch_exact_iff_siblings :
    validateModelToolCalls siblings = .ok () ∧
    ((validateBatchAuthorization positionalAuthorization idempotencyId siblings
        (atomicBatchEnvelope idempotencyId siblings) = .ok () ↔
      IsBatchEnvelope idempotencyId siblings positionalAuthorization) ↔
    (positionalAuthorization.authorization.modificationDiff = none ∨
      ¬PositionalSpelling idempotencyId siblings
        positionalAuthorization.authorization.executionPayload)) :=
  ⟨validateModelToolCalls_siblings,
    (batch_exact_iff validateModelToolCalls_siblings).1 positionalAuthorization⟩

/-- The positional document spells the batch of the two calls. -/
theorem spellsBatch_positional : SpellsBatch idempotencyId siblings positional.json := by
  have hcall : ModelToolCall.Spells ⟨"call-1", "payments.transfer", arguments⟩
      (.array [.string "call-1", .string "payments.transfer", arguments.json]) :=
    ⟨arguments.json, .inl rfl, by simp⟩
  simp only [positional, Value.ofJson, Json.normalize, Json.normalizeItems, Value.normalize_json]
  exact ⟨_, _, _, .inl rfl, .inl rfl, .inl rfl, .cons hcall .nil⟩

/-- The SDK takes the authorization with the positional payload for the batch. -/
theorem decide_positional : (GovernedCall.executeToolBatch idempotencyId siblings).decide
    (.ok (.ofText 200 (toJson positionalAuthorization).text)) =
      .ok (.inr positionalAuthorization) := by
  have hvalid : positionalAuthorization.Valid idempotencyId :=
    { contract := rfl, stage := rfl, idempotencyId := rfl, payloadSha256 := by decide +kernel,
      algorithm := rfl }
  have haccept : validateBatchAuthorization positionalAuthorization idempotencyId siblings
      (atomicBatchEnvelope idempotencyId siblings) = .ok () :=
    validateBatchAuthorization_eq_ok_iff.mpr
      ⟨⟨siblings, ⟨validateModelToolCalls_siblings, rfl⟩, spellsBatch_positional⟩,
        by simp [positionalAuthorization]⟩
  refine GovernedCall.decide_ofText ⟨hvalid, by simp [positionalAuthorization],
    by simp [GovernedCall.pending], haccept⟩ (length_utf8Bytes_text_le (by decide +kernel)) ?_
    (by simp [Authorization.DiffDecoded, positionalAuthorization, Value.ofJson, Json.normalize])
  exact parseJson_cratesOn (find?_text_head _ _)

/-- A batch call hands an array to its executor: the Proxy modified the payload and wrote its
structs as arrays. -/
theorem positional_executed : ∃ history request,
    ((GovernedCall.executeToolBatch idempotencyId siblings).run (client ())).Invokes history
      (.execute request) ∧
    ∀ calls, request.executionPayload ≠ atomicBatchEnvelope idempotencyId calls := by
  have hgate : (GovernedCall.executeToolBatch idempotencyId siblings).gate (client ()) =
      .ok (dependencies ()) := by
    simp [GovernedCall.gate, executionDependencies_client, validateModelToolCalls_siblings]
  refine ⟨_, _, GovernedCall.invokes_execute hgate rfl decide_positional, fun calls heq => ?_⟩
  obtain ⟨members, -, -, -, hmembers, -⟩ := objectForm_envelope idempotencyId calls
  rw [← heq] at hmembers
  cases hmembers

end Fixture

end ClavenarSdk
