import ClavenarSdk.Execution.Fixture
import ClavenarSdk.Interaction.Tokens
import ClavenarSdk.Veto

/-!
# JSON-RPC calls

`client.rs`. `call_tool` and `send_jsonrpc` take the next id of the client and send one request
with it. A client and its clones share the counter, and their calls run side by side.
-/

namespace ClavenarSdk

open Interaction

/-- What a JSON-RPC call does to its surroundings. -/
inductive RpcOp where
  /-- `next_id.fetch_add(1, Ordering::Relaxed)`. -/
  | fetchAddNextId
  /-- `POST mcp`. -/
  | postMcp (request : PostRequest)

/-- The answers. A failed request has the error that `reqwest` displays. -/
@[reducible] def RpcAnswer : RpcOp → Type
  | .fetchAddNextId => UInt64
  | .postMcp _ => Except String Response

/-- A call that returns a JSON value. -/
abbrev RpcCall : Type := Prog RpcOp RpcAnswer ClavenarError Value

/-- The body of a request. -/
def rpcBody (id : UInt64) (method : String) (params : Json) : Value :=
  .ofJson (.object [("jsonrpc", .string "2.0"), ("id", toJson id), ("method", .string method),
    ("params", params)])

/-- The parameters of `tools/call`. -/
def toolParams (name : String) (arguments : Value) : Json :=
  .object [("name", .string name), ("arguments", arguments.json)]

/-- The match on the status in `send_raw`. -/
def rpcOutcome [Crates] (status : ℕ) (raw : String) : Except ClavenarError Value :=
  if status = 200 then decodeJsonBody raw
  else if status = 403 then .error (parseVeto raw)
  else if status = 401 then .error (.unauthorized raw)
  else if status = 400 then .error (.badRequest raw)
  else .error (.server status raw)

/-- What `send_raw` makes of the answer to its request. -/
def rpcResult [Crates] : Except String Response → Except ClavenarError Value
  | .error error => .error (.transport error)
  | .ok response => do rpcOutcome response.status (← readTextLimited response)

namespace ClavenarClient

variable [Crates]

/-- `send_raw`. -/
def sendRaw (client : ClavenarClient) (body : Value) : RpcCall :=
  match joinUrl client.baseUrl "mcp" with
  | .error error => .fail (.invalidConfig ("join /mcp: " ++ error))
  | .ok endpoint => .await (.postMcp ⟨endpoint, [], client.auth.token, body.json⟩) fun answer =>
    .done (rpcResult answer)

/-- `call_tool`. -/
def callTool (client : ClavenarClient) (name : String) (arguments : Value) : RpcCall :=
  .await .fetchAddNextId fun id =>
    client.sendRaw (rpcBody id "tools/call" (toolParams name arguments))

/-- `send_jsonrpc`. -/
def sendJsonrpc (client : ClavenarClient) (method : String) (params : Value) : RpcCall :=
  .await .fetchAddNextId fun id => client.sendRaw (rpcBody id method params.json)

end ClavenarClient

/-- A JSON-RPC call of a client. -/
inductive RpcRequest where
  | callTool (name : String) (arguments : Value)
  | sendJsonrpc (method : String) (params : Value)

namespace RpcRequest

/-- The call on a client. -/
def run [Crates] (client : ClavenarClient) : RpcRequest → RpcCall
  | .callTool name arguments => client.callTool name arguments
  | .sendJsonrpc method params => client.sendJsonrpc method params

/-- The body that is sent with an id. -/
def body (id : UInt64) : RpcRequest → Value
  | .callTool name arguments => rpcBody id "tools/call" (toolParams name arguments)
  | .sendJsonrpc method params => rpcBody id method params.json

/-- Both kinds of calls take one id and send one body. -/
theorem run_eq [Crates] (client : ClavenarClient) (request : RpcRequest) :
    request.run client = .await .fetchAddNextId fun id => client.sendRaw (request.body id) := by
  cases request <;> rfl

end RpcRequest

/-! ### The ids of requests -/

/-- The normalized body of a request, with its members in order. -/
theorem rpcBody_json (id : UInt64) (method : String) (params : Json) :
    (rpcBody id method params).json = .object [("id", toJson id), ("jsonrpc", .string "2.0"),
      ("method", .string method), ("params", params.normalize)] := by
  have h1 : "jsonrpc" < "method" := by decide
  have h2 : "method" < "params" := by decide
  have h3 : ¬"jsonrpc" < "id" := by decide
  have h4 : "id" < "method" := by decide
  have hid : (toJson id).normalize = toJson id := rfl
  simp only [rpcBody, Value.ofJson, Json.normalize, Json.normalizeMembers, Json.insertMember,
    hid, h1, h2, h3, h4, String.reduceEq, if_true, if_false]

/-- The id that a server reads in a request. -/
def PostRequest.rpcId (request : PostRequest) : Option UInt64 :=
  match request.json with
  | .object members => (requiredField members "id").toOption
  | _ => none

/-- The id that is sent by an operation. -/
def RpcOp.sentId : RpcOp → Option UInt64
  | .fetchAddNextId => none
  | .postMcp request => request.rpcId

/-- The id that is handed out by an answer. -/
def allocatedId : Event RpcAnswer → Option UInt64
  | ⟨.fetchAddNextId, id⟩ => some id
  | ⟨.postMcp _, _⟩ => none

/-- The identity of a request is the member of that name. -/
theorem rpcId_object (endpoint : String) (headers : List (String × String))
    (bearer : Option String) (id : UInt64) (members : List (String × Json)) :
    PostRequest.rpcId ⟨endpoint, headers, bearer, .object (("id", toJson id) :: members)⟩ =
      some id := by
  have hread : (requiredField (("id", toJson id) :: members) "id" :
      Except DecodeError UInt64) = .ok id := by
    rw [requiredField_cons, if_pos rfl, uint64_roundTrips]
  simp only [PostRequest.rpcId]
  rw [hread]
  rfl

/-- A request carries the identity that its body was built with. -/
theorem rpcId_body (endpoint : String) (headers : List (String × String))
    (bearer : Option String) (id : UInt64) (request : RpcRequest) :
    PostRequest.rpcId ⟨endpoint, headers, bearer, (request.body id).json⟩ = some id := by
  obtain ⟨method, params, hbody⟩ : ∃ method params, request.body id = rpcBody id method params := by
    cases request <;> exact ⟨_, _, rfl⟩
  rw [hbody, rpcBody_json, rpcId_object]

/-- The counter `next_id` of a client and its clones. Everything else is arbitrary. -/
def nextIdEnv : Env UInt64 RpcAnswer where
  init next := next = 1
  answers
    | next, .fetchAddNextId, id, next' => id = next ∧ next' = next + 1
    | next, .postMcp _, _, next' => next' = next
  drift next next' := next' = next

/-- The ids handed out are the numbers from one on, wrapping around, and the counter goes on from
there. -/
def IdsCounted (next : UInt64) (log : List (Event RpcAnswer)) : Prop :=
  log.filterMap allocatedId =
      (List.range (log.filterMap allocatedId).length).map (fun k => UInt64.ofNat (k + 1)) ∧
    next = UInt64.ofNat ((log.filterMap allocatedId).length + 1)

/-- Each answer keeps the count of the identities. -/
theorem idsCounted_answer {next next' : UInt64} {log : List (Event RpcAnswer)}
    {event : Event RpcAnswer} (hanswer : nextIdEnv.answers next event.1 event.2 next')
    (h : IdsCounted next log) : IdsCounted next' (log ++ [event]) := by
  obtain ⟨hids, hnext⟩ := h
  obtain ⟨op, answer⟩ := event
  unfold IdsCounted
  cases op with
  | fetchAddNextId =>
    obtain ⟨hid, hnext'⟩ : answer = next ∧ next' = next + 1 := hanswer
    have hlog : (log ++ [(⟨.fetchAddNextId, answer⟩ : Event RpcAnswer)]).filterMap allocatedId =
        log.filterMap allocatedId ++ [next] := by
      rw [List.filterMap_append, hid]
      rfl
    rw [hlog, List.length_append, List.length_singleton, List.range_succ, List.map_append,
      ← hids, hnext', hnext]
    exact ⟨rfl, (UInt64.ofNat_add _ 1).symm⟩
  | postMcp request =>
    obtain rfl : next' = next := hanswer
    have hlog : (log ++ [(⟨.postMcp request, answer⟩ : Event RpcAnswer)]).filterMap allocatedId =
        log.filterMap allocatedId := by
      rw [List.filterMap_append]
      exact List.append_nil _
    rw [hlog]
    exact ⟨hids, hnext⟩

/-- The count holds in every reachable state. -/
theorem idsCounted {allowed : RpcCall → Prop} {c : Sys UInt64 RpcOp RpcAnswer ClavenarError Value}
    (h : c.Reachable nextIdEnv allowed) : IdsCounted c.shared c.log := by
  refine h.invariant ?_ (fun next next' log event => idsCounted_answer) ?_
  · rintro next rfl
    exact ⟨rfl, rfl⟩
  · rintro next next' log rfl hcounted
    exact hcounted

/-- Fewer than `2 ^ 64 + 1` ids are distinct. -/
theorem nodup_ids {n : ℕ} (hn : n ≤ 2 ^ 64) :
    ((List.range n).map fun k => UInt64.ofNat (k + 1)).Nodup := by
  refine List.Nodup.map_on ?_ List.nodup_range
  intro j hj k hk heq
  rw [List.mem_range] at hj hk
  have hmod := congrArg UInt64.toNat heq
  rw [UInt64.toNat_ofNat', UInt64.toNat_ofNat'] at hmod
  omega

section

variable [Crates]

/-- The calls of a client and its clones. -/
def IsRpcCall (client : ClavenarClient) (p : RpcCall) : Prop :=
  ∃ request : RpcRequest, p = request.run client

/-- The request that a call sends when it has this id. -/
def RpcRequest.IsPost (client : ClavenarClient) (request : RpcRequest) (id : UInt64)
    (post : PostRequest) : Prop :=
  ∃ endpoint, joinUrl client.baseUrl "mcp" = .ok endpoint ∧
    post = ⟨endpoint, [], client.auth.token, (request.body id).json⟩

/-- A call takes an id, sends its request, and makes its result of the answer. -/
inductive RpcRequest.Stage (client : ClavenarClient) (request : RpcRequest) :
    List (Event RpcAnswer) → RpcCall → Prop where
  | started : Stage client request [] (request.run client)
  | unjoined (id : UInt64) (error : String) :
      Stage client request [⟨.fetchAddNextId, id⟩]
        (.done (.error (.invalidConfig ("join /mcp: " ++ error))))
  | numbered (id : UInt64) (post : PostRequest) (hpost : request.IsPost client id post) :
      Stage client request [⟨.fetchAddNextId, id⟩]
        (.await (.postMcp post) fun answer => .done (rpcResult answer))
  | answered (id : UInt64) (post : PostRequest) (hpost : request.IsPost client id post)
      (answer : Except String Response) :
      Stage client request [⟨.fetchAddNextId, id⟩, ⟨.postMcp post, answer⟩]
        (.done (rpcResult answer))

/-- Every history of a call ends in one of these stages. -/
theorem RpcRequest.stage_of_reach {client : ClavenarClient} {request : RpcRequest}
    {history : List (Event RpcAnswer)} {p : RpcCall} (h : (request.run client).Reach history p) :
    request.Stage client history p := by
  rw [request.run_eq, Prog.reach_await_iff] at h
  obtain ⟨rfl, rfl⟩ | ⟨id, rest, rfl, hrest⟩ := h
  · rw [← request.run_eq]
    exact .started
  unfold ClavenarClient.sendRaw at hrest
  cases hjoin : joinUrl client.baseUrl "mcp" with
  | error error =>
    simp only [hjoin] at hrest
    obtain ⟨rfl, rfl⟩ := Prog.reach_done_iff.mp hrest
    exact .unjoined id _
  | ok endpoint =>
    simp only [hjoin] at hrest
    have hpost : request.IsPost client id
        ⟨endpoint, [], client.auth.token, (request.body id).json⟩ := ⟨endpoint, hjoin, rfl⟩
    obtain ⟨rfl, rfl⟩ | ⟨answer, rest, rfl, hdone⟩ := Prog.reach_await_iff.mp hrest
    · exact .numbered id _ hpost
    · obtain ⟨rfl, rfl⟩ := Prog.reach_done_iff.mp hdone
      exact .answered id _ hpost answer

/-- A call posts after it has taken its id, and nothing but its own request. -/
theorem RpcRequest.isPost_of_invokes {client : ClavenarClient} {request : RpcRequest}
    {history : List (Event RpcAnswer)} {post : PostRequest}
    (h : (request.run client).Invokes history (.postMcp post)) :
    ∃ id, history = [⟨.fetchAddNextId, id⟩] ∧ request.IsPost client id post := by
  obtain ⟨next, hreach⟩ := h
  have hstage := stage_of_reach hreach
  generalize hp : Prog.await (RpcOp.postMcp post) next = p at hstage
  cases hstage with
  | started =>
    rw [request.run_eq] at hp
    cases hp
  | unjoined | answered => cases hp
  | numbered id post' hpost =>
    cases hp
    exact ⟨id, rfl, hpost⟩

/-- A call sends the id that it was handed out, once. -/
theorem RpcRequest.affords {client : ClavenarClient} {request : RpcRequest}
    {history : List (Event RpcAnswer)} {op : RpcOp}
    (h : (request.run client).Invokes history op) :
    Affords RpcOp.sentId allocatedId history op := by
  intro token hsent
  cases op with
  | fetchAddNextId => cases hsent
  | postMcp post =>
    obtain ⟨id, rfl, endpoint, -, rfl⟩ := isPost_of_invokes h
    have hid : PostRequest.rpcId ⟨endpoint, [], client.auth.token, (request.body id).json⟩ =
        some token := hsent
    rw [rpcId_body, Option.some.injEq] at hid
    simp [RpcOp.sentId, allocatedId, hid]

/-- What a call has invoked: at most the counter, or the counter and its request with the id that
it was handed out. -/
def RpcRequest.HasInvoked (client : ClavenarClient) (request : RpcRequest)
    (history : List (Event RpcAnswer)) (invoked : List RpcOp) : Prop :=
  invoked <+: [.fetchAddNextId] ∨ ∃ id post, [⟨.fetchAddNextId, id⟩] <+: history ∧
    request.IsPost client id post ∧ invoked = [.fetchAddNextId, .postMcp post]

/-- At every stage a call has invoked at most the counter and one request. -/
theorem RpcRequest.Stage.hasInvoked {client : ClavenarClient} {request : RpcRequest}
    {history : List (Event RpcAnswer)} {p : RpcCall} (h : request.Stage client history p)
    (pending : Option RpcOp) (hpending : ∀ op ∈ pending, ∃ next, p = .await op next) :
    request.HasInvoked client history (history.map Sigma.fst ++ pending.toList) := by
  cases pending with
  | none =>
    cases h with
    | started => exact .inl (List.nil_prefix)
    | unjoined | numbered => exact .inl List.prefix_rfl
    | answered id post hpost => exact .inr ⟨id, post, List.prefix_append [_] _, hpost, rfl⟩
  | some op =>
    obtain ⟨next, rfl⟩ := hpending op rfl
    generalize hp : Prog.await op next = p at h
    cases h with
    | started =>
      rw [request.run_eq] at hp
      cases hp
      exact .inl List.prefix_rfl
    | unjoined | answered => cases hp
    | numbered id post hpost =>
      cases hp
      exact .inr ⟨id, post, List.prefix_rfl, hpost, rfl⟩

/-- A task of a call has invoked at most the counter and one request. -/
theorem RpcRequest.hasInvoked {client : ClavenarClient} {request : RpcRequest}
    {t : Task RpcOp RpcAnswer ClavenarError Value} (hstart : t.start = request.run client)
    (h : t.Consistent) : request.HasInvoked client t.history t.invoked := by
  obtain ⟨start, history, phase⟩ := t
  obtain rfl : start = request.run client := hstart
  match phase, h with
  | .ready p, h => exact (stage_of_reach h).hasInvoked none (by simp)
  | .dropped none, ⟨p, h⟩ => exact (stage_of_reach h).hasInvoked none (by simp)
  | .issued op next, h | .dropped (some op), ⟨next, h⟩ =>
    exact (stage_of_reach h).hasInvoked (some op) (by simp)

/-- Ids are not reused. In every run of the calls of one client, the requests that were sent, lost
ones included, carry ids that were handed out, each at most once; the ids handed out are the
numbers from one on, so that up to `2 ^ 64` requests are told apart by their ids. Each call sends
at most its own request, with the id that it took first. -/
theorem rpc_ids_distinct {client : ClavenarClient}
    {c : Sys UInt64 RpcOp RpcAnswer ClavenarError Value}
    (h : c.Reachable nextIdEnv (IsRpcCall client)) :
    let allocated := c.log.filterMap allocatedId
    let sent := (c.tasks.flatMap Task.invoked).filterMap RpcOp.sentId
    allocated = (List.range allocated.length).map (fun k => UInt64.ofNat (k + 1)) ∧
      sent.Subperm allocated ∧ (allocated.length ≤ 2 ^ 64 → sent.Nodup) ∧
      ∀ t ∈ c.tasks, ∃ request : RpcRequest, t.start = request.run client ∧
        request.HasInvoked client t.history t.invoked := by
  have hsent : ((c.tasks.flatMap Task.invoked).filterMap RpcOp.sentId).Subperm
      (c.log.filterMap allocatedId) := by
    refine h.used_subperm ?_
    rintro _ ⟨request, rfl⟩ history op
    exact request.affords
  refine ⟨(idsCounted h).1, hsent, fun hfew => ?_, fun t ht => ?_⟩
  · obtain ⟨ids, hperm, hsub⟩ := hsent
    have hnodup : (c.log.filterMap allocatedId).Nodup := (idsCounted h).1 ▸ nodup_ids hfew
    exact hperm.nodup_iff.mp (hnodup.sublist hsub)
  · obtain ⟨⟨request, hstart⟩, hconsistent⟩ := h.consistent t ht
    exact ⟨request, hstart, request.hasInvoked hstart hconsistent⟩

end

namespace Fixture

/-- The denial of a tool, with a member that the SDK does not read. -/
def denied : Json := .object [("layer", .string "policy"), ("intent_category",
  .string "DangerousTool"), ("reasons", .array [.string "Direct execution is prohibited."])]

/-- The crates on the denial. -/
@[reducible] def denialCrates : Crates := cratesOn [denied] [] []

attribute [local instance] denialCrates

/-- A call that lists the tools. -/
def listing : RpcRequest := .sendJsonrpc "tools/list" (.ofJson (.object []))

/-- A call of a tool. -/
def transfer : RpcRequest := .callTool "payments.transfer" arguments

/-- The request of a call with this id. -/
def posted (request : RpcRequest) (id : UInt64) : PostRequest :=
  ⟨"http://127.0.0.1:54321/mcp", [], none, (request.body id).json⟩

/-- The history of a call that is denied. -/
def deniedHistory (request : RpcRequest) (id : UInt64) : List (Event RpcAnswer) :=
  [⟨.fetchAddNextId, id⟩, ⟨.postMcp (posted request id), .ok (.ofText 403 denied.text)⟩]

/-- The call of the tool after its denial. -/
def deniedTask : Task RpcOp RpcAnswer ClavenarError Value where
  start := transfer.run (client ())
  history := deniedHistory transfer 2
  phase := .ready (.done (rpcResult (.ok (.ofText 403 denied.text))))

/-- The call that lists the tools takes its id first and sends its request last. -/
def interleaved : Sys UInt64 RpcOp RpcAnswer ClavenarError Value where
  shared := 3
  tasks := [⟨listing.run (client ()), deniedHistory listing 1,
      .ready (.done (rpcResult (.ok (.ofText 403 denied.text))))⟩, deniedTask]
  log := ⟨.fetchAddNextId, 1⟩ :: deniedHistory transfer 2 ++
    [⟨.postMcp (posted listing 1), .ok (.ofText 403 denied.text)⟩]

/-- The state in which two calls have taken turns is reachable. -/
theorem reachable_interleaved : interleaved.Reachable nextIdEnv (IsRpcCall (client ())) := by
  have hinit : Sys.Reachable nextIdEnv (IsRpcCall (client ())) ⟨1, [], []⟩ := .init rfl
  have hid : nextIdEnv.answers 1 .fetchAddNextId (1 : UInt64) 2 := ⟨rfl, rfl⟩
  have hdenied : nextIdEnv.Answered 2 (deniedHistory transfer 2) 3 :=
    .cons ⟨rfl, rfl⟩ (.cons rfl .nil)
  have hnumbered := (hinit.spawn ⟨listing, rfl⟩).turn (i := 0) rfl hid
  have htransfer := (hnumbered.spawn ⟨transfer, rfl⟩).follow (i := 1) rfl
    (.answered (.answered (.here _))) hdenied
  exact htransfer.turn (i := 0) rfl rfl

/-- The two calls send different identities, which are the first two. -/
theorem rpc_ids_distinct_interleaved :
    ((interleaved.tasks.flatMap Task.invoked).filterMap RpcOp.sentId).Nodup ∧
      ((interleaved.tasks.flatMap Task.invoked).filterMap RpcOp.sentId).Subperm [1, 2] := by
  obtain ⟨-, hsent, hnodup, -⟩ := rpc_ids_distinct reachable_interleaved
  exact ⟨hnodup (by decide), hsent⟩

end Fixture

/-! ### What calls return -/

section

variable [Crates]

/-- A call was answered with this status and a body that could be read. -/
def RpcAnswered (t : Task RpcOp RpcAnswer ClavenarError Value) (status : ℕ) (raw : String) :
    Prop :=
  ∃ post response, ⟨.postMcp post, .ok response⟩ ∈ t.history ∧ response.status = status ∧
    readTextLimited response = .ok raw

/-- A call that returned either never sent its request, or made its result of one answer. -/
theorem RpcRequest.result_of_returned {client : ClavenarClient} {request : RpcRequest}
    {t : Task RpcOp RpcAnswer ClavenarError Value} (hstart : t.start = request.run client)
    (h : t.Consistent) {result : Except ClavenarError Value} (hresult : t.Returned result) :
    (∃ message, result = .error (.invalidConfig message) ∧ ∀ status raw,
      ¬RpcAnswered t status raw) ∨
    ∃ answer, result = rpcResult answer ∧ ∀ status raw, RpcAnswered t status raw ↔
      ∃ response, answer = .ok response ∧ response.status = status ∧
        readTextLimited response = .ok raw := by
  have hreturns := h.returns hresult
  rw [hstart] at hreturns
  have hstage := stage_of_reach hreturns
  generalize hp : Prog.done result = p at hstage
  obtain ⟨start, history, phase⟩ := t
  dsimp only at hstage
  cases hstage with
  | started =>
    rw [request.run_eq] at hp
    cases hp
  | unjoined id error =>
    cases hp
    refine .inl ⟨_, rfl, ?_⟩
    rintro status raw ⟨post, response, hmem, -⟩
    simp at hmem
  | numbered => cases hp
  | answered id post hpost answer =>
    cases hp
    refine .inr ⟨answer, rfl, fun status raw => ⟨?_, ?_⟩⟩
    · rintro ⟨post', response, hmem, hstatus, hread⟩
      obtain ⟨rfl, heq⟩ : post' = post ∧ Except.ok response = answer := by simpa using hmem
      exact ⟨response, heq.symm, hstatus, hread⟩
    · rintro ⟨response, rfl, hstatus, hread⟩
      exact ⟨post, response, by simp, hstatus, hread⟩

/-- A body is decoded to the value of the document that it is parsed to. -/
theorem decodeJsonBody_eq_ok_iff {raw : String} {value : Value} :
    decodeJsonBody raw = .ok value ↔ ∃ j, parseJson raw = .ok j ∧ value = .ofJson j := by
  simp only [decodeJsonBody, fromStr_eq_ok_iff, value_fromJson_eq_ok_iff, eq_comm (a := value)]

/-- A veto is reported exactly for a forbidden request whose body is read as a denial. -/
theorem rpcOutcome_eq_veto_iff {status : ℕ} {text raw : String} {denial : DenyResponse} :
    rpcOutcome status text = .error (denial.veto raw) ↔
      status = 403 ∧ text = raw ∧ denial.ReadFrom raw := by
  rw [← parseVeto_eq_veto_iff]
  have hdecode : decodeJsonBody text ≠ .error (denial.veto raw) := by
    intro h
    unfold decodeJsonBody fromStr at h
    cases hread : (parseJson text >>= fromJson : Except DecodeError Value) <;>
      simp [hread, Except.mapError, DenyResponse.veto] at h
  unfold rpcOutcome
  split_ifs with h200 h403 <;> simp_all [DenyResponse.veto]

/-- A value is returned exactly for a success whose body can be parsed. -/
theorem rpcOutcome_eq_ok_iff {status : ℕ} {text : String} {value : Value} :
    rpcOutcome status text = .ok value ↔
      status = 200 ∧ ∃ j, parseJson text = .ok j ∧ value = .ofJson j := by
  rw [← decodeJsonBody_eq_ok_iff]
  unfold rpcOutcome
  split_ifs with h200 <;> simp [h200]

/-- What holds of the outcome holds of the result, for an answer that can be read. -/
theorem rpcResult_eq_iff {answer : Except String Response} {result : Except ClavenarError Value}
    (htransport : ∀ error, result ≠ .error (.transport error))
    (hread : ∀ response error, readTextLimited response = .error error → result ≠ .error error) :
    rpcResult answer = result ↔ ∃ response text, answer = .ok response ∧
      readTextLimited response = .ok text ∧ rpcOutcome response.status text = result := by
  cases answer with
  | error error => simpa [rpcResult] using (htransport error).symm
  | ok response =>
    simp only [rpcResult, Except.ok.injEq, exists_eq_left', exists_and_left]
    cases htext : readTextLimited response with
    | error error => simpa using (hread response error htext).symm
    | ok text => simp

/-- A call ends in a veto exactly if the server answered 403 with a body that can be read. The
veto has the fields of the denial in that body, whatever members the denial does not know and in
whatever order, and no fields if there is no denial in it; the body is kept as it is. A call
returns a value exactly if the server answered 200 with that value. -/
theorem rpc_veto_iff {client : ClavenarClient} {c : Sys UInt64 RpcOp RpcAnswer ClavenarError Value}
    (h : c.Reachable nextIdEnv (IsRpcCall client)) {t : Task RpcOp RpcAnswer ClavenarError Value}
    (ht : t ∈ c.tasks) {result : Except ClavenarError Value} (hresult : t.Returned result) :
    (∀ (denial : DenyResponse) raw, result = .error (denial.veto raw) ↔
      RpcAnswered t 403 raw ∧ denial.ReadFrom raw) ∧
    (∀ value, result = .ok value ↔ ∃ raw, RpcAnswered t 200 raw ∧
      ∃ j, parseJson raw = .ok j ∧ value = .ofJson j) ∧
    ∀ raw raw' members members', parseJson raw = .ok (.object members) →
      parseJson raw' = .ok (.object members') →
      (members.filter fun m => m.1 ∈ DenyResponse.names).Perm
        (members'.filter fun m => m.1 ∈ DenyResponse.names) →
      ∀ denial : DenyResponse, denial.ReadFrom raw ↔ denial.ReadFrom raw' := by
  obtain ⟨⟨request, hstart⟩, hconsistent⟩ := h.consistent t ht
  refine ⟨fun denial raw => ?_, fun value => ?_,
    fun raw raw' members members' hparse hparse' hperm =>
      DenyResponse.readFrom_congr hparse hparse' hperm⟩
  · obtain ⟨message, rfl, hnone⟩ | ⟨answer, rfl, hanswered⟩ :=
      request.result_of_returned hstart hconsistent hresult
    · simp [hnone, DenyResponse.veto]
    · have htransport : ∀ error, Except.error (denial.veto raw) ≠
          (.error (.transport error) : Except ClavenarError Value) := by simp [DenyResponse.veto]
      have hread : ∀ response error, readTextLimited response = .error error →
          Except.error (denial.veto raw) ≠ (.error error : Except ClavenarError Value) := by
        rintro response error hread heq
        exact readTextLimited_ne_veto (hread.trans (congrArg _ (Except.error.inj heq).symm))
      rw [rpcResult_eq_iff htransport hread]
      simp only [rpcOutcome_eq_veto_iff, hanswered]
      grind
  · obtain ⟨message, rfl, hnone⟩ | ⟨answer, rfl, hanswered⟩ :=
      request.result_of_returned hstart hconsistent hresult
    · simp [hnone]
    · rw [rpcResult_eq_iff (by simp) (by simp)]
      simp only [rpcOutcome_eq_ok_iff, hanswered]
      grind

end

namespace Fixture

attribute [local instance] denialCrates

/-- The denial of a dangerous tool is reported as a veto. -/
theorem rpc_veto_iff_denied :
    rpcResult (.ok (.ofText 403 denied.text)) =
      .error (.veto "DangerousTool" ["Direct execution is prohibited."] [] none denied.text) := by
  have hread : readTextLimited (.ofText 403 denied.text) = .ok denied.text :=
    readTextLimited_ofText (length_utf8Bytes_text_le (by decide +kernel))
  have hknown : Knows DenyResponse.names denied [("intent_category", .string "DangerousTool"),
      ("reasons", .array [.string "Direct execution is prohibited."])] :=
    .inl ⟨_, rfl, by decide, by decide⟩
  have hdenial : DenyResponse.ReadFrom
      ⟨["Direct execution is prohibited."], [], "DangerousTool", none⟩ denied.text := by
    refine .inl ⟨denied, _, parseJson_cratesOn (find?_text_head _ _), hknown, ?_⟩
    exact ⟨.inl (by decide), .inr ⟨by decide, rfl⟩, .inl (by decide), .inr ⟨by decide, rfl⟩⟩
  have hanswered : RpcAnswered deniedTask 403 denied.text :=
    ⟨posted transfer 2, _, by simp [deniedTask, deniedHistory], rfl, hread⟩
  have hreturned : deniedTask.Returned (rpcResult (.ok (.ofText 403 denied.text))) := rfl
  exact ((rpc_veto_iff reachable_interleaved (by simp [interleaved]) hreturned).1 _ _).mpr
    ⟨hanswered, hdenial⟩

end Fixture

end ClavenarSdk
