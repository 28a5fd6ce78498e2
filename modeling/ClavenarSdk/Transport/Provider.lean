import ClavenarSdk.Interaction.Cells
import ClavenarSdk.Interaction.Handler
import ClavenarSdk.Transport.Load

/-!
# Requests during rotations

The providers of `http.rs` over a profile of `secure_transport.rs`. The files of a profile are
rotated while it is in use. Requests go on meanwhile, each through the client that is current
when it starts.
-/

namespace ClavenarSdk

open Interaction

section

variable [Reqwest]

/-! ### Providers -/

/-- `HttpProvider::client`. -/
def HttpProvider.client : HttpProvider → TransportCall Client
  | staticHttpClient client => pure client
  | secureTransportProfile => .await .current fun client => .done (.ok client)

/-- `install_process_http_provider`. -/
def installProcessHttpProvider (provider : HttpProvider) : TransportCall Unit :=
  .await (.setProvider provider) fun
    | true => pure ()
    | false => .fail (.invalidConfig "process HTTP provider is already installed")

/-- The client without a provider: five seconds to connect, thirty for a request. -/
def defaultClient : Client :=
  ⟨true, none, none, 5 * 10 ^ 9, 30 * 10 ^ 9, none, .system⟩

/-- `default_provider`. -/
def defaultProvider : TransportCall HttpProvider :=
  .await .getProvider fun
    | some provider => pure provider
    | none => .await (.build defaultClient) fun
      | .error error => .fail (.transport error)
      | .ok () => pure (.staticHttpClient defaultClient)

/-- Requests of a service client, one after the other. -/
def sendAll (provider : HttpProvider) : List PostRequest → TransportCall Unit
  | [] => pure ()
  | request :: requests => do
    let client ← provider.client
    .await (.send client request) fun _ => sendAll provider requests

/-- A service client is made with the default provider, or is given another one, and sends its
requests. -/
def session (given : Option HttpProvider) (requests : List PostRequest) : TransportCall Unit := do
  let provider ← defaultProvider
  sendAll (given.getD provider) requests

/-- Where a service client takes the client for its next request from: a fixed one, or the
profile, which it has just asked. -/
def HttpProvider.Gives (provider : HttpProvider) (history : List (Event TransportAnswer))
    (client : Client) : Prop :=
  provider = .staticHttpClient client ∨
    (provider = .secureTransportProfile ∧ history.getLast? = some ⟨.current, client⟩)

/-- A provider gives a client whatever happened before. -/
theorem HttpProvider.Gives.append {provider : HttpProvider} {client : Client}
    {history : List (Event TransportAnswer)} (h : provider.Gives history client)
    (before : List (Event TransportAnswer)) : provider.Gives (before ++ history) client := by
  obtain h | ⟨h, hlast⟩ := h
  · exact .inl h
  · exact .inr ⟨h, by rw [List.getLast?_append, hlast]; rfl⟩

/-- A provider returns its own client, or asks the profile for the current one. -/
theorem client_returns_iff {provider : HttpProvider} {client : Client}
    {history : List (Event TransportAnswer)} :
    provider.client.Returns history (.ok client) ↔
      (provider = .staticHttpClient client ∧ history = []) ∨
        (provider = .secureTransportProfile ∧ history = [⟨.current, client⟩]) := by
  cases provider with
  | staticHttpClient held =>
    rw [HttpProvider.client, Prog.pure_eq_done, Prog.returns_done_iff]
    simp [and_comm, eq_comm]
  | secureTransportProfile =>
    rw [HttpProvider.client, Prog.returns_await_iff]
    simp

/-- Every request is sent through the client that the provider gave for it. -/
theorem gives_of_invokes_send {provider : HttpProvider} {requests : List PostRequest}
    {history : List (Event TransportAnswer)} {client : Client} {request : PostRequest}
    (h : (sendAll provider requests).Invokes history (.send client request)) :
    provider.Gives history client ∧ request ∈ requests := by
  induction requests generalizing history with
  | nil => exact absurd h Prog.not_invokes_done
  | cons next requests ih =>
    obtain hclient | ⟨first, rest, held, rfl, hheld, hsend⟩ := Prog.invokes_bind_iff.mp h
    · cases provider with
      | staticHttpClient => exact absurd hclient Prog.not_invokes_done
      | secureTransportProfile =>
        obtain ⟨-, heq⟩ | ⟨_, _, -, hdone⟩ := Prog.invokes_await_iff.mp hclient
        · cases heq
        · exact absurd hdone Prog.not_invokes_done
    · obtain ⟨rfl, heq⟩ | ⟨response, rest, rfl, hrest⟩ := Prog.invokes_await_iff.mp hsend
      · cases heq
        rw [List.append_nil]
        refine ⟨?_, List.mem_cons_self⟩
        obtain ⟨rfl, -⟩ | ⟨rfl, rfl⟩ := client_returns_iff.mp hheld
        · exact .inl rfl
        · exact .inr ⟨rfl, rfl⟩
      · obtain ⟨hgives, hmem⟩ := ih hrest
        rw [← List.singleton_append, ← List.append_assoc]
        exact ⟨hgives.append _, List.mem_cons_of_mem _ hmem⟩

/-- An operation of a service client. -/
def TransportOp.Serves : TransportOp → Prop
  | .getProvider | .build _ | .current | .send _ _ => True
  | _ => False

/-- Sending requests is all that a service client does with its provider. -/
theorem only_sendAll (provider : HttpProvider) (requests : List PostRequest) :
    (sendAll provider requests).Only TransportOp.Serves := by
  induction requests with
  | nil => exact Prog.only_done _
  | cons request requests ih =>
    refine Prog.Only.bind ?_ fun client => Prog.only_await trivial fun _ => ih
    cases provider with
    | staticHttpClient client => exact Prog.only_done _
    | secureTransportProfile => exact Prog.only_await trivial fun _ => Prog.only_done _

/-- Looking for the default provider publishes nothing. -/
theorem only_defaultProvider : defaultProvider.Only TransportOp.Serves := by
  refine Prog.only_await trivial fun provider => ?_
  cases provider with
  | some provider => exact Prog.only_done _
  | none =>
    refine Prog.only_await trivial fun built => ?_
    cases built <;> exact Prog.only_done _

/-- Nor does a whole session. -/
theorem only_session (given : Option HttpProvider) (requests : List PostRequest) :
    (session given requests).Only TransportOp.Serves :=
  only_defaultProvider.bind fun _ => only_sendAll _ _

/-- The provider of a service client: the one that it is given, or the one that was installed
when it was made, or its own. -/
def sessionProvider (given answer : Option HttpProvider) : HttpProvider :=
  given.getD (answer.getD (.staticHttpClient defaultClient))

/-- The default provider is the one of the process, if it has one, and otherwise the default client.
-/
theorem defaultProvider_returns_ok {history : List (Event TransportAnswer)}
    {provider : HttpProvider} (h : defaultProvider.Returns history (.ok provider)) :
    ∃ answer rest, history = ⟨.getProvider, answer⟩ :: rest ∧
      provider = answer.getD (.staticHttpClient defaultClient) := by
  obtain ⟨answer, rest, rfl, hrest⟩ := Prog.returns_await_iff.mp h
  refine ⟨answer, rest, rfl, ?_⟩
  cases answer with
  | some held =>
    obtain ⟨-, heq⟩ := Prog.returns_done_iff.mp hrest
    exact Except.ok.inj heq
  | none =>
    obtain ⟨built, rest, rfl, hbuilt⟩ := Prog.returns_await_iff.mp hrest
    cases built with
    | error error => cases (Prog.returns_done_iff.mp hbuilt).2
    | ok =>
      obtain ⟨-, heq⟩ := Prog.returns_done_iff.mp hbuilt
      exact Except.ok.inj heq

/-- A service client asks for its provider first, and every request is one of its own, sent
through the client that the provider gave for it. -/
theorem session_invokes_send {given : Option HttpProvider} {requests : List PostRequest}
    {history : List (Event TransportAnswer)} {client : Client} {request : PostRequest}
    (h : (session given requests).Invokes history (.send client request)) :
    ∃ answer rest, history = ⟨.getProvider, answer⟩ :: rest ∧
      (sessionProvider given answer).Gives history client ∧ request ∈ requests := by
  obtain hdefault | ⟨first, rest, provider, rfl, hprovider, hsend⟩ := Prog.invokes_bind_iff.mp h
  · obtain ⟨-, heq⟩ | ⟨answer, rest, rfl, hrest⟩ := Prog.invokes_await_iff.mp hdefault
    · cases heq
    · cases answer with
      | some held => exact absurd hrest Prog.not_invokes_done
      | none =>
        obtain ⟨-, heq⟩ | ⟨built, rest, rfl, hbuilt⟩ := Prog.invokes_await_iff.mp hrest
        · cases heq
        · cases built <;> exact absurd hbuilt Prog.not_invokes_done
  · obtain ⟨answer, begun, rfl, rfl⟩ := defaultProvider_returns_ok hprovider
    obtain ⟨hgives, hmem⟩ := gives_of_invokes_send hsend
    exact ⟨answer, begun ++ rest, rfl, hgives.append _, hmem⟩

/-! ### Runs -/

/-- The current client of the profile and the provider of the process. -/
structure TransportState where
  current : Client
  processProvider : Option HttpProvider

/-- The surroundings of a process after `SecureTransportProfile::new`. Files, callbacks, builds
and servers answer anything. -/
def transportEnv (config : SecureTransportConfig) : Env TransportState TransportAnswer where
  init s := s.processProvider = none ∧
    ∃ history, (buildClient config).Returns history (.ok s.current)
  answers
    | s, .publish client, written, s' => s' = if written then { s with current := client } else s
    | s, .current, client, s' => client = s.current ∧ s' = s
    | s, .setProvider provider, set, s' => set = s.processProvider.isNone ∧
      s' = { s with processProvider := some (s.processProvider.getD provider) }
    | s, .getProvider, provider, s' => provider = s.processProvider ∧ s' = s
    | s, _, _, s' => s' = s
  drift s s' := s' = s

/-- The calls that a process makes. -/
def IsTransportCall (config : SecureTransportConfig) (p : TransportCall Unit) : Prop :=
  p = reload config ∨ (∃ provider, p = installProcessHttpProvider provider) ∨
    ∃ given requests, p = session given requests

/-- The client that an answer has published. -/
def published : Event TransportAnswer → Option Client
  | ⟨.publish client, true⟩ => some client
  | _ => none

/-- The provider that an answer has installed. -/
def installed : Event TransportAnswer → Option HttpProvider
  | ⟨.setProvider provider, true⟩ => some provider
  | _ => none

/-- A client is published by a write that succeeds. -/
theorem published_eq_some_iff {event : Event TransportAnswer} {client : Client} :
    published event = some client ↔ event = ⟨.publish client, true⟩ := by
  obtain ⟨op, answer⟩ := event
  cases op with
  | publish client' =>
    cases answer with
    | true => simp [published, eq_comm]
    | false => simp [published]
  | _ => simp [published]

/-- An answer changes the current client only by publishing one. -/
theorem current_answered {config : SecureTransportConfig} (s : TransportState)
    (event : Event TransportAnswer) (s' : TransportState)
    (h : (transportEnv config).answers s event.1 event.2 s') :
    s'.current = (published event).getD s.current := by
  obtain ⟨op, answer⟩ := event
  cases op with
  | publish client =>
    obtain rfl : s' = if answer then { s with current := client } else s := h
    cases answer <;> rfl
  | setProvider | current | getProvider =>
    obtain ⟨-, rfl⟩ := h
    rfl
  | readFile | tokenCallback | build | send =>
    obtain rfl : s' = s := h
    rfl

/-- An answer changes the provider of the process only by installing one. -/
theorem processProvider_answered {config : SecureTransportConfig} (s : TransportState)
    (event : Event TransportAnswer) (s' : TransportState)
    (h : (transportEnv config).answers s event.1 event.2 s') :
    s'.processProvider = ((installed event).map some).getD s.processProvider := by
  obtain ⟨op, answer⟩ := event
  cases op with
  | publish client =>
    obtain rfl : s' = if answer then { s with current := client } else s := h
    cases answer <;> rfl
  | setProvider provider =>
    obtain ⟨hset, rfl⟩ := h
    obtain ⟨current, processProvider⟩ := s
    cases processProvider with
    | none =>
      obtain rfl : answer = true := hset
      rfl
    | some held =>
      obtain rfl : answer = false := hset
      rfl
  | current | getProvider =>
    obtain ⟨-, rfl⟩ := h
    rfl
  | readFile | tokenCallback | build | send =>
    obtain rfl : s' = s := h
    rfl

/-- The current client changes only by publishing. -/
def currentCell (config : SecureTransportConfig) : Cell (transportEnv config) Client where
  get := TransportState.current
  written := published
  answered := current_answered
  drifted _ _ h := congrArg TransportState.current h

/-- The provider of the process changes only by installing one. -/
def providerCell (config : SecureTransportConfig) :
    Cell (transportEnv config) (Option HttpProvider) where
  get := TransportState.processProvider
  written event := (installed event).map some
  answered := processProvider_answered
  drifted _ _ h := congrArg TransportState.processProvider h

/-- What reloads publish and clients send, in the calls of a process. -/
theorem IsTransportCall.reload_of_invokes {config : SecureTransportConfig} {p : TransportCall Unit}
    (h : IsTransportCall config p) {history : List (Event TransportAnswer)} {client : Client}
    (hinvokes : p.Invokes history (.publish client)) : p = reload config := by
  obtain rfl | ⟨provider, rfl⟩ | ⟨given, requests, rfl⟩ := h
  · rfl
  · obtain ⟨-, heq⟩ | ⟨set, rest, rfl, hset⟩ := Prog.invokes_await_iff.mp hinvokes
    · cases heq
    · cases set <;> exact absurd hset Prog.not_invokes_done
  · cases only_session given requests _ _ hinvokes

/-- Only a session sends requests. -/
theorem IsTransportCall.session_of_invokes {config : SecureTransportConfig}
    {p : TransportCall Unit} (h : IsTransportCall config p)
    {history : List (Event TransportAnswer)} {client : Client} {request : PostRequest}
    (hinvokes : p.Invokes history (.send client request)) :
    ∃ given requests, p = session given requests := by
  obtain rfl | ⟨provider, rfl⟩ | ⟨given, requests, rfl⟩ := h
  · obtain hbuild | ⟨_, _, _, -, -, hpublish⟩ := Prog.invokes_bind_iff.mp hinvokes
    · cases only_buildClient config _ _ hbuild
    · obtain ⟨-, heq⟩ | ⟨written, _, -, hwritten⟩ := Prog.invokes_await_iff.mp hpublish
      · cases heq
      · cases written <;> exact absurd hwritten Prog.not_invokes_done
  · obtain ⟨-, heq⟩ | ⟨set, rest, rfl, hset⟩ := Prog.invokes_await_iff.mp hinvokes
    · cases heq
    · cases set <;> exact absurd hset Prog.not_invokes_done
  · exact ⟨given, requests, rfl⟩

/-- A request never sees half a rotation. In every run of reloads, installations and service
clients, with files that change at any time, the current client is the one that was published
last, or the initial one; every reader of the profile is given the client that was published last
before; and every published client was made by one reload, of all the contents that this reload
had read. -/
theorem transport_snapshots {config : SecureTransportConfig}
    {c : Sys TransportState TransportOp TransportAnswer ClavenarError Unit}
    (h : c.Reachable (transportEnv config) (IsTransportCall config)) :
    ∃ initial, (∃ contents, config.Loads contents initial) ∧
      c.shared.current = latest published initial c.log ∧
      (∀ before client after, c.log = before ++ ⟨.current, client⟩ :: after →
        client = latest published initial before ∧ ∃ contents, config.Loads contents client) ∧
      ∀ client, ⟨.publish client, true⟩ ∈ c.log → ∃ t ∈ c.tasks, t.start = reload config ∧
        ∃ contents reads, config.Loads contents client ∧ config.Reads contents client reads ∧
          reads <+: t.history := by
  have hpublished : ∀ client, ⟨.publish client, true⟩ ∈ c.log → ∃ t ∈ c.tasks,
      t.start = reload config ∧ ∃ contents reads, config.Loads contents client ∧
        config.Reads contents client reads ∧ reads <+: t.history := by
    intro client hmem
    obtain ⟨t, ht, hop⟩ := h.log_invoked _ hmem
    obtain ⟨hallowed, hconsistent⟩ := h.consistent t ht
    obtain ⟨reads, hprefix, hinvokes⟩ := hconsistent.invokes hop
    have hstart := hallowed.reload_of_invokes hinvokes
    rw [hstart] at hinvokes
    obtain ⟨contents, hloads, hreads⟩ := reads_of_invokes_publish hinvokes
    exact ⟨t, ht, hstart, contents, reads, hloads, hreads, hprefix⟩
  obtain ⟨s, ⟨-, history, hnew⟩, hcurrent, hmet⟩ := h.cell (currentCell config)
  obtain ⟨contents, hinitial, -⟩ := buildClient_returns_iff.mp hnew
  refine ⟨s.current, ⟨contents, hinitial⟩, hcurrent, ?_, hpublished⟩
  intro before client after hlog
  obtain ⟨s', s'', ⟨hclient, -⟩, hheld⟩ := hmet before _ after hlog
  have hlatest : client = latest published s.current before := hclient.trans hheld
  refine ⟨hlatest, ?_⟩
  obtain hfirst | ⟨event, hmem, hevent⟩ := latest_eq_or_mem published s.current before
  · exact ⟨contents, (hlatest.trans hfirst) ▸ hinitial⟩
  · rw [← hlatest, published_eq_some_iff] at hevent
    have hinLog : ⟨.publish client, true⟩ ∈ c.log := by
      rw [hlog, ← hevent]
      exact List.mem_append_left _ hmem
    obtain ⟨-, -, -, contents', -, hloads, -⟩ := hpublished client hinLog
    exact ⟨contents', hloads⟩

end

namespace Fixture

/-- `reqwest` on PEM texts that begin with dashes. -/
@[reducible] def reqwest : Reqwest where
  Certificate := List UInt8
  Identity := List UInt8
  HeaderValue := String
  Proxy := String
  certificateFromPem pem := if pem.take 2 = [45, 45] then .ok pem else .error "no certificate"
  identityFromPem pem := if pem.take 2 = [45, 45] then .ok pem else .error "no identity"
  headerValueFromStr := some
  proxyAll := .ok

attribute [local instance] reqwest

/-- A profile with a token file. -/
def transportConfig : SecureTransportConfig where
  caBundlePath := "ca.pem"
  clientCertificatePath := "client.pem"
  privateKeyPath := "client.key"
  tokenSource := .file "token"
  connectTimeout := 5
  requestTimeout := 30
  proxy := .direct

/-- The files after some rotations. -/
def rotation (n : UInt8) (token : String) : TransportContents :=
  ⟨[45, 45, n, 1], [45, 45, n, 2], [45, 45, n, 3], some token⟩

/-- The client that is made of them. -/
def rotated (n : UInt8) (token : String) : Client :=
  ⟨false, some [45, 45, n, 1], some [45, 45, n, 2, 10, 45, 45, n, 3], 5, 30,
    some ("Bearer " ++ token), .noProxy⟩

/-- The reads of a load. -/
def rotationReads (n : UInt8) (token : String) : List (Event TransportAnswer) :=
  [⟨.readFile "ca.pem", .ok [45, 45, n, 1]⟩, ⟨.readFile "client.pem", .ok [45, 45, n, 2]⟩,
    ⟨.readFile "client.key", .ok [45, 45, n, 3]⟩, ⟨.readFile "token", .ok (utf8Bytes token)⟩,
    ⟨.build (rotated n token), .ok ()⟩]

/-- A client is built of the files of a rotation and of its token. -/
theorem rotation_returns (n : UInt8) (token : String) (hne : token ≠ "")
    (htrim : trim token = token) : (buildClient transportConfig).Returns (rotationReads n token)
      (.ok (rotated n token)) := by
  have hbytes : utf8Bytes token ≠ [] := by
    intro h
    have hread := textOfUtf8_utf8Bytes token
    rw [h] at hread
    exact hne (Option.some.inj hread).symm
  refine buildClient_returns_iff.mpr ⟨rotation n token, ⟨by decide, by simp [rotation],
    ⟨_, rfl, rfl⟩, ⟨_, ?_, rfl⟩, ?_, rfl, rfl, rfl, rfl⟩, _,
    .file "token" (utf8Bytes token) token hbytes (textOfUtf8_utf8Bytes token), rfl⟩
  · rfl
  · exact ⟨by rwa [htrim], _, rfl, by rw [htrim]; rfl⟩

/-- A request. -/
def ping : PostRequest := ⟨"http://127.0.0.1:54321/ping", [], none, .null⟩

/-- A service client of the profile that sends two requests. -/
def pings : TransportCall Unit := session (some .secureTransportProfile) [ping, ping]

/-- What it does before the files are rotated: it takes the client for its first request. -/
def beforeRotation : List (Event TransportAnswer) :=
  [⟨.getProvider, none⟩, ⟨.build defaultClient, .ok ()⟩, ⟨.current, rotated 1 "first"⟩]

/-- What it does afterwards. -/
def afterRotation : List (Event TransportAnswer) :=
  [⟨.send (rotated 1 "first") ping, .ok (.ofText 200 "pong")⟩, ⟨.current, rotated 2 "second"⟩,
    ⟨.send (rotated 2 "second") ping, .ok (.ofText 200 "pong")⟩]

/-- The rotation. -/
def rotating : List (Event TransportAnswer) :=
  rotationReads 2 "second" ++ [⟨.publish (rotated 2 "second"), true⟩]

/-- The files are rotated while the first request is on its way. -/
def rotatedMidway : Sys TransportState TransportOp TransportAnswer ClavenarError Unit where
  shared := ⟨rotated 2 "second", none⟩
  tasks := [⟨pings, beforeRotation ++ afterRotation, .ready (.done (.ok ()))⟩,
    ⟨reload transportConfig, rotating, .ready (.done (.ok ()))⟩]
  log := beforeRotation ++ rotating ++ afterRotation

/-- The state after a rotation in the middle of a session is reachable. -/
theorem reachable_rotatedMidway :
    rotatedMidway.Reachable (transportEnv transportConfig) (IsTransportCall transportConfig) := by
  have hfirst := rotation_returns 1 "first" (by decide) (trim_of_forall (by simp [isWhiteSpace]))
  have hsecond := rotation_returns 2 "second" (by decide)
    (trim_of_forall (by simp [isWhiteSpace]))
  have hreload : (reload transportConfig).Returns rotating (.ok ()) :=
    Prog.returns_bind_ok_iff.mpr ⟨_, _, _, rfl, hsecond, publish_returns_iff.mpr (.inl ⟨rfl, rfl⟩)⟩
  have hinit : Sys.Reachable (transportEnv transportConfig) (IsTransportCall transportConfig)
      ⟨⟨rotated 1 "first", none⟩, [], []⟩ := .init ⟨rfl, _, hfirst⟩
  have hpings : pings.Reach beforeRotation (.await (.send (rotated 1 "first") ping) fun _ =>
      sendAll .secureTransportProfile [ping]) := .answered (.answered (.answered (.here _)))
  have hbegun := hinit.spawn (.inr (.inr ⟨some .secureTransportProfile, [ping, ping], rfl⟩))
  have hbefore := hbegun.follow (i := 0) rfl hpings
    (.cons ⟨rfl, rfl⟩ (.cons rfl (.cons ⟨rfl, rfl⟩ .nil)))
  have hrotated := (hbefore.spawn (.inl rfl)).follow (i := 1) rfl hreload
    (.cons rfl (.cons rfl (.cons rfl (.cons rfl (.cons rfl (.cons rfl .nil))))))
  exact hrotated.follow (i := 0) rfl (.answered (.answered (.answered (.here _))))
    (.cons rfl (.cons ⟨rfl, rfl⟩ (.cons rfl .nil)))

/-- After the rotation the current client is the one that was published last, built of the rotated
files. -/
theorem transport_snapshots_midway :
    ∃ initial, rotatedMidway.shared.current = latest published initial rotatedMidway.log ∧
      ∃ contents, transportConfig.Loads contents (rotated 2 "second") := by
  obtain ⟨initial, -, hcurrent, -, hpublished⟩ := transport_snapshots reachable_rotatedMidway
  have hmem : ⟨.publish (rotated 2 "second"), true⟩ ∈ rotatedMidway.log := by
    simp [rotatedMidway, rotating]
  obtain ⟨t, -, -, contents, -, hloads, -⟩ := hpublished (rotated 2 "second") hmem
  exact ⟨initial, hcurrent, contents, hloads⟩

end Fixture

end ClavenarSdk
