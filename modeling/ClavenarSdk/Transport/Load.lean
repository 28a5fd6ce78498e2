import ClavenarSdk.Http
import ClavenarSdk.Interaction.Prog
import ClavenarSdk.Ledger

/-!
# Loading a transport profile

`secure_transport.rs`. A profile is loaded from files and a token source: everything is read and
checked before a client is built and published.
-/

namespace ClavenarSdk

open Interaction

/-! ### Clients -/

/-- What the transport uses of `reqwest`, with the errors that it displays. -/
class Reqwest where
  /-- A CA certificate. -/
  Certificate : Type
  /-- A client certificate with its key. -/
  Identity : Type
  /-- The value of a header. -/
  HeaderValue : Type
  /-- A proxy. -/
  Proxy : Type
  /-- `Certificate::from_pem`. -/
  certificateFromPem : List UInt8 → Except String Certificate
  /-- `Identity::from_pem`. -/
  identityFromPem : List UInt8 → Except String Identity
  /-- `HeaderValue::from_str`. -/
  headerValueFromStr : String → Option HeaderValue
  /-- `Proxy::all`. -/
  proxyAll : String → Except String Proxy

export Reqwest (certificateFromPem identityFromPem headerValueFromStr proxyAll)

/-- `TokenSource`. -/
inductive TokenSource where
  | none
  | file (path : String)
  | callback

/-- `ProxyPolicy`. -/
inductive ProxyPolicy where
  | direct
  | environment
  | explicit (url : String)

/-- `SecureTransportConfig`. Durations are counted in nanoseconds. -/
structure SecureTransportConfig where
  caBundlePath : String
  clientCertificatePath : String
  privateKeyPath : String
  tokenSource : TokenSource
  connectTimeout : ℕ
  requestTimeout : ℕ
  proxy : ProxyPolicy

section

variable [Reqwest]

/-- The proxies of a client: none, those of the environment, or one. -/
inductive ClientProxy where
  | noProxy
  | system
  | all (proxy : Reqwest.Proxy)

/-- A `reqwest::Client`, as its builder configured it. -/
structure Client where
  builtInRoots : Bool
  root : Option Reqwest.Certificate
  identity : Option Reqwest.Identity
  connectTimeout : ℕ
  timeout : ℕ
  authorization : Option Reqwest.HeaderValue
  proxy : ClientProxy

/-- An `HttpProvider`: a `StaticHttpClient` or the profile. -/
inductive HttpProvider where
  | staticHttpClient (client : Client)
  | secureTransportProfile

/-- What a transport call does to its surroundings. -/
inductive TransportOp where
  /-- `std::fs::read`. -/
  | readFile (path : String)
  /-- The callback of the token source. -/
  | tokenCallback
  /-- `ClientBuilder::build`. -/
  | build (client : Client)
  /-- Write the current client. -/
  | publish (client : Client)
  /-- Read the current client. -/
  | current
  /-- `PROCESS_HTTP_PROVIDER.set`. -/
  | setProvider (provider : HttpProvider)
  /-- `PROCESS_HTTP_PROVIDER.get`. -/
  | getProvider
  /-- Send a request through a client. -/
  | send (client : Client) (request : PostRequest)

/-- The answers. The lock of the current client is written unless it is poisoned. -/
@[reducible] def TransportAnswer : TransportOp → Type
  | .readFile _ => Except String (List UInt8)
  | .tokenCallback => Except ClavenarError (Option String)
  | .build _ => Except String Unit
  | .publish _ => Bool
  | .current => Client
  | .setProvider _ => Bool
  | .getProvider => Option HttpProvider
  | .send _ _ => Except String Response

/-- A call that uses the transport. -/
abbrev TransportCall (α : Type) : Type := Prog TransportOp TransportAnswer ClavenarError α

/-! ### Loading -/

/-- `read_nonempty`. -/
def readNonempty (path label : String) : TransportCall (List UInt8) :=
  .await (.readFile path) fun
    | .error error => .fail (.invalidConfig s!"cannot read {label} {path}: {error}")
    | .ok bytes =>
      if bytes = [] then .fail (.invalidConfig s!"{label} {path} is empty") else .done (.ok bytes)

/-- `invalid_source`. -/
def invalidSource (label path error : String) : ClavenarError :=
  .invalidConfig s!"invalid {label} {path}: {error}"

/-- The token as its source yields it. -/
def TokenSource.acquire : TokenSource → TransportCall (Option String)
  | none => pure Option.none
  | file path => do
    let bytes ← readNonempty path "token"
    match textOfUtf8 bytes with
    | some text => pure (some text)
    | Option.none => .fail (.invalidConfig "token file is not UTF-8")
  | callback => .await .tokenCallback fun answer => .done answer

/-- A token without the blanks around it. -/
def trimToken : Option String → Except ClavenarError (Option String)
  | none => .ok none
  | some value =>
    if trim value = "" then .error (.invalidConfig "token source returned an empty token")
    else .ok (some (trim value))

/-- `load_token`. -/
def loadToken (source : TokenSource) : TransportCall (Option String) := do
  let token ← source.acquire
  .lift (trimToken token)

/-- The certificate and the key as one PEM text. -/
def identityPem (certPem keyPem : List UInt8) : List UInt8 :=
  (if certPem.getLast? = some 10 then certPem else certPem ++ [10]) ++ keyPem

/-- The default header of the token. -/
def authorizationHeader : Option String → Except ClavenarError (Option Reqwest.HeaderValue)
  | none => .ok none
  | some token =>
    match headerValueFromStr ("Bearer " ++ token) with
    | some value => .ok (some value)
    | none => .error (.invalidConfig "token source produced invalid header bytes")

/-- The proxies under a policy. -/
def ProxyPolicy.resolve : ProxyPolicy → Except ClavenarError ClientProxy
  | direct => .ok .noProxy
  | environment => .ok .system
  | explicit url =>
    match proxyAll url with
    | .ok proxy => .ok (.all proxy)
    | .error error => .error (.invalidConfig s!"invalid explicit proxy URL: {error}")

/-- `build_client`. -/
def buildClient (config : SecureTransportConfig) : TransportCall Client :=
  if config.connectTimeout = 0 ∨ config.requestTimeout = 0 then
    .fail (.invalidConfig "secure transport timeouts must be positive")
  else do
    let caPem ← readNonempty config.caBundlePath "CA bundle"
    let certPem ← readNonempty config.clientCertificatePath "client certificate"
    let keyPem ← readNonempty config.privateKeyPath "private key"
    let root ← .lift ((certificateFromPem caPem).mapError
      (invalidSource "CA bundle" config.caBundlePath))
    let identity ← .lift ((identityFromPem (identityPem certPem keyPem)).mapError
      (invalidSource "client identity" config.clientCertificatePath))
    let token ← loadToken config.tokenSource
    let authorization ← .lift (authorizationHeader token)
    let proxy ← .lift config.proxy.resolve
    let client := ⟨false, some root, some identity, config.connectTimeout, config.requestTimeout,
      authorization, proxy⟩
    .await (.build client) fun
      | .error error => .fail (.transport error)
      | .ok () => .done (.ok client)

/-- `SecureTransportProfile::reload`. -/
def reload (config : SecureTransportConfig) : TransportCall Unit := do
  let replacement ← buildClient config
  .await (.publish replacement) fun
    | false => .fail (.invalidConfig "transport profile lock poisoned")
    | true => pure ()

/-- What one load of a profile has read. The token is as its source yielded it. -/
structure TransportContents where
  caPem : List UInt8
  certPem : List UInt8
  keyPem : List UInt8
  token : Option String

/-- A source yields a token with this history. -/
inductive TokenSource.Yields :
    TokenSource → Option String → List (Event TransportAnswer) → Prop where
  | none : Yields .none Option.none []
  | file (path : String) (bytes : List UInt8) (text : String) (hne : bytes ≠ [])
      (htext : textOfUtf8 bytes = some text) :
      Yields (.file path) (some text) [⟨.readFile path, .ok bytes⟩]
  | callback (token : Option String) : Yields .callback token [⟨.tokenCallback, .ok token⟩]

/-- The header that goes with a token, if there is a token. -/
def IsBearer : Option String → Option Reqwest.HeaderValue → Prop
  | none, authorization => authorization = none
  | some token, authorization => trim token ≠ "" ∧
    ∃ value, headerValueFromStr ("Bearer " ++ trim token) = some value ∧ authorization = some value

namespace SecureTransportConfig

/-- The client is made of these contents, and of all of them. -/
structure Loads (config : SecureTransportConfig) (contents : TransportContents)
    (client : Client) : Prop where
  timeouts_pos : 0 < config.connectTimeout ∧ 0 < config.requestTimeout
  contents_ne : contents.caPem ≠ [] ∧ contents.certPem ≠ [] ∧ contents.keyPem ≠ []
  root : ∃ root, certificateFromPem contents.caPem = .ok root ∧ client.root = some root
  identity : ∃ identity, identityFromPem (identityPem contents.certPem contents.keyPem) =
    .ok identity ∧ client.identity = some identity
  authorization : IsBearer contents.token client.authorization
  proxy : config.proxy.resolve = .ok client.proxy
  builtInRoots : client.builtInRoots = false
  timeouts : client.connectTimeout = config.connectTimeout ∧
    client.timeout = config.requestTimeout

/-- The history of a load: every source is read once, and then the client is built. -/
def Reads (config : SecureTransportConfig) (contents : TransportContents) (client : Client)
    (history : List (Event TransportAnswer)) : Prop :=
  ∃ yielded, config.tokenSource.Yields contents.token yielded ∧
    history = ⟨.readFile config.caBundlePath, .ok contents.caPem⟩ ::
      ⟨.readFile config.clientCertificatePath, .ok contents.certPem⟩ ::
      ⟨.readFile config.privateKeyPath, .ok contents.keyPem⟩ ::
      (yielded ++ [⟨.build client, .ok ()⟩])

end SecureTransportConfig

/-- A file is read in one operation, and its bytes are returned unless there are none. -/
theorem readNonempty_returns_iff {path label : String} {history : List (Event TransportAnswer)}
    {bytes : List UInt8} : (readNonempty path label).Returns history (.ok bytes) ↔
      bytes ≠ [] ∧ history = [⟨.readFile path, .ok bytes⟩] := by
  rw [readNonempty, Prog.returns_await_iff]
  constructor
  · rintro ⟨answer, rest, rfl, hrest⟩
    cases answer with
    | error error => cases (Prog.returns_done_iff.mp hrest).2
    | ok read =>
      by_cases hempty : read = []
      · simp only [if_pos hempty] at hrest
        cases (Prog.returns_done_iff.mp hrest).2
      · simp only [if_neg hempty] at hrest
        obtain ⟨rfl, heq⟩ := Prog.returns_done_iff.mp hrest
        obtain rfl := Except.ok.inj heq
        exact ⟨hempty, rfl⟩
  · rintro ⟨hne, rfl⟩
    refine ⟨.ok bytes, [], rfl, ?_⟩
    simp only [if_neg hne]
    exact Prog.returns_done_iff.mpr ⟨rfl, rfl⟩

/-- A lifted value is returned without any operation. -/
theorem lift_returns_iff {α : Type} {value : Except ClavenarError α} {a : α}
    {history : List (Event TransportAnswer)} :
    (Prog.lift value : TransportCall α).Returns history (.ok a) ↔ history = [] ∧ value = .ok a := by
  rw [Prog.lift, Prog.returns_done_iff, eq_comm (a := Except.ok a)]

/-- A source returns what it yields, with the operations of its kind. -/
theorem acquire_returns_iff {source : TokenSource} {history : List (Event TransportAnswer)}
    {token : Option String} :
    source.acquire.Returns history (.ok token) ↔ source.Yields token history := by
  cases source with
  | none =>
    rw [TokenSource.acquire, Prog.pure_eq_done, Prog.returns_done_iff]
    constructor
    · rintro ⟨rfl, h⟩
      cases h
      exact .none
    · rintro ⟨⟩
      exact ⟨rfl, rfl⟩
  | file path =>
    rw [TokenSource.acquire, Prog.returns_bind_ok_iff]
    simp only [readNonempty_returns_iff]
    constructor
    · rintro ⟨first, rest, bytes, rfl, ⟨hne, rfl⟩, hrest⟩
      cases htext : textOfUtf8 bytes with
      | none =>
        simp only [htext] at hrest
        cases (Prog.returns_done_iff.mp hrest).2
      | some text =>
        simp only [htext] at hrest
        obtain ⟨rfl, heq⟩ := Prog.returns_done_iff.mp hrest
        cases heq
        exact .file path bytes text hne htext
    · rintro (_ | ⟨_, bytes, text, hne, htext⟩)
      refine ⟨_, [], bytes, (List.append_nil _).symm, ⟨hne, rfl⟩, ?_⟩
      simp only [htext]
      exact Prog.returns_done_iff.mpr ⟨rfl, rfl⟩
  | callback =>
    rw [TokenSource.acquire, Prog.returns_await_iff]
    constructor
    · rintro ⟨answer, rest, rfl, hrest⟩
      obtain ⟨rfl, rfl⟩ := Prog.returns_done_iff.mp hrest
      exact .callback token
    · rintro ⟨⟩
      exact ⟨.ok token, [], rfl, Prog.returns_done_iff.mpr ⟨rfl, rfl⟩⟩

/-- The header of a client is that of the token, trimmed. -/
theorem isBearer_iff {token : Option String} {authorization : Option Reqwest.HeaderValue} :
    IsBearer token authorization ↔
      ∃ trimmed, trimToken token = .ok trimmed ∧
        authorizationHeader trimmed = .ok authorization := by
  cases token with
  | none => simp [IsBearer, trimToken, authorizationHeader, eq_comm]
  | some raw =>
    by_cases hblank : trim raw = ""
    · simp [IsBearer, trimToken, hblank]
    · simp only [IsBearer, trimToken, hblank, ne_eq, not_false_eq_true, true_and, if_false,
        Except.ok.injEq, exists_eq_left']
      cases hvalue : headerValueFromStr ("Bearer " ++ trim raw) with
      | none => simp [authorizationHeader, hvalue]
      | some value => simp [authorizationHeader, hvalue, eq_comm]

/-- A client is returned as it was configured, once it can be built. -/
theorem build_returns_iff {client client' : Client} {history : List (Event TransportAnswer)} :
    (Prog.await (TransportOp.build client) fun
      | .error error => .fail (.transport error)
      | .ok () => .done (.ok client) : TransportCall Client).Returns history (.ok client') ↔
      client' = client ∧ history = [⟨.build client, .ok ()⟩] := by
  rw [Prog.returns_await_iff]
  constructor
  · rintro ⟨answer, rest, rfl, hrest⟩
    cases answer with
    | error error => cases (Prog.returns_done_iff.mp hrest).2
    | ok =>
      obtain ⟨rfl, heq⟩ := Prog.returns_done_iff.mp hrest
      exact ⟨Except.ok.inj heq, rfl⟩
  · rintro ⟨rfl, rfl⟩
    exact ⟨.ok (), [], rfl, Prog.returns_done_iff.mpr ⟨rfl, rfl⟩⟩

/-- A profile is loaded exactly if every source was read and all of them are good. -/
theorem buildClient_returns_iff {config : SecureTransportConfig} {client : Client}
    {history : List (Event TransportAnswer)} :
    (buildClient config).Returns history (.ok client) ↔
      ∃ contents, config.Loads contents client ∧ config.Reads contents client history := by
  unfold buildClient
  by_cases hzero : config.connectTimeout = 0 ∨ config.requestTimeout = 0
  · rw [if_pos hzero, Prog.fail, Prog.returns_done_iff]
    constructor
    · rintro ⟨-, h⟩
      cases h
    · rintro ⟨contents, hloads, -⟩
      have hpos := hloads.timeouts_pos
      omega
  rw [if_neg hzero]
  simp only [Prog.returns_bind_ok_iff, readNonempty_returns_iff, lift_returns_iff, loadToken,
    acquire_returns_iff, build_returns_iff, mapError_eq_ok_iff]
  constructor
  · rintro ⟨_, _, caPem, rfl, ⟨hca, rfl⟩, _, _, certPem, rfl, ⟨hcert, rfl⟩, _, _, keyPem, rfl,
      ⟨hkey, rfl⟩, _, _, root, rfl, ⟨rfl, hroot⟩, _, _, identity, rfl, ⟨rfl, hidentity⟩, _, _,
      trimmed, rfl, ⟨yielded, _, token, rfl, hyields, rfl, htrim⟩, _, _, authorization, rfl,
      ⟨rfl, hauthorization⟩, _, _, proxy, rfl, ⟨rfl, hproxy⟩, rfl, rfl⟩
    refine ⟨⟨caPem, certPem, keyPem, token⟩, ⟨by omega, ⟨hca, hcert, hkey⟩, ⟨root, hroot, rfl⟩,
      ⟨identity, hidentity, rfl⟩, isBearer_iff.mpr ⟨trimmed, htrim, hauthorization⟩, hproxy, rfl,
      rfl, rfl⟩, yielded, hyields, ?_⟩
    simp
  · rintro ⟨contents, hloads, yielded, hyields, rfl⟩
    obtain ⟨root, hroot, hclientRoot⟩ := hloads.root
    obtain ⟨identity, hidentity, hclientIdentity⟩ := hloads.identity
    obtain ⟨trimmed, htrim, hauthorization⟩ := isBearer_iff.mp hloads.authorization
    obtain ⟨hca, hcert, hkey⟩ := hloads.contents_ne
    have hclient : client = ⟨false, some root, some identity, config.connectTimeout,
        config.requestTimeout, client.authorization, client.proxy⟩ := by
      obtain ⟨builtInRoots, _, _, connectTimeout, timeout, authorization, proxy⟩ := client
      obtain ⟨rfl, rfl⟩ := hloads.timeouts
      obtain rfl := hloads.builtInRoots
      obtain rfl := hclientRoot
      obtain rfl := hclientIdentity
      rfl
    refine ⟨[_], _, contents.caPem, rfl, ⟨hca, rfl⟩, [_], _, contents.certPem, rfl, ⟨hcert, rfl⟩,
      [_], _, contents.keyPem, rfl, ⟨hkey, rfl⟩, [], _, root, rfl, ⟨rfl, hroot⟩, [], _, identity,
      rfl, ⟨rfl, hidentity⟩, yielded, _, trimmed, rfl, ?_, [], _, client.authorization, rfl,
      ⟨rfl, hauthorization⟩, [], _, client.proxy, rfl, ⟨rfl, hloads.proxy⟩, hclient, ?_⟩
    · exact ⟨yielded, [], contents.token, (List.append_nil _).symm, hyields, rfl, htrim⟩
    · rw [← hclient]

/-- An operation of a load. -/
def TransportOp.Loads : TransportOp → Prop
  | .readFile _ | .tokenCallback | .build _ => True
  | _ => False

/-- Reading a file is all that a read does. -/
theorem only_readNonempty (path label : String) :
    (readNonempty path label).Only TransportOp.Loads := by
  refine Prog.only_await trivial fun answer => ?_
  cases answer with
  | error error => exact Prog.only_done _
  | ok bytes =>
    dsimp only
    split_ifs <;> exact Prog.only_done _

/-- A source reads its file or asks its callback. -/
theorem only_acquire (source : TokenSource) : source.acquire.Only TransportOp.Loads := by
  cases source with
  | none => exact Prog.only_done _
  | file path =>
    refine (only_readNonempty path "token").bind fun bytes => ?_
    cases textOfUtf8 bytes <;> exact Prog.only_done _
  | callback => exact Prog.only_await trivial fun _ => Prog.only_done _

/-- Building a client loads and builds, and publishes nothing. -/
theorem only_buildClient (config : SecureTransportConfig) :
    (buildClient config).Only TransportOp.Loads := by
  unfold buildClient
  split_ifs
  · exact Prog.only_done _
  refine (only_readNonempty _ _).bind fun caPem => (only_readNonempty _ _).bind
    fun certPem => (only_readNonempty _ _).bind fun keyPem => ?_
  refine (Prog.only_done _).bind fun root => (Prog.only_done _).bind fun identity => ?_
  refine ((only_acquire _).bind fun token => Prog.only_done _).bind fun token => ?_
  refine (Prog.only_done _).bind fun authorization => (Prog.only_done _).bind fun proxy => ?_
  refine Prog.only_await trivial fun answer => ?_
  cases answer <;> exact Prog.only_done _

/-! ### Reloading -/

/-- A reload publishes a client after it has loaded it. -/
theorem reads_of_invokes_publish {config : SecureTransportConfig} {client : Client}
    {history : List (Event TransportAnswer)}
    (h : (reload config).Invokes history (.publish client)) :
    ∃ contents, config.Loads contents client ∧ config.Reads contents client history := by
  obtain hbuild | ⟨first, rest, loaded, rfl, hloaded, hpublish⟩ := Prog.invokes_bind_iff.mp h
  · cases only_buildClient config history _ hbuild
  · obtain ⟨rfl, heq⟩ | ⟨written, rest, rfl, hwritten⟩ := Prog.invokes_await_iff.mp hpublish
    · cases heq
      rw [List.append_nil]
      exact buildClient_returns_iff.mp hloaded
    · cases written <;> exact absurd hwritten Prog.not_invokes_done

/-- A client is published, unless the lock of the profile is poisoned. -/
theorem publish_returns_iff {client : Client} {history : List (Event TransportAnswer)}
    {result : Except ClavenarError Unit} :
    (Prog.await (TransportOp.publish client) fun
      | false => .fail (.invalidConfig "transport profile lock poisoned")
      | true => pure () : TransportCall Unit).Returns history result ↔
      (history = [⟨.publish client, true⟩] ∧ result = .ok ()) ∨
        (history = [⟨.publish client, false⟩] ∧
          result = .error (.invalidConfig "transport profile lock poisoned")) := by
  rw [Prog.returns_await_iff]
  constructor
  · rintro ⟨written, rest, rfl, hrest⟩
    cases written with
    | true =>
      obtain ⟨rfl, rfl⟩ := Prog.returns_done_iff.mp hrest
      exact .inl ⟨rfl, rfl⟩
    | false =>
      obtain ⟨rfl, rfl⟩ := Prog.returns_done_iff.mp hrest
      exact .inr ⟨rfl, rfl⟩
  · rintro (⟨rfl, rfl⟩ | ⟨rfl, rfl⟩)
    · exact ⟨true, [], rfl, Prog.returns_done_iff.mpr ⟨rfl, rfl⟩⟩
    · exact ⟨false, [], rfl, Prog.returns_done_iff.mpr ⟨rfl, rfl⟩⟩

/-- Which reloads succeed. A reload succeeds exactly if each source was read once and in order,
every one of them was good, the client of all of them was built, and it was published last. A
reload that fails has not published anything, and one without positive timeouts reads nothing. -/
theorem reload_succeeds_iff (config : SecureTransportConfig)
    (history : List (Event TransportAnswer)) :
    ((reload config).Returns history (.ok ()) ↔
      ∃ contents client reads, config.Loads contents client ∧
        config.Reads contents client reads ∧ history = reads ++ [⟨.publish client, true⟩]) ∧
    (∀ error, (reload config).Returns history (.error error) →
      ∀ client, ⟨.publish client, true⟩ ∉ history) ∧
    (config.connectTimeout = 0 ∨ config.requestTimeout = 0 → ∀ result,
      (reload config).Returns history result → history = [] ∧
        result = .error (.invalidConfig "secure transport timeouts must be positive")) := by
  refine ⟨?_, ?_, ?_⟩
  · rw [reload, Prog.returns_bind_ok_iff]
    simp only [buildClient_returns_iff, publish_returns_iff]
    constructor
    · rintro ⟨reads, rest, client, rfl, ⟨contents, hloads, hreads⟩, ⟨rfl, -⟩ | ⟨-, h⟩⟩
      · exact ⟨contents, client, reads, hloads, hreads, rfl⟩
      · cases h
    · rintro ⟨contents, client, reads, hloads, hreads, rfl⟩
      exact ⟨reads, _, client, rfl, ⟨contents, hloads, hreads⟩, .inl ⟨rfl, trivial⟩⟩
  · intro error h client hmem
    have honly := only_buildClient config
    obtain ⟨e, hbuild, -⟩ | ⟨first, rest, loaded, rfl, hbuild, hpublish⟩ :=
      Prog.returns_bind_iff.mp h
    · cases honly.of_mem hbuild hmem
    · obtain ⟨-, hok⟩ | ⟨rfl, -⟩ := publish_returns_iff.mp hpublish
      · cases hok
      · rcases List.mem_append.mp hmem with hmem | hmem
        · cases honly.of_mem hbuild hmem
        · simp at hmem
  · intro hzero result h
    rw [reload, buildClient, if_pos hzero, Prog.fail_bind, Prog.fail, Prog.returns_done_iff] at h
    exact h

end

end ClavenarSdk
