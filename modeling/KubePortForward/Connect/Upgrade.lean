import KubePortForward.Codec.HeaderBlock
import KubePortForward.Forwarder.Pool

/-!
# Upgrading one connection to SPDY

`kube-portforward/src/connect.rs`: the two upgrade requests, what the client
makes of the answer to each, and which failure of the first is worth trying
the second for.  How the HTTP client sends a request, and what the apiserver
answers, is in `Connect.Negotiation`.

Parsing a URI is the business of the `http` crate, so the parser is a
parameter.  Header names are lower case, as a `HeaderMap` keeps them.

A name is checked and then put into the path as it is.  The check keeps it inside
its segment; percent-escapes and dot segments pass it, and what the server makes of
those is not modelled.

## Main results

* `portforward_segments` — neither name leaves its segment, so requests for
  different pods have different paths.
-/

namespace KubePortForward.Connect

open KubePortForward.Codec (Bytes asBytes)
open KubePortForward.Forwarder (Error)

def SPDY_SUBPROTOCOL : String := "SPDY/3.1+portforward.k8s.io"
def LEGACY_SPDY_UPGRADE : String := "SPDY/3.1"
def LEGACY_STREAM_PROTOCOL : String := "portforward.k8s.io"

/-- `subprotocol::Subprotocol`. -/
inductive Subprotocol where
  | spdy31Tunnel
  | legacySpdy
  deriving DecidableEq, Repr

/-! ## The request -/

/-- The parts of an `http::Uri` that the code reads. -/
structure Uri where
  scheme : Option String
  authority : Option String
  path : String
  deriving DecidableEq, Repr

/-- The cluster a client talks to, and the parser of the `http` crate. -/
structure Cluster where
  url : Uri
  parse : String → Except String Uri

def isAsciiControl (c : Char) : Bool := decide (c.toNat < 32) || c.toNat == 127

/-- A name that stays inside one segment of a path. -/
def nameIsValid (s : String) : Bool :=
  !s.toList.isEmpty && s.toList.all (fun c => decide (c.toNat < 128)) &&
    s.toList.all fun c => !(c == '/' || c == '?' || c == '#') && !isAsciiControl c

/-- The path of the `portforward` subresource of a pod. -/
def portforwardPath (ns pod : String) : String :=
  "/api/v1/namespaces/" ++ ns ++ "/pods/" ++ pod ++ "/portforward"

def portforwardUri (cluster : Cluster) (ns pod : String) : Except Error Uri :=
  if !nameIsValid ns || !nameIsValid pod then
    .error (.configuration
      "invalid namespace or pod name: has a forbidden character or non-ASCII")
  else match cluster.url.scheme with
  | none => .error (.configuration "cluster_url has no scheme")
  | some scheme =>
      match cluster.url.authority with
      | none => .error (.configuration "cluster_url has no authority")
      | some authority =>
          match cluster.parse (scheme ++ "://" ++ authority ++ portforwardPath ns pod) with
          | .ok uri => .ok uri
          | .error e => .error (.configuration ("invalid port-forward URI: " ++ e))

inductive Method where
  | get
  | post
  deriving DecidableEq, Repr

structure Request where
  method : Method
  uri : Uri
  headers : List (String × String)
  deriving DecidableEq, Repr

/-- `build_spdy_tunnel_request`; the builder refuses none of these parts. -/
def buildSpdyTunnelRequest (cluster : Cluster) (ns pod : String) : Except Error Request := do
  let uri ← portforwardUri cluster ns pod
  return { method := .get, uri, headers := [("sec-websocket-protocol", SPDY_SUBPROTOCOL)] }

/-- What `perform_ws_upgrade` adds to the request, with a random key. -/
def Request.asWsUpgrade (key : String) (r : Request) : Request :=
  { r with headers := r.headers ++
      [("connection", "Upgrade"), ("upgrade", "websocket"), ("sec-websocket-version", "13"),
        ("sec-websocket-key", key)] }

def buildLegacySpdyRequest (cluster : Cluster) (ns pod : String) : Except Error Request := do
  let uri ← portforwardUri cluster ns pod
  return {
    method := .post
    uri
    headers := [("connection", "Upgrade"), ("upgrade", LEGACY_SPDY_UPGRADE),
      ("x-stream-protocol-version", LEGACY_STREAM_PROTOCOL)] }

/-- The request of an upgrade to `protocol`. -/
def upgradeRequest (cluster : Cluster) (ns pod key : String) :
    Subprotocol → Except Error Request
  | .spdy31Tunnel => (buildSpdyTunnelRequest cluster ns pod).map (·.asWsUpgrade key)
  | .legacySpdy => buildLegacySpdyRequest cluster ns pod

/-! ## The answer -/

structure Response where
  status : UInt16
  headers : List (String × Bytes)
  deriving DecidableEq, Repr

/-- What `kube_client.send` and then `hyper::upgrade::on` come back with. -/
inductive Answer where
  | failed (message : String)
  | response (res : Response) (upgraded : Except String Unit)
  deriving DecidableEq, Repr

def SWITCHING_PROTOCOLS : UInt16 := 101

/-- `HeaderValue::to_str`: visible ASCII and tabs. -/
def headerToStr (value : Bytes) : Option String :=
  if value.all fun b => b == 9 || (decide (32 ≤ b) && decide (b < 127)) then
    some (String.ofList (value.map fun b => Char.ofNat b.toNat))
  else none

/-- `headers().get(name).and_then(|v| v.to_str().ok()).unwrap_or("")`. -/
def Response.header (res : Response) (name : String) : String :=
  ((res.headers.lookup name).bind headerToStr).getD ""

/-- `{:?}` of a header's text. -/
def debugStr (s : String) : String :=
  "\"" ++ String.join (s.toList.map fun c =>
    if c == '"' then "\\\"" else if c == '\\' then "\\\\" else if c == '\t' then "\\t"
    else String.singleton c) ++ "\""

def eqIgnoreAsciiCase (a b : String) : Bool :=
  a.toList.map Char.toLower == b.toList.map Char.toLower

/-- An answer other than 101 is a rejected upgrade. -/
def rejected (what : String) (res : Response) : Error :=
  .upgradeFailed (some res.status)
    (what ++ ": expected 101, got " ++ toString res.status)

/-- What `perform_ws_upgrade` returns for an answer. -/
def performWsUpgrade : Answer → Except Error Unit
  | .failed message => .error (.kube message)
  | .response res upgraded =>
      if res.status ≠ SWITCHING_PROTOCOLS then
        .error (rejected "SPDY-over-WebSocket upgrade" res)
      else
        let negotiated := res.header "sec-websocket-protocol"
        if negotiated ≠ SPDY_SUBPROTOCOL then
          .error (.protocolViolation "SPDY-over-WebSocket subprotocol negotiation"
            ("server picked an unexpected subprotocol: " ++ debugStr negotiated ++
              " (wanted " ++ debugStr SPDY_SUBPROTOCOL ++ ")"))
        else match upgraded with
        | .ok () => .ok ()
        | .error e => .error (.network ("failed to complete HTTP upgrade: " ++ e))

/-- What `perform_legacy_spdy_upgrade` returns for an answer. -/
def performLegacySpdyUpgrade : Answer → Except Error Unit
  | .failed message => .error (.kube message)
  | .response res upgraded =>
      if res.status ≠ SWITCHING_PROTOCOLS then
        .error (rejected "legacy SPDY upgrade" res)
      else
        let upgradeHdr := res.header "upgrade"
        let streamProtocol := res.header "x-stream-protocol-version"
        if !eqIgnoreAsciiCase upgradeHdr LEGACY_SPDY_UPGRADE then
          .error (.protocolViolation "legacy SPDY upgrade"
            ("server sent back an unexpected Upgrade header: " ++ debugStr upgradeHdr ++
              " (wanted " ++ debugStr LEGACY_SPDY_UPGRADE ++ ")"))
        else if streamProtocol ≠ LEGACY_STREAM_PROTOCOL then
          .error (.protocolViolation "legacy SPDY upgrade"
            ("server sent back an unexpected X-Stream-Protocol-Version: " ++
              debugStr streamProtocol ++ " (wanted " ++ debugStr LEGACY_STREAM_PROTOCOL ++ ")"))
        else match upgraded with
        | .ok () => .ok ()
        | .error e => .error (.network ("failed to complete HTTP upgrade: " ++ e))

/-- `upgrade_spdy_tunnel` or `upgrade_legacy_spdy`, once its request is sent. -/
def Subprotocol.perform : Subprotocol → Answer → Except Error Unit
  | .spdy31Tunnel => performWsUpgrade
  | .legacySpdy => performLegacySpdyUpgrade

/-- Whether a failed first try triggers the legacy fallback. -/
def shouldFallback : Error → Bool
  | .upgradeFailed _ _ => true
  | .protocolViolation _ _ => true
  | _ => false

/-! ## Recovery signals -/

/-- `recovery::RecoverySignal`; ages are in milliseconds. -/
inductive RecoverySignal where
  | keepaliveTimeout (lastPongAge : Nat)
  | serverClose
  | networkError (message : String)
  | upgradeFailed (status : Option UInt16) (message : String)
  deriving DecidableEq, Repr

def debugStatus : Option UInt16 → String
  | some status => "Some(" ++ toString status ++ ")"
  | none => "None"

/-- `impl Display for spdy_mux::Error`, of the errors that opening a pair returns. -/
def displayOpenError : Mux.OpenError → String
  | .muxClosed => "mux closed"
  | .capacityExhausted inUse limit =>
      "capacity exhausted: " ++ toString inUse ++ " active pairs, limit " ++ toString limit

/-- `impl Display for Error`. -/
def displayError : Error → String
  | .upgradeFailed status message =>
      "port-forward upgrade failed (HTTP " ++ debugStatus status ++ "): " ++ message
  | .protocolViolation context detail => "protocol violation in " ++ context ++ ": " ++ detail
  | .capacityExhausted inUse capacity =>
      "session capacity exhausted: " ++ toString inUse ++ "/" ++ toString capacity ++
        " channel pairs in use"
  | .configuration message => "configuration error: " ++ message
  | .network message => "network error: " ++ message
  | .cancelled => "port forwarding cancelled"
  | .kube message => message
  | .io message => message
  | .spdy e => displayOpenError e

/-- The status a failed fallback is reported with. -/
def fallbackStatus : Error → Error → Option UInt16
  | .upgradeFailed status _, _ => status
  | _, .upgradeFailed status _ => status
  | _, _ => none

/-- The signal for a legacy upgrade that failed as well. -/
def fallbackSignal (wsError fallbackError : Error) : RecoverySignal :=
  .upgradeFailed (fallbackStatus fallbackError wsError)
    ("websocket upgrade rejected (" ++ displayError wsError ++
      "); legacy fallback also failed: " ++ displayError fallbackError)

/-- The signal for a first try that failed and is not worth a fallback. -/
def directSignal : Error → Option RecoverySignal
  | .kube message => some (.upgradeFailed none (displayError (.kube message)))
  | .network message => some (.upgradeFailed none (displayError (.network message)))
  | _ => none

/-! ## The path of a request -/

/-- The characters that end a segment or the path itself. -/
def Plain (s : String) : Prop := '/' ∉ s.toList ∧ '?' ∉ s.toList ∧ '#' ∉ s.toList

theorem plain_of_nameIsValid {s : String} (h : nameIsValid s = true) : Plain s := by
  simp only [nameIsValid, Bool.and_eq_true, List.all_eq_true] at h
  have hstops : ∀ c ∈ s.toList, c ≠ '/' ∧ c ≠ '?' ∧ c ≠ '#' := by
    intro c hc
    have hcs := (h.2 c hc).1
    simp only [Bool.not_eq_true', Bool.or_eq_false_iff, beq_eq_false_iff_ne] at hcs
    exact ⟨hcs.1.1, hcs.1.2, hcs.2⟩
  exact ⟨fun hc => (hstops _ hc).1 rfl, fun hc => (hstops _ hc).2.1 rfl,
    fun hc => (hstops _ hc).2.2 rfl⟩

theorem portforwardPath_toList (ns pod : String) :
    (portforwardPath ns pod).toList = "/api/v1/namespaces/".toList ++
      (ns.toList ++ ("/pods/".toList ++ (pod.toList ++ "/portforward".toList))) := by
  have hpath : portforwardPath ns pod =
      "/api/v1/namespaces/" ++ ns ++ "/pods/" ++ pod ++ "/portforward" := rfl
  rw [hpath]
  simp only [String.toList_append, List.append_assoc]

/-- The path, cut at every slash. -/
theorem portforwardPath_splitOn {ns pod : String} (hns : Plain ns) (hpod : Plain pod) :
    (portforwardPath ns pod).toList.splitOn '/' =
      ["", "api", "v1", "namespaces", ns, "pods", pod, "portforward"].map String.toList := by
  have hjoin : (portforwardPath ns pod).toList = ['/'].intercalate
      (["", "api", "v1", "namespaces", ns, "pods", pod, "portforward"].map String.toList) := by
    rw [portforwardPath_toList]
    simp [List.intercalate, List.intersperse]
  rw [hjoin]
  apply List.splitOn_intercalate
  · intro l hl
    simp only [List.map_cons, List.map_nil, List.mem_cons, List.not_mem_nil, or_false] at hl
    rcases hl with rfl | rfl | rfl | rfl | rfl | rfl | rfl | rfl
    · simp
    · simp
    · simp
    · simp
    · exact hns.1
    · simp
    · exact hpod.1
    · simp
  · exact List.cons_ne_nil _ _

theorem portforwardPath_stays {ns pod : String} (hns : Plain ns) (hpod : Plain pod) :
    '?' ∉ (portforwardPath ns pod).toList ∧ '#' ∉ (portforwardPath ns pod).toList := by
  have h1 := hns.2
  have h2 := hpod.2
  simp [portforwardPath_toList, h1.1, h1.2, h2.1, h2.2]

/-- What the `http` crate does with an absolute URI that has neither a query nor a
fragment: its path is what follows the authority. -/
def Cluster.ParsesPaths (cluster : Cluster) : Prop :=
  ∀ scheme authority path uri, cluster.url.scheme = some scheme →
    cluster.url.authority = some authority → path.toList.head? = some '/' →
    '?' ∉ path.toList → '#' ∉ path.toList →
    cluster.parse (scheme ++ "://" ++ authority ++ path) = .ok uri → uri.path = path

/-- A URI is only built for names that are valid, and it is then parsed from the
path of the pod. -/
theorem portforwardUri_ok {cluster : Cluster} {ns pod : String} {uri : Uri}
    (h : portforwardUri cluster ns pod = .ok uri) :
    nameIsValid ns = true ∧ nameIsValid pod = true ∧
      ∃ scheme authority, cluster.url.scheme = some scheme ∧
        cluster.url.authority = some authority ∧
        cluster.parse (scheme ++ "://" ++ authority ++ portforwardPath ns pod) = .ok uri := by
  unfold portforwardUri at h
  by_cases hvalid : nameIsValid ns = true ∧ nameIsValid pod = true
  · rw [if_neg (by simp [hvalid.1, hvalid.2])] at h
    cases hs : cluster.url.scheme with
    | none => rw [hs] at h; cases h
    | some scheme =>
        cases ha : cluster.url.authority with
        | none => rw [hs, ha] at h; cases h
        | some authority =>
            rw [hs, ha] at h
            cases hp : cluster.parse
                (scheme ++ "://" ++ authority ++ portforwardPath ns pod) with
            | error e => simp only [hp] at h; cases h
            | ok u =>
                simp only [hp] at h
                cases h
                exact ⟨hvalid.1, hvalid.2, scheme, authority, rfl, rfl, hp⟩
  · rw [if_pos] at h
    · cases h
    · cases hns : nameIsValid ns
      · rfl
      · cases hpod : nameIsValid pod
        · rfl
        · exact absurd ⟨hns, hpod⟩ hvalid

theorem upgradeRequest_uri {cluster : Cluster} {ns pod key : String} {protocol : Subprotocol}
    {r : Request} (h : upgradeRequest cluster ns pod key protocol = .ok r) :
    portforwardUri cluster ns pod = .ok r.uri := by
  cases hu : portforwardUri cluster ns pod with
  | error e =>
      cases protocol <;>
        simp [upgradeRequest, buildSpdyTunnelRequest, buildLegacySpdyRequest, hu, bind,
          Except.bind, Except.map] at h
  | ok uri =>
      cases protocol <;>
        simp [upgradeRequest, buildSpdyTunnelRequest, buildLegacySpdyRequest, hu, bind,
          Except.bind, Except.map, pure, Except.pure, Request.asWsUpgrade] at h <;>
        rw [← h]

/-- A request that is built has the path of its pod, and both names were checked. -/
theorem upgradeRequest_path {cluster : Cluster} (hparses : cluster.ParsesPaths)
    {ns pod key : String} {protocol : Subprotocol} {r : Request}
    (h : upgradeRequest cluster ns pod key protocol = .ok r) :
    Plain ns ∧ Plain pod ∧ r.uri.path = portforwardPath ns pod := by
  obtain ⟨hns, hpod, scheme, authority, hs, ha, hp⟩ := portforwardUri_ok (upgradeRequest_uri h)
  have hns := plain_of_nameIsValid hns
  have hpod := plain_of_nameIsValid hpod
  have hstays := portforwardPath_stays hns hpod
  refine ⟨hns, hpod, ?_⟩
  apply hparses scheme authority _ r.uri hs ha _ hstays.1 hstays.2 hp
  simp [portforwardPath_toList]

/-- Whatever the names are, a request that is built at all has the segments of the
`portforward` subresource with the two names as they were given, and neither a query nor
a fragment.  So two requests with the same path are for the same pod. -/
theorem portforward_segments (cluster : Cluster) (hparses : cluster.ParsesPaths)
    (ns pod key ns' pod' key' : String) (protocol protocol' : Subprotocol) (r r' : Request)
    (h : upgradeRequest cluster ns pod key protocol = .ok r)
    (h' : upgradeRequest cluster ns' pod' key' protocol' = .ok r') :
    r.uri.path.toList.splitOn '/' =
        ["", "api", "v1", "namespaces", ns, "pods", pod, "portforward"].map String.toList ∧
      '?' ∉ r.uri.path.toList ∧ '#' ∉ r.uri.path.toList ∧
      (r.uri.path = r'.uri.path → ns = ns' ∧ pod = pod') := by
  obtain ⟨hns, hpod, hpath⟩ := upgradeRequest_path hparses h
  obtain ⟨hns', hpod', hpath'⟩ := upgradeRequest_path hparses h'
  have hsplit := portforwardPath_splitOn hns hpod
  have hstays := portforwardPath_stays hns hpod
  refine ⟨?_, ?_, ?_, ?_⟩
  · rw [hpath]
    exact hsplit
  · rw [hpath]
    exact hstays.1
  · rw [hpath]
    exact hstays.2
  · intro hsame
    have hsplit' := portforwardPath_splitOn hns' hpod'
    rw [← hpath', ← hsame, hpath, hsplit] at hsplit'
    simpa [String.toList_inj] using hsplit'

/-- A cluster at one address, whose URIs are cut after it. -/
def testCluster : Cluster where
  url := { scheme := some "https", authority := some "10.0.0.1", path := "/" }
  parse := fun s => .ok {
    scheme := some "https"
    authority := some "10.0.0.1"
    path := String.ofList (s.toList.drop "https://10.0.0.1".toList.length) }

theorem testCluster_parsesPaths : testCluster.ParsesPaths := by
  intro scheme authority path uri hs ha _ _ _ h
  cases hs
  cases ha
  cases h
  simp only [String.toList_append]
  rw [List.drop_left' (by simp), String.ofList_toList]

/-- A percent-escape stays what it is, so the path is another one. -/
theorem portforward_segments_escaped : ∃ r r',
    upgradeRequest testCluster "default" "web-0" "AQIDBA==" .spdy31Tunnel = .ok r ∧
      upgradeRequest testCluster "default" "%77eb-0" "AQIDBA==" .legacySpdy = .ok r' ∧
      r.uri.path.toList.splitOn '/' = ["", "api", "v1", "namespaces", "default", "pods",
        "web-0", "portforward"].map String.toList ∧
      r.uri.path ≠ r'.uri.path := by
  have hns : nameIsValid "default" = true := by decide +kernel
  have hpod : nameIsValid "web-0" = true := by decide +kernel
  have hescaped : nameIsValid "%77eb-0" = true := by decide +kernel
  have hr : ∃ r, upgradeRequest testCluster "default" "web-0" "AQIDBA==" .spdy31Tunnel =
      .ok r := by
    simp only [upgradeRequest, buildSpdyTunnelRequest, portforwardUri, hns, hpod, testCluster]
    exact ⟨_, rfl⟩
  have hr' : ∃ r, upgradeRequest testCluster "default" "%77eb-0" "AQIDBA==" .legacySpdy =
      .ok r := by
    simp only [upgradeRequest, buildLegacySpdyRequest, portforwardUri, hns, hescaped,
      testCluster]
    exact ⟨_, rfl⟩
  obtain ⟨r, hr⟩ := hr
  obtain ⟨r', hr'⟩ := hr'
  have hsegments := portforward_segments testCluster testCluster_parsesPaths _ _ _ _ _ _ _ _
    r r' hr hr'
  refine ⟨r, r', hr, hr', hsegments.1, ?_⟩
  intro hsame
  exact absurd (hsegments.2.2.2 hsame).2 (by decide)

end KubePortForward.Connect
