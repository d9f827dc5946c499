import IotProxy.Proxy.RouteFile

/-!
# The messages of the discovery service

Nodes find each other by JSON messages. A node dials another one over TCP and sends a signed
`hello`; the other one answers with routes it knows and, if it takes the node as a peer, with the
conversation of the new KCP link.

The exceptions of the parser are caught where it is called, those of the typed accesses to the
parsed document are not, so the readers are functions into `Except`.

What the node itself writes and announces is not modelled.
-/

namespace IotProxy.Proxy

open Json (AccessError)

structure DiscoveryConfig where
  id : KcpConv
  localEndpoint : Ipv4Endpoint := { host := "0.0.0.0".toList, port := 9000 }
  maxKcpLinks : ℕ := 512
  routeManager : RouteManagerConfig := {}

def routeManagerConfig (config : DiscoveryConfig) : RouteManagerConfig :=
  { config.routeManager with maxKcpLinks := config.maxKcpLinks }

def selfNode (config : DiscoveryConfig) : NodeAddress where
  endpoint := config.localEndpoint
  id := config.id

/-- What the service gets from outside. -/
structure DiscoveryCalls extends library : JsonLibrary where
  double : DoubleArithmetic
  verifyNodeMessage : KcpConv → Bytes → Bytes → Bool

section Documents

def numberJson (value : ℤ) : Json :=
  .number (Text.itoa value)

def object (members : List (String × Json)) : Json :=
  .object (members.map fun (key, item) => (key.toList, item))

def capabilityToJson (capability : NodeCapability) : Json :=
  object
    [ ("accepting_ingress", .bool capability.acceptingIngress),
      ("current_ingress_bytes_per_second", numberJson capability.currentIngressBytesPerSecond),
      ("current_ingress_streams", numberJson capability.currentIngressStreams),
      ("current_kcp_links", numberJson capability.currentKcpLinks),
      ("max_ingress_bytes_per_second", numberJson capability.maxIngressBytesPerSecond),
      ("max_ingress_streams", numberJson capability.maxIngressStreams),
      ("max_kcp_links", numberJson capability.maxKcpLinks),
      ("updated_at_ms", numberJson capability.updatedAtMs) ]

def nodeMembers (node : NodeAddress) (capability : NodeCapability) : List (String × Json) :=
  (if capability.present then [("capability", capabilityToJson capability)] else []) ++
    [ ("host", .string node.endpoint.host),
      ("port", numberJson node.endpoint.port),
      ("public_key", .string (convidToHex node.id)) ]

def routeToJson (route : RouteEntry) : Json :=
  object (nodeMembers route.node route.capability ++ [("hop_count", numberJson route.hopCount)])

end Documents

section Reading

variable (truncate : Text → ℤ)

def capabilityFromJson (item : Json) : Except AccessError (Option NodeCapability) :=
  if item.kind ≠ .object then pure none
  else do
    let acceptingIngress ← item.value "accepting_ingress" Json.getBool true
    let maxKcpLinks ← item.value "max_kcp_links" (Json.getUnsigned truncate 64) 0
    let currentKcpLinks ← item.value "current_kcp_links" (Json.getUnsigned truncate 64) 0
    let maxIngressStreams ← item.value "max_ingress_streams" (Json.getUnsigned truncate 64) 0
    let currentIngressStreams ←
      item.value "current_ingress_streams" (Json.getUnsigned truncate 64) 0
    let maxIngressBytesPerSecond ←
      item.value "max_ingress_bytes_per_second" (Json.getUnsigned truncate 64) 0
    let currentIngressBytesPerSecond ←
      item.value "current_ingress_bytes_per_second" (Json.getUnsigned truncate 64) 0
    let updatedAtMs ← item.value "updated_at_ms" (Json.getSigned truncate 64) 0
    pure (some
      { present := true, acceptingIngress, maxKcpLinks, currentKcpLinks, maxIngressStreams
        currentIngressStreams, maxIngressBytesPerSecond, currentIngressBytesPerSecond
        updatedAtMs })

def routeHopCountFromJson (item : Json) : Except AccessError ℕ :=
  (min · 255) <$> item.value "hop_count" (Json.getUnsigned truncate 32) 0

def nodeIdText (item : Json) : Except AccessError (Option Text) := do
  match ← item.stringMember "public_key" with
  | some text => pure (some text)
  | none => item.stringMember "id"

def nodeFromJson (item : Json) : Except AccessError (Option NodeAddress) :=
  nodeFromJsonNamed nodeIdText truncate item

def nodeCapabilityFromJson (item : Json) : Except AccessError (Option NodeCapability) :=
  match item.member "capability" with
  | some capability => capabilityFromJson truncate capability
  | none => pure none

end Reading

section Signature

def helloSigningPayload (node : NodeAddress) (targetId : KcpConv) (timestampMs : ℤ)
    (nonceHex : Text) : Bytes :=
  Utf8.encode <| ['\n'].intercalate
    [ "iota-discovery-v1".toList, convidToHex targetId, convidToHex node.id, node.endpoint.host,
      Text.itoa node.endpoint.port, Text.itoa timestampMs, nonceHex ]

def helloClockSkewMs : ℤ := 10 * 60 * 1000

/-- Check a `hello` against the name of the node that is said to have sent it. -/
def verifyHelloSignature (config : DiscoveryConfig) (calls : DiscoveryCalls) (nowMs : ℤ)
    (hello : Json) (peer : NodeAddress) : Except AccessError Bool :=
  match hello.member "timestamp_ms", hello.member "nonce", hello.member "signature" with
  | some timestamp, some nonce, some signature =>
    if !timestamp.isNumberInteger || !nonce.isString || !signature.isString then pure false
    else do
      let timestampMs ← timestamp.getInt64 calls.truncate
      if timestampMs < nowMs - helloClockSkewMs ∨ nowMs + helloClockSkewMs < timestampMs then
        pure false
      else do
        let nonceHex ← nonce.getString
        let signatureHex ← signature.getString
        match parseHex256 nonceHex, parseHex512 signatureHex with
        | some _, some signature =>
          pure (!peer.id.empty && calls.verifyNodeMessage peer.id
            (helloSigningPayload peer config.id timestampMs nonceHex) signature)
        | _, _ => pure false
  | _, _, _ => pure false

end Signature

section Handlers

variable (config : DiscoveryConfig) (calls : DiscoveryCalls)

def DiscoveryConfig.addRoute (nowMs : ℤ) (routes : RouteManager) (node : NodeAddress)
    (source : Option NodeAddress) (kcpConnected : Bool) (advertisedHopCount : ℕ)
    (capability : Option NodeCapability) : RouteManager × Bool :=
  if node.endpoint.host.isEmpty || node.endpoint.port = 0 || node.id.empty
      || node.id = config.id then (routes, false)
  else routes.addRoute calls.double (routeManagerConfig config) nowMs node source kcpConnected
    advertisedHopCount capability

/-- A node that names no host is reached at the host that its message came from. -/
def reachedAt (host : Text) (peer : NodeAddress) : NodeAddress :=
  if peer.endpoint.host.isEmpty || peer.endpoint.host = "0.0.0.0".toList then
    { peer with endpoint := { peer.endpoint with host } }
  else peer

def encodeIpv4EndpointHalf (endpoint : Ipv4Endpoint) : Bytes :=
  (inetPton endpoint.host).getD [0, 0, 0, 0] ++ BigEndian.store 2 endpoint.port ++
    List.replicate 10 0

def deriveKcpConvid (peer localEndpoint : Ipv4Endpoint) : KcpConv :=
  .ofBytes (encodeIpv4EndpointHalf peer ++ encodeIpv4EndpointHalf localEndpoint)

/-- The first tests of a `hello`. The fields are read one after the other. -/
def helloExpected (hello : Json) : Except AccessError Bool :=
  if hello.kind ≠ .object then pure false
  else do
    let type ← hello.value "type" Json.getString []
    if type ≠ "hello".toList then pure false
    else do
      let version ← hello.value "version" (Json.getSigned calls.truncate 32) 0
      if version ≠ 1 then pure false
      else do
        let target ← hello.value "target_public_key" Json.getString []
        pure (target = convidToHex config.id)

/-- What is taken from a `hello`: the node that has sent it, if its signature is valid. -/
def verifiedHello (nowMs : ℤ) (line : Bytes) :
    Except AccessError (Option (NodeAddress × Option NodeCapability)) :=
  match calls.parse line with
  | none => pure none
  | some hello => do
      match ← helloExpected config calls hello, hello.member "node" with
      | true, some item => do
          match ← nodeFromJson calls.truncate item with
          | none => pure none
          | some peer => do
              let capability ← nodeCapabilityFromJson calls.truncate item
              let verified ← verifyHelloSignature config calls nowMs hello peer
              pure (if verified then some (peer, capability) else none)
      | _, _ => pure none

/-- The address of a peer that a dialled node names: what is left open is that of the node. -/
def reachedThrough (node peer : NodeAddress) : NodeAddress :=
  let peer := reachedAt node.endpoint.host peer
  let port := if peer.endpoint.port = 0 then node.endpoint.port else peer.endpoint.port
  { peer with endpoint := { peer.endpoint with port } }

/-- The link that a dialled node offers in a `kcp_conv` message. -/
def kcpConvOf (node : NodeAddress) (message : Json) :
    Except AccessError (Option (NodeAddress × KcpConv × Option NodeCapability)) :=
  match message.member "node" with
  | none => pure none
  | some item => do
      match ← nodeFromJson calls.truncate item with
      | none => pure none
      | some peer => do
          match (← message.stringMember "convid").bind parseConvidHex with
          | none => pure none
          | some conv => do
              let capability ← nodeCapabilityFromJson calls.truncate item
              pure (some (reachedThrough node peer, conv, capability))

/-- The route that an item proposes. -/
def readRoute (truncate : Text → ℤ) (item : Json) :
    Except AccessError (Option (NodeAddress × ℕ × Option NodeCapability)) := do
  match ← nodeFromJson truncate item with
  | none => pure none
  | some route => do
      let capability ← nodeCapabilityFromJson truncate item
      let hopCount ← routeHopCountFromJson truncate item
      pure (some (route, hopCount, capability))

end Handlers

section Objects

variable {members : List (String × Json)} {key : String} {item : Json}

theorem mem_of_member (found : (object members).member key = some item) :
    (key, item) ∈ members := by
  simp only [object, Json.member, findMember, Option.map_eq_some_iff] at found
  obtain ⟨member, isFirst, rfl⟩ := found
  have mem := List.mem_reverse.mp (List.mem_of_find?_eq_some isFirst)
  have sameKey := List.find?_some isFirst
  obtain ⟨⟨name, content⟩, isMember, rfl⟩ := List.mem_map.mp mem
  rw [beq_iff_eq, String.toList_inj] at sameKey
  exact sameKey ▸ isMember

theorem member_object (mem : (key, item) ∈ members)
    (only : ∀ other, (key, other) ∈ members → other = item) :
    (object members).member key = some item := by
  cases found : (object members).member key with
  | some other => rw [only other (mem_of_member found)]
  | none =>
    simp only [object, Json.member, findMember, Option.map_eq_none_iff, List.find?_eq_none,
      List.mem_reverse] at found
    exact absurd (beq_self_eq_true key.toList) (found _ (List.mem_map_of_mem mem))

theorem value_of_member {α : Type} {doc : Json} (found : doc.member key = some item)
    (get : Json → Except AccessError α) (default : α) : doc.value key get default = get item := by
  cases doc with
  | object members =>
    have isMember : findMember members key = some item := found
    rw [Json.value, isMember]
  | _ => cases found

end Objects

end IotProxy.Proxy
