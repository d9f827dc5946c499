import IotProxy.Proxy.KcpTunnel
import IotProxy.Proxy.RouteManager
import IotProxy.Proxy.TcpEgress
import IotProxy.Proxy.TcpIngress

/-!
# The proxy runtime

How the parts of a node are wired together. Events of TCP connections become tunnel frames, and
tunnel frames act on TCP connections. A frame that the node sends goes to the default next hop of
the moment, or to the configured peer if there is none; a frame that it receives is handled without
regard to the session it came from.

A log keeps the sent frames and what caused them.
-/

namespace IotProxy.Proxy

structure RuntimeConfig where
  double : DoubleArithmetic
  routes : RouteManagerConfig := {}
  tunnel : KcpTunnelConfig
  egress : TcpEgressConfig
  admission : AdmissionControlConfig := {}

/-- What a sent frame goes back to: an event of a local connection, an event of a connection to the
target, with the session whose frame had it opened, or a received frame that is refused. -/
inductive FrameCause where
  | ingress
  | egress (opener : KcpSessionKey)
  | refusal
  deriving DecidableEq

structure SentFrame where
  cause : FrameCause
  type : TunnelFrameType
  streamId : ℕ
  payload : Bytes
  peer : KcpConv
  session : KcpSessionKey
  deriving DecidableEq

structure ProxyRuntime where
  routes : RouteManager := {}
  tunnel : KcpTunnel := {}
  egress : TcpEgress KcpSessionKey := {}
  admission : AdmissionControl
  wallMs : ℤ := 0
  steadyMs : ℤ := 0
  sent : List SentFrame := []

structure RuntimeAnswers where
  kcp : TunnelAnswers
  connects : Bool := true
  write : WriteOutcome := .complete
  ingressTakes : Bool := false
  recordsNew : Bool := true

inductive RouteChange where
  | add (node : NodeAddress) (source : Option NodeAddress) (kcpConnected : Bool)
      (advertisedHopCount : ℕ) (capability : Option NodeCapability)
  | attempt (id : KcpConv)
  | success (id : KcpConv) (kcpConnected : Bool)
  | failure (id : KcpConv)
  | disconnected (id : KcpConv)

inductive RuntimeEvent where
  | clock (wallMs steadyMs : ℤ)
  | routes (change : RouteChange)
  /-- The library changes the iteration order of the route table. -/
  | rehash (order : List RouteEntry)
  | addLink (peer : NodeAddress) (conv : KcpConv)
  | ingress (type : TcpEventType) (streamId : ℕ) (payload : Bytes) (answers : RuntimeAnswers)
  | egressData (ref : ConnRef KcpSessionKey) (payload : Bytes) (answers : RuntimeAnswers)
  | egressEnd (ref : ConnRef KcpSessionKey) (answers : RuntimeAnswers)
  | packet (key : KcpSessionKey) (bytes : Bytes) (answers : RuntimeAnswers)
  | stopEgress

namespace ProxyRuntime

variable (config : RuntimeConfig) (runtime : ProxyRuntime)

def nextHop : Option RouteNextHop :=
  runtime.routes.selectDefaultNextHop config.double config.routes runtime.wallMs

def kcpSender (cause : FrameCause) (answers : TunnelAnswers) (type : TunnelFrameType)
    (streamId : ℕ) (payload : Bytes) : ProxyRuntime :=
  let (peer, session) :=
    match runtime.nextHop config with
    | some next => (next.nextHop.id,
        runtime.tunnel.sendFrameTo answers next.nextHop.id type streamId payload)
    | none => (config.tunnel.peer.id,
        runtime.tunnel.sendFrame config.tunnel answers type streamId payload)
  match session with
  | none => runtime
  | some session =>
    { runtime with sent := { cause, type, streamId, payload, peer, session } :: runtime.sent }

section Business

/-- `PassThroughBusiness::on_tcp_event`. The data of local connections is also replicated to the
peers; what the edge data pipeline does with it is another matter. -/
def businessTcpEvent (cause : FrameCause) (type : TcpEventType) (streamId : ℕ) (payload : Bytes)
    (answers : TunnelAnswers) : ProxyRuntime :=
  if streamId = 0 then runtime
  else
    match type with
    | .connected => runtime.kcpSender config cause answers .open streamId []
    | .data =>
      let runtime :=
        if cause = .ingress then
          { runtime with
            tunnel := (runtime.tunnel.broadcastFrame config.tunnel answers .replicate streamId
              payload (some (ownMetadata config.tunnel answers.random))).1 }
        else runtime
      runtime.kcpSender config cause answers .data streamId payload
    | .closed => runtime.kcpSender config cause answers .finish streamId []

/-- `PassThroughBusiness::on_kcp_frame`. The opener is the session of the packet; it only names a
new connection. -/
def businessKcpFrame (opener : KcpSessionKey) (frame : TunnelFrame) (answers : RuntimeAnswers) :
    ProxyRuntime :=
  let refuse (runtime : ProxyRuntime) : ProxyRuntime :=
    runtime.kcpSender config .refusal answers.kcp .close frame.streamId []
  if frame.streamId = 0 then runtime
  else
    match frame.type with
    | .open =>
      let (egress, opened) := runtime.egress.openStream config.egress opener frame.streamId
        answers.connects
      let runtime := { runtime with egress }
      if opened then runtime else refuse runtime
    | .data =>
      if frame.payload = [] then runtime
      else
        let (egress, sent) := runtime.egress.sendToStream frame.streamId frame.payload
          answers.write
        let runtime := { runtime with egress }
        -- data for no connection to a target may be the answer to a local one
        if sent || answers.ingressTakes then runtime else refuse runtime
    | .close => { runtime with egress := runtime.egress.closeStream frame.streamId }
    | .finish => { runtime with egress := runtime.egress.shutdownStreamWrite frame.streamId }
    | .control => runtime
    | .replicate => runtime
    | .kafkaBroadcast => runtime

end Business

/-- `ProxyRuntime::on_tcp_event` for a local connection. What is not admitted does not reach the
business layer. -/
def onIngressEvent (type : TcpEventType) (streamId : ℕ) (payload : Bytes)
    (answers : TunnelAnswers) : ProxyRuntime :=
  match type with
  | .connected =>
    let (admission, accepted) :=
      runtime.admission.tryAcceptIngressStream config.admission streamId
    let runtime := { runtime with admission }
    if accepted then runtime.businessTcpEvent config .ingress type streamId payload answers
    else runtime
  | .closed =>
    let runtime := { runtime with
      admission := runtime.admission.releaseIngressStream streamId }
    runtime.businessTcpEvent config .ingress type streamId payload answers
  | .data =>
    let (admission, accepted) := runtime.admission.tryAcceptIngressBytes config.double
      config.admission runtime.steadyMs payload.length
    if accepted then
      { runtime with admission }.businessTcpEvent config .ingress type streamId payload answers
    else
      -- the connection is shut down too, which is a `closed` event of its own
      { runtime with admission := admission.releaseIngressStream streamId }

def onFrame (opener : KcpSessionKey) (frame : TunnelFrame) (answers : RuntimeAnswers) :
    ProxyRuntime :=
  let (admission, accepted) := runtime.admission.tryAcceptIngressBytes config.double
    config.admission runtime.steadyMs frame.payload.length
  let runtime := { runtime with admission }
  if !accepted then runtime
  else if frame.type = .kafkaBroadcast then
    if answers.recordsNew then
      { runtime with
        tunnel := (runtime.tunnel.broadcastFrame config.tunnel answers.kcp .kafkaBroadcast
          frame.streamId frame.payload (some frame.broadcast)).1 }
    else runtime
  else runtime.businessKcpFrame config opener frame answers

/-- A packet of a session. The control messages of the discovery are events of their own. -/
def onPacket (key : KcpSessionKey) (bytes : Bytes) (answers : RuntimeAnswers) : ProxyRuntime :=
  let (tunnel, inbound) := runtime.tunnel.handleKcpMessage config.tunnel answers.kcp key bytes
  let runtime := { runtime with tunnel }
  match inbound with
  | .dropped => runtime
  | .control _ payload =>
    { runtime with
      admission := (runtime.admission.tryAcceptIngressBytes config.double config.admission
        runtime.steadyMs payload.length).1 }
  | .frame frame => runtime.onFrame config key frame answers

def changeRoutes (change : RouteChange) : ProxyRuntime :=
  let changed := match change with
    | .add node source kcpConnected hops capability =>
      -- the discovery service does not add the node itself
      if node.id = config.tunnel.identity then runtime.routes
      else (runtime.routes.addRoute config.double config.routes runtime.wallMs node source
        kcpConnected hops capability).1
    | .attempt id => runtime.routes.markAttempt runtime.wallMs id
    | .success id kcpConnected => runtime.routes.markSuccess runtime.wallMs id kcpConnected
    | .failure id => runtime.routes.markFailure config.routes runtime.wallMs id
    | .disconnected id => runtime.routes.markKcpDisconnected id
  { runtime with routes := changed }

def addLink (peer : NodeAddress) (conv : KcpConv) : ProxyRuntime :=
  if AdmissionControl.canAcceptKcpLink config.admission runtime.tunnel.peerLinks.length then
    { runtime with tunnel := (runtime.tunnel.addPeerLink config.tunnel peer conv).1 }
  else runtime

def onEgressData (ref : ConnRef KcpSessionKey) (payload : Bytes) (answers : RuntimeAnswers) :
    ProxyRuntime :=
  if (runtime.egress.conn ref).any (·.reading) && !payload.isEmpty then
    runtime.businessTcpEvent config (.egress ref.opener) .data ref.streamId payload answers.kcp
  else runtime

def onEgressEnd (ref : ConnRef KcpSessionKey) (answers : RuntimeAnswers) : ProxyRuntime :=
  let (egress, reported) := runtime.egress.readEnd ref
  let runtime := { runtime with egress }
  if reported then
    runtime.businessTcpEvent config (.egress ref.opener) .closed ref.streamId [] answers.kcp
  else runtime

/-- One event; an event that cannot happen changes nothing. -/
def step : RuntimeEvent → ProxyRuntime
  | .clock wallMs steadyMs => { runtime with wallMs, steadyMs }
  | .routes change => runtime.changeRoutes config change
  | .rehash order =>
    if order.Perm runtime.routes.routes then
      { runtime with routes := { runtime.routes with routes := order } }
    else runtime
  | .addLink peer conv => runtime.addLink config peer conv
  | .ingress type streamId payload answers =>
    runtime.onIngressEvent config type streamId payload answers.kcp
  | .egressData ref payload answers => runtime.onEgressData config ref payload answers
  | .egressEnd ref answers => runtime.onEgressEnd config ref answers
  | .packet key bytes answers => runtime.onPacket config key bytes answers
  | .stopEgress => { runtime with egress := runtime.egress.stop }

end ProxyRuntime

end IotProxy.Proxy
