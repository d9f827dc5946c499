import IotProxy.Proxy.DiscoveryThreads

/-!
# A network of nodes

Any number of nodes run the discovery service under names of their own. Each takes its steps as in
`DiscoveryThreads`, and the steps of different nodes interleave.

The nodes are honest: what a node reads is what another one has sent. A `hello` comes from a node
that dials, an answer with routes names entries that the dialled node has told this one, an offer of
a link was made because of a `hello`, and a control message is an announcement of some node.
Messages may arrive late, more than once or never, and in any order.
-/

namespace IotProxy.Proxy

open Json (AccessError)
open Interleaving

/-- The routes that a node has told another one after its `hello`. -/
structure RoutesReply where
  sender : KcpConv
  receiver : KcpConv
  entries : List RouteEntry

structure RouteNetwork (Links Stage : Type) where
  setup : KcpConv → DiscoverySetup Links Stage
  named : ∀ id, (setup id).config.id = id

structure RouteNetworkState (Links Stage : Type) where
  nodes : KcpConv → DiscoveryThreads Links Stage
  replies : List RoutesReply := []
  announced : List RouteEntry := []

inductive RouteNetworkEvent where
  | node (id : KcpConv) (event : DiscoveryEvent)
  | sendRoutes (sender receiver : KcpConv) (nowMs : ℤ)
      (shuffle : { shuffle : List RouteEntry → List RouteEntry // ∀ routes, (shuffle routes).Perm routes })
  | announce (id : KcpConv) (route : RouteEntry)
  | announceSelf (id : KcpConv) (capability : NodeCapability)
  | loseLink (id peer : KcpConv)

section Reading

variable (truncate : Text → ℤ)

/-- Whether the same route is read from an item as from the document of an entry. -/
def readsAs (item : Json) (entry : RouteEntry) : Bool :=
  match readRoute truncate item, readRoute truncate (routeToJson entry) with
  | .ok item, .ok written => item = written
  | _, _ => false

end Reading

namespace RouteNetwork

variable {Links Stage : Type} (network : RouteNetwork Links Stage)

def table (state : RouteNetworkState Links Stage) (id : KcpConv) : RouteManager :=
  (state.nodes id).shared.routes

/-- Whether a node can get a line from a node that it has dialled. -/
def heardFrom (state : RouteNetworkState Links Stage) (id : KcpConv) (node : NodeAddress)
    (line : Bytes) : Bool :=
  match responseActions (network.setup id) node line with
  | .error _ => false
  | .ok actions => actions.all fun
      | .propose _ item => state.replies.any fun reply =>
        reply.sender = node.id && reply.receiver = id &&
          reply.entries.any (readsAs (network.setup id).truncate item)
      | .callLink peer conv _ => peer.id = node.id &&
          (state.nodes node.id).shared.linkCalls.any fun call =>
            call.peer.id = id && call.conv = conv && call.cause = .hello
      | _ => true

/-- Whether a node can get what it reads in an event. -/
def heard (state : RouteNetworkState Links Stage) (id : KcpConv) : DiscoveryEvent → Bool
  | .session nowMs _ line =>
    match verifiedHello (network.setup id).config (network.setup id).calls nowMs line with
    | .ok (some (peer, _)) => (state.nodes peer.id).dialled.any (·.id = id)
    | _ => true
  | .control payload =>
    match controlActions (network.setup id) payload with
    | .error _ => false
    | .ok actions => actions.all fun
        | .propose _ item => state.announced.any (readsAs (network.setup id).truncate item)
        | _ => true
  | .act index answers =>
    match next? (state.nodes id).calls index, answers.line with
    | some (.readLine node), some line => network.heardFrom state id node line
    | _, _ => true
  | .dial _ => true
  | .rehash _ => true

def step (state : RouteNetworkState Links Stage) :
    RouteNetworkEvent → Option (RouteNetworkState Links Stage)
  | .node id event =>
    if network.heard state id event then
      ((state.nodes id).step (network.setup id) event).map fun after =>
        { state with nodes := Function.update state.nodes id after }
    else none
  | .sendRoutes sender receiver nowMs shuffle =>
    let told := ((table state sender).selectRoutesForResponse
      (routeManagerConfig (network.setup sender).config) nowMs shuffle.1).filter
        fun entry => entry.node.id ≠ sender
    some { state with replies := ⟨sender, receiver, told⟩ :: state.replies }
  | .announce id route =>
    if route ∈ (table state id).routes then
      some { state with announced := route :: state.announced }
    else none
  | .announceSelf id capability =>
    some { state with
      announced :=
        { node := selfNode (network.setup id).config, capability, kcpConnected := true } ::
          state.announced }
  | .loseLink id peer =>
    let node := state.nodes id
    let routes := node.shared.routes.markKcpDisconnected peer
    some { state with
      nodes := Function.update state.nodes id
        { node with shared := { node.shared with routes } } }

def nextHop (state : RouteNetworkState Links Stage) (here target : KcpConv) : Option KcpConv :=
  ((table state here).selectNextHop target).map (·.nextHop.id)

end RouteNetwork

end IotProxy.Proxy
