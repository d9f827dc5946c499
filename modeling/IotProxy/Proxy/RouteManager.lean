import IotProxy.Proxy.AdmissionControl
import Mathlib.Data.List.MinMax

/-!
# The route manager

A table of the nodes that are known, with what is known about each: whether there is a KCP link, how
often it was tried and failed, how loaded it says it is. Routes are compared by a score computed
from that, and the default next hop is the connected route with the best score.

The table is a hash map from node ids. It is modelled by the list of its entries in the order of
iteration, which breaks ties and may change.
-/

namespace IotProxy.Proxy

inductive RouteState where
  | new
  | tried
  | bad
  deriving DecidableEq

structure NodeCapability where
  present : Bool := false
  acceptingIngress : Bool := true
  maxKcpLinks : ℕ := 0
  currentKcpLinks : ℕ := 0
  maxIngressStreams : ℕ := 0
  currentIngressStreams : ℕ := 0
  maxIngressBytesPerSecond : ℕ := 0
  currentIngressBytesPerSecond : ℕ := 0
  updatedAtMs : ℤ := 0
  deriving DecidableEq

structure RouteEntry where
  node : NodeAddress
  /-- The node that advertised the route, if it was learnt from one. -/
  source : Option NodeAddress := none
  capability : NodeCapability := {}
  state : RouteState := .new
  kcpConnected : Bool := false
  attempts : ℕ := 0
  failures : ℕ := 0
  hopCount : ℕ := 0
  lastSeenMs : ℤ := 0
  lastTryMs : ℤ := 0
  lastSuccessMs : ℤ := 0
  deriving DecidableEq

structure RouteNextHop where
  target : NodeAddress
  nextHop : NodeAddress
  direct : Bool
  hopCount : ℕ
  deriving DecidableEq

structure RouteManagerConfig where
  maxRoutes : ℕ := 4096
  maxKcpLinks : ℕ := 512
  maxResponseRoutes : ℕ := 2500
  maxResponsePercent : ℕ := 23
  retryBackoffSeconds : ℕ := 60
  staleAfterSeconds : ℕ := 30 * 24 * 60 * 60
  giveUpAttempts : ℕ := 3
  badFailureThreshold : ℕ := 10
  maxRouteHops : ℕ := 8
  capabilityStaleAfterSeconds : ℕ := 120

structure RouteManager where
  routes : List RouteEntry := []
  kcpLinkCount : ℕ := 0

def validRouteNode (node : NodeAddress) : Bool :=
  !node.endpoint.host.isEmpty && node.endpoint.port != 0 && !node.id.empty

def localHopCount (source : Option NodeAddress) (kcpConnected : Bool)
    (advertisedHopCount : ℕ) : ℕ :=
  if kcpConnected then 1
  else if source.any validRouteNode then
    if advertisedHopCount = 255 then advertisedHopCount else advertisedHopCount + 1
  else advertisedHopCount

section Score

variable (double : DoubleArithmetic) (config : RouteManagerConfig) (nowMs : ℤ)

def secondsToMs (seconds : ℕ) : ℤ :=
  seconds * 1000

def futureSkewMs : ℤ := 10 * 60 * 1000

def recentTryPenaltyMs : ℤ := 10 * 60 * 1000

def minFailMs : ℤ := 7 * 24 * 60 * 60 * 1000

/-- An entry that may be dropped: it has not been seen for long or has failed too often. -/
def isTerrible (entry : RouteEntry) : Bool :=
  if entry.lastTryMs ≠ 0 ∧ nowMs - secondsToMs config.retryBackoffSeconds ≤ entry.lastTryMs then
    false
  else if nowMs + futureSkewMs < entry.lastSeenMs then true
  else if entry.lastSeenMs = 0 ∨
      entry.lastSeenMs < nowMs - secondsToMs config.staleAfterSeconds then true
  else if entry.lastSuccessMs = 0 ∧ config.giveUpAttempts ≤ entry.attempts then true
  else entry.lastSuccessMs ≠ 0 ∧ entry.lastSuccessMs < nowMs - minFailMs ∧
    config.badFailureThreshold ≤ entry.failures

def routeChance (entry : RouteEntry) : ℚ :=
  let chance : ℚ :=
    if entry.lastTryMs ≠ 0 ∧ nowMs - recentTryPenaltyMs < entry.lastTryMs then
      double.round (1 / 100)
    else 1
  let chance := double.mul chance (double.pow (double.round (66 / 100)) (min entry.attempts 8))
  match entry.state with
  | .tried => double.mul chance (125 / 100)
  | .bad => double.mul chance (double.round (5 / 100))
  | .new => chance

def loadOf (load : ℚ) (current limit : ℕ) : Option ℚ :=
  if limit = 0 then some load
  else if limit ≤ current then none
  else some (max load (double.div (double.round current) (double.round limit)))

def capabilityScore (entry : RouteEntry) : ℚ :=
  let cap := entry.capability
  if !cap.present then 1
  else if !cap.acceptingIngress then 0
  else if cap.updatedAtMs ≠ 0 ∧
      cap.updatedAtMs < nowMs - secondsToMs config.capabilityStaleAfterSeconds then 1 / 2
  else
    match ((loadOf double 0 cap.currentKcpLinks cap.maxKcpLinks).bind fun load =>
        loadOf double load cap.currentIngressStreams cap.maxIngressStreams).bind fun load =>
        loadOf double load cap.currentIngressBytesPerSecond cap.maxIngressBytesPerSecond with
    | none => 0
    | some load =>
      double.add (double.round (1 / 10))
        (double.mul (double.round (9 / 10)) (double.sub 1 (max 0 (min 1 load))))

/-- The score by which routes are compared. -/
def routeScore (entry : RouteEntry) : ℚ :=
  let score := double.mul (routeChance double nowMs entry)
    (capabilityScore double config nowMs entry)
  if 1 < entry.hopCount then double.div score entry.hopCount else score

end Score

namespace RouteManager

variable (double : DoubleArithmetic) (config : RouteManagerConfig) (nowMs : ℤ)

def find (manager : RouteManager) (id : KcpConv) : Option RouteEntry :=
  manager.routes.find? (·.node.id = id)

def modify (manager : RouteManager) (id : KcpConv) (change : RouteEntry → RouteEntry) :
    RouteManager :=
  { manager with
    routes := manager.routes.map fun entry => if entry.node.id = id then change entry else entry }

section Trim

/-- The score by which the victim is chosen when the table is full. -/
def victimScore (entry : RouteEntry) : ℚ :=
  let score := routeScore double config nowMs entry
  if entry.state = .bad then double.mul score (double.round (1 / 100)) else score

/-- Make room in a full table: drop the terrible routes, and if there are none the unconnected
route with the lowest score. -/
def trimIfNeeded (manager : RouteManager) : RouteManager :=
  if manager.routes.length < config.maxRoutes then manager
  else
    let kept := manager.routes.filter fun entry =>
      entry.kcpConnected || !isTerrible config nowMs entry
    if kept.length < config.maxRoutes then { manager with routes := kept }
    else
      let victims := kept.filter fun entry => !entry.kcpConnected
      match victims.argmin (victimScore double config nowMs) with
      | none => { manager with routes := kept }
      | some victim =>
        { manager with routes := kept.filter fun entry => entry.node.id ≠ victim.node.id }

end Trim

section Changes

/-- Take over what has been learnt about a node that is in the table. -/
def refreshEntry (entry : RouteEntry) (node : NodeAddress) (source : Option NodeAddress)
    (kcpConnected : Bool) (hops : ℕ) (capability : Option NodeCapability) : RouteEntry :=
  let entry := { entry with
    node := node
    lastSeenMs := nowMs
    capability := match capability with
      | some capability => if capability.present then capability else entry.capability
      | none => entry.capability }
  let entry :=
    if source.any validRouteNode && !entry.kcpConnected
        && (entry.hopCount = 0 || hops < entry.hopCount) then
      { entry with source := source, hopCount := hops }
    else entry
  let entry := if entry.state = .bad then { entry with state := .new } else entry
  if kcpConnected then
    { entry with
      kcpConnected := true, state := .tried, lastSuccessMs := nowMs, failures := 0
      hopCount := 1, source := none }
  else entry

def newEntry (node : NodeAddress) (source : Option NodeAddress) (kcpConnected : Bool) (hops : ℕ)
    (capability : Option NodeCapability) : RouteEntry where
  node := node
  source := source.filter validRouteNode
  capability := (capability.filter (·.present)).getD {}
  state := if kcpConnected then .tried else .new
  kcpConnected := kcpConnected
  hopCount := hops
  lastSeenMs := nowMs
  lastSuccessMs := if kcpConnected then nowMs else 0

/-- Add a route or bring it up to date. The result says whether the route is new. -/
def addRoute (manager : RouteManager) (node : NodeAddress) (source : Option NodeAddress)
    (kcpConnected : Bool) (advertisedHopCount : ℕ) (capability : Option NodeCapability) :
    RouteManager × Bool :=
  let hops := localHopCount source kcpConnected advertisedHopCount
  if !validRouteNode node || config.maxRouteHops < hops then (manager, false)
  else
    match manager.find node.id with
    | some entry =>
      let refreshed := manager.modify node.id fun entry =>
        refreshEntry nowMs entry node source kcpConnected hops capability
      ({ refreshed with
          kcpLinkCount :=
            if kcpConnected && !entry.kcpConnected then manager.kcpLinkCount + 1
            else manager.kcpLinkCount }, false)
    | none =>
      let trimmed := manager.trimIfNeeded double config nowMs
      let trimmed :=
        if config.maxRoutes ≤ trimmed.routes.length then trimmed.trimIfNeeded double config nowMs
        else trimmed
      if config.maxRoutes ≤ trimmed.routes.length then (trimmed, false)
      else
        ({ routes := newEntry nowMs node source kcpConnected hops capability :: trimmed.routes
           kcpLinkCount :=
             if kcpConnected then trimmed.kcpLinkCount + 1 else trimmed.kcpLinkCount }, true)

def markAttempt (manager : RouteManager) (id : KcpConv) : RouteManager :=
  manager.modify id fun entry => { entry with
    lastTryMs := nowMs
    attempts := if entry.attempts < 2 ^ 32 - 1 then entry.attempts + 1 else entry.attempts }

/-- The node has been reached, and linked if `kcpConnected`. -/
def markSuccess (manager : RouteManager) (id : KcpConv) (kcpConnected : Bool) : RouteManager :=
  let marked := manager.modify id fun entry =>
    let entry := { entry with
      state := .tried, failures := 0, attempts := 0, lastSeenMs := nowMs, lastTryMs := nowMs
      lastSuccessMs := nowMs }
    if kcpConnected then { entry with kcpConnected := true, hopCount := 1, source := none }
    else entry
  let connects := kcpConnected && (manager.find id).any fun entry => !entry.kcpConnected
  { marked with
    kcpLinkCount := if connects then manager.kcpLinkCount + 1 else manager.kcpLinkCount }

def countWithout (manager : RouteManager) (id : KcpConv) : ℕ :=
  if (manager.find id).any (·.kcpConnected) then manager.kcpLinkCount - 1
  else manager.kcpLinkCount

/-- A link to the node could not be made. -/
def markFailure (manager : RouteManager) (id : KcpConv) : RouteManager :=
  let marked := manager.modify id fun entry =>
    let entry := { entry with
      lastTryMs := nowMs
      failures := if entry.failures < 2 ^ 32 - 1 then entry.failures + 1 else entry.failures
      kcpConnected := false }
    if isTerrible config nowMs entry || config.badFailureThreshold ≤ entry.failures then
      { entry with state := .bad }
    else if entry.lastSuccessMs = 0 then { entry with state := .new }
    else entry
  { marked with kcpLinkCount := manager.countWithout id }

def markKcpDisconnected (manager : RouteManager) (id : KcpConv) : RouteManager :=
  let marked := manager.modify id fun entry => { entry with kcpConnected := false }
  { marked with kcpLinkCount := manager.countWithout id }

end Changes

section Select

/-- The next hop towards a node: the node itself or the one that advertised it. -/
def selectNextHop (manager : RouteManager) (target : KcpConv) : Option RouteNextHop :=
  match manager.find target with
  | none => none
  | some entry =>
    if entry.state = .bad then none
    else if entry.kcpConnected then
      some { target := entry.node, nextHop := entry.node, direct := true, hopCount := 1 }
    else
      match entry.source.bind fun source => manager.find source.id with
      | none => none
      | some via =>
        if !via.kcpConnected || via.state = .bad then none
        else some
          { target := entry.node, nextHop := via.node, direct := false
            hopCount := entry.hopCount }

def canAddKcpLink (manager : RouteManager) : Bool :=
  manager.kcpLinkCount < config.maxKcpLinks

/-- The routes that are told to another node: a random part of those worth keeping. -/
def selectRoutesForResponse (shuffle : List RouteEntry → List RouteEntry)
    (manager : RouteManager) : List RouteEntry :=
  let candidates := manager.routes.filter fun entry =>
    !isTerrible config nowMs entry && entry.state ≠ .bad
  let pctLimit := (candidates.length * config.maxResponsePercent + 99) / 100
  (shuffle candidates).take (max 1 (min config.maxResponseRoutes pctLimit))

def usable (entry : RouteEntry) : Bool :=
  entry.kcpConnected && entry.state ≠ .bad && 0 < routeScore double config nowMs entry

/-- The usable route with the best score; of several the first in the table. -/
def selectDefaultNextHop (manager : RouteManager) : Option RouteNextHop :=
  ((manager.routes.filter (usable double config nowMs)).argmax
    (routeScore double config nowMs)).map fun entry =>
      { target := entry.node, nextHop := entry.node, direct := true, hopCount := 1 }

end Select

end RouteManager

end IotProxy.Proxy
