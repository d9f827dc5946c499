import IotProxy.Proxy.KcpTunnel
import IotProxy.Proxy.LinkAuthentication

/-!
# Links and connected routes

The discovery service has a callback that adds a link to the tunnel. The tunnel and the route
manager each keep a table and a limit: a route is marked as connected after the callback has
returned, and the limits are checked without reserving anything.

The tunnel's own check is made under the lock under which the link is added, and links are never
removed.
-/

namespace IotProxy.Proxy

open EventSystem (Run)
open Interleaving RouteManager Option List DiscoveryThreads

namespace KcpTunnel

variable {config : KcpTunnelConfig} {tunnel : KcpTunnel} {peer : NodeAddress} {conv id : KcpConv}

/-- `start`, up to the binding of the socket. There is no tunnel if the peer has no address. -/
def start (config : KcpTunnelConfig) : Option KcpTunnel :=
  if config.peer.endpoint.host.isEmpty || config.peer.endpoint.port = 0 then
    some { running := true }
  else
    (makeSockaddr config.peer.endpoint).map fun addr =>
      (addPeerLink config { running := true, peerAddr := addr } config.peer config.peer.id).1

def linked (tunnel : KcpTunnel) (id : KcpConv) : Bool :=
  (tunnel.findLink id).isSome

/-- What holds of the links of a running tunnel: no two are for the same node, the limit is kept, and
the nodes can be reached. -/
structure LinkTable (config : KcpTunnelConfig) (tunnel : KcpTunnel) : Prop where
  running : tunnel.running = true
  distinct : Table.Distinct (·.peer.id) tunnel.peerLinks
  bounded : tunnel.peerLinks.length ≤ config.maxPeerLinks
  valid : ∀ link ∈ tunnel.peerLinks, validRouteNode link.peer = true

variable (config tunnel peer conv) in
theorem addPeerLink_cases :
    tunnel.addPeerLink config peer conv = (tunnel, false) ∨
      ∃ link : PeerLink, link.peer = peer ∧ validRouteNode peer = true ∧
        (tunnel.linked peer.id = true ∨ tunnel.peerLinks.length < config.maxPeerLinks) ∧
        tunnel.addPeerLink config peer conv =
          ({ tunnel with
              peerLinks := link :: tunnel.peerLinks.filter (·.peer.id ≠ peer.id) }, true) := by
  unfold addPeerLink
  by_cases invalid : (peer.endpoint.host.isEmpty || decide (peer.endpoint.port = 0) ||
      peer.id.empty || conv.empty) = true
  · exact .inl (if_pos invalid)
  rw [if_neg invalid]
  cases makeSockaddr peer.endpoint with
  | none => exact .inl rfl
  | some addr =>
    dsimp only
    by_cases full : ((tunnel.findLink peer.id).isNone &&
        decide (config.maxPeerLinks ≤ tunnel.peerLinks.length)) = true
    · exact .inl (if_pos full)
    · right
      refine ⟨{ peer, conv, addr }, rfl, ?_, ?_, if_neg full⟩
      · simp only [Bool.or_eq_true, not_or, decide_eq_true_eq, Bool.not_eq_true] at invalid
        simp [validRouteNode, invalid]
      · cases found : tunnel.findLink peer.id with
        | some link => simp [linked, found]
        | none =>
          right
          simpa [found] using full

theorem LinkTable.addPeerLink (table : LinkTable config tunnel) (peer : NodeAddress)
    (conv : KcpConv) : LinkTable config (tunnel.addPeerLink config peer conv).1 := by
  rcases addPeerLink_cases config tunnel peer conv with same | ⟨link, rfl, valid, room, added⟩
  · rw [same]
    exact table
  · rw [added]
    set others := tunnel.peerLinks.filter (·.peer.id ≠ link.peer.id) with isOthers
    refine ⟨table.running, ?_, ?_, ?_⟩
    · apply Table.Distinct.cons (table.distinct.filter _)
      rw [Table.find_eq_none]
      intro other mem
      simpa using of_mem_filter mem
    · have bounded := table.bounded
      have fewer : others.length + 1 ≤ config.maxPeerLinks := by
        rcases room with known | free
        · -- The link that is replaced is not among the others.
          obtain ⟨old, found⟩ := isSome_iff_exists.mp known
          have dropped : others.length < tunnel.peerLinks.length := by
            apply length_filter_lt_length_iff_exists.mpr
            exact ⟨old, mem_of_find?_eq_some found, by simpa using List.find?_some found⟩
          omega
        · have kept : others.length ≤ tunnel.peerLinks.length := length_filter_le _ _
          omega
      exact fewer
    · intro other mem
      rcases mem_cons.mp mem with rfl | old
      · exact valid
      · exact table.valid other (mem_of_mem_filter old)

theorem linked_addPeerLink (tunnel : KcpTunnel) (peer : NodeAddress) (conv id : KcpConv) :
    (tunnel.addPeerLink config peer conv).1.linked id =
      (tunnel.linked id || ((tunnel.addPeerLink config peer conv).2 && id = peer.id)) := by
  rcases addPeerLink_cases config tunnel peer conv with same | ⟨link, rfl, -, -, added⟩
  · simp [same]
  · rw [added]
    by_cases same : id = link.peer.id
    · simp [linked, findLink, same]
    · have kept : Table.find (·.peer.id) (tunnel.peerLinks.filter fun other =>
          other.peer.id ≠ link.peer.id) id = Table.find (·.peer.id) tunnel.peerLinks id :=
        Table.find_drop_of_ne same
      have found : KcpTunnel.findLink { tunnel with
          peerLinks := link :: tunnel.peerLinks.filter (·.peer.id ≠ link.peer.id) } id =
          tunnel.findLink id := by
        rw [findLink, List.find?_cons_of_neg (by simpa using Ne.symm same)]
        exact kept
      rw [linked, linked, found, decide_eq_false same, Bool.and_false, Bool.or_false]

theorem valid_of_addPeerLink (added : (tunnel.addPeerLink config peer conv).2 = true) :
    validRouteNode peer = true := by
  rcases addPeerLink_cases config tunnel peer conv with same | ⟨-, -, valid, -, -⟩
  · rw [same] at added
    cases added
  · exact valid

theorem LinkTable.start (started : KcpTunnel.start config = some tunnel) :
    LinkTable config tunnel := by
  have empty : ∀ addr, LinkTable config { running := true, peerAddr := addr } := by
    intro addr
    exact ⟨rfl, Table.distinct_nil, Nat.zero_le _, by simp⟩
  rw [KcpTunnel.start] at started
  split_ifs at started
  · cases started
    exact empty _
  · obtain ⟨addr, -, rfl⟩ := map_eq_some_iff.mp started
    exact (empty addr).addPeerLink _ _

theorem linked_start (started : KcpTunnel.start config = some tunnel)
    (linked : tunnel.linked id = true) : id = config.peer.id := by
  rw [KcpTunnel.start] at started
  split_ifs at started
  · cases started
    cases linked
  · obtain ⟨addr, -, rfl⟩ := map_eq_some_iff.mp started
    rw [linked_addPeerLink, Bool.or_eq_true, Bool.and_eq_true, decide_eq_true_eq] at linked
    rcases linked with none | ⟨-, same⟩
    · cases none
    · exact same

theorem LinkTable.sendFrameTo (table : LinkTable config tunnel) (linked : tunnel.linked id = true)
    (answers : TunnelAnswers) (type : TunnelFrameType) {streamId : ℕ} (payload : Bytes)
    (valid : streamId ≠ 0) :
    ∃ link, tunnel.findLink id = some link ∧
      tunnel.sendFrameTo answers id type streamId payload =
        if answers.managerSend link.session (encodeTunnelFrame type streamId payload) then
          some link.session
        else none := by
  obtain ⟨link, found⟩ := isSome_iff_exists.mp linked
  have same : link.peer.id = id := by simpa using List.find?_some found
  have nonempty : id.empty = false := by
    have reachable := table.valid link (mem_of_find?_eq_some found)
    simp only [validRouteNode, Bool.and_eq_true, Bool.not_eq_true'] at reachable
    rw [← same]
    exact reachable.2
  refine ⟨link, found, ?_⟩
  rw [KcpTunnel.sendFrameTo, if_neg (by simp [table.running, nonempty, valid]), found]

end KcpTunnel

/-- The locked sections of the runtime's link callback: the number of links is read, and the link is
added. -/
inductive LinkStage where
  | count (peer : NodeAddress) (conv : KcpConv)
  | add (peer : NodeAddress) (conv : KcpConv)

structure LinkRuntime extends calls : DiscoveryCalls where
  discovery : DiscoveryConfig
  tunnel : KcpTunnelConfig
  admission : AdmissionControlConfig := {}

namespace LinkRuntime

variable (runtime : LinkRuntime)

def linkStep (tunnel : KcpTunnel) : LinkStage → KcpTunnel × (LinkStage ⊕ Bool)
  | .count peer conv =>
    (tunnel,
      if AdmissionControl.canAcceptKcpLink runtime.admission tunnel.peerLinks.length then
        .inl (.add peer conv)
      else .inr false)
  | .add peer conv =>
    let (tunnel, added) := tunnel.addPeerLink runtime.tunnel peer conv
    (tunnel, .inr added)

def setup : DiscoverySetup KcpTunnel LinkStage where
  calls := runtime.calls
  config := runtime.discovery
  callbacks :=
    { kcpLink := some .count
      linkStep := runtime.linkStep
      kcpAdmission := some fun tunnel _ =>
        AdmissionControl.canAcceptKcpLink runtime.admission tunnel.peerLinks.length }

def loadedRoutes (nowMs : ℤ) (capability : NodeCapability) (file : Option Bytes) : RouteManager :=
  let loaded := (RouteManager.loadJsonFile runtime.double (routeManagerConfig runtime.discovery)
    nowMs {} runtime.library runtime.discovery.id file).1
  (runtime.discovery.addRoute runtime.calls nowMs loaded (selfNode runtime.discovery) none true
    0 (some capability)).1

def started (nowMs : ℤ) (capability : NodeCapability) (file : Option Bytes) :
    Option (DiscoveryThreads KcpTunnel LinkStage) :=
  (KcpTunnel.start runtime.tunnel).map fun tunnel =>
    { shared := { routes := runtime.loadedRoutes nowMs capability file, links := tunnel } }

end LinkRuntime

section Start

variable {runtime : LinkRuntime} {nowMs : ℤ} {capability : NodeCapability} {file : Option Bytes}

theorem loadedRoutes_eq : runtime.loadedRoutes nowMs capability file =
    (RouteManager.loadJsonFile runtime.double (routeManagerConfig runtime.discovery) nowMs {}
      runtime.library runtime.discovery.id file).1 := by
  rw [LinkRuntime.loadedRoutes, DiscoveryConfig.addRoute, if_pos]
  simp [selfNode]

theorem distinctIds_loadedRoutes : (runtime.loadedRoutes nowMs capability file).DistinctIds := by
  have empty : RouteManager.DistinctIds {} := Table.distinct_nil
  have performed : RouteManager.perform runtime.double (routeManagerConfig runtime.discovery) {}
      (.loadJsonFile nowMs runtime.library runtime.discovery.id file) =
      some (runtime.loadedRoutes nowMs capability file) := by
    rw [loadedRoutes_eq]
    rfl
  exact empty.perform performed

theorem connected_loadedRoutes (id : KcpConv) :
    (runtime.loadedRoutes nowMs capability file).connected id = false := by
  have unconnected : ∀ entry ∈ (runtime.loadedRoutes nowMs capability file).routes,
      entry.kcpConnected = false := by
    intro entry mem
    have stored : entry ∈ ((RouteFile.read runtime.library (routeManagerConfig runtime.discovery)
        nowMs runtime.discovery.id file).entries.foldl RouteManager.store {}).routes := by
      rw [loadedRoutes_eq, RouteManager.loadJsonFile] at mem
      split_ifs at mem
      · have empty : RouteManager.DistinctIds {} := Table.distinct_nil
        exact (trimmed_trimIfNeeded runtime.double _ nowMs (empty.foldl_store _)).sublist.subset mem
      · exact mem
    rcases mem_foldl_store stored with read | none
    · exact (RouteFile.mem_read read).1
    · cases none
  rw [RouteManager.connected]
  cases found : (runtime.loadedRoutes nowMs capability file).find id with
  | none => rfl
  | some entry => exact unconnected entry (mem_of_find?_eq_some found)

end Start

section Stages

variable {runtime : LinkRuntime} {tunnel links : KcpTunnel} {stage : LinkStage}
  {returned : LinkStage ⊕ Bool}

def LinkStage.peer : LinkStage → NodeAddress
  | .count peer _ => peer
  | .add peer _ => peer

structure LinkStepped (runtime : LinkRuntime) (tunnel links : KcpTunnel) (stage : LinkStage)
    (returned : LinkStage ⊕ Bool) : Prop where
  table : KcpTunnel.LinkTable runtime.tunnel tunnel → KcpTunnel.LinkTable runtime.tunnel links
  /-- Links are only added, and only for the peer of a call that returns true. -/
  linked : ∀ id, links.linked id = true ↔
    tunnel.linked id = true ∨ returned = .inr true ∧ id = stage.peer.id
  valid : returned = .inr true → validRouteNode stage.peer = true
  next : ∀ next, returned = .inl next → next.peer = stage.peer

theorem linkStep_stepped (result : runtime.linkStep tunnel stage = (links, returned)) :
    LinkStepped runtime tunnel links stage returned := by
  cases stage with
  | count peer conv =>
    rw [LinkRuntime.linkStep] at result
    cases result
    constructor
    · exact id
    · intro id
      split_ifs <;> simp
    · split_ifs <;> simp
    · intro next
      split_ifs
      · rintro ⟨⟩
        rfl
      · simp
  | add peer conv =>
    have added : ((tunnel.addPeerLink runtime.tunnel peer conv).1,
        .inr (tunnel.addPeerLink runtime.tunnel peer conv).2) = (links, returned) := result
    obtain ⟨rfl, rfl⟩ := Prod.mk.inj added
    constructor
    · intro table
      exact table.addPeerLink peer conv
    · intro id
      rw [KcpTunnel.linked_addPeerLink, Bool.or_eq_true, Bool.and_eq_true, decide_eq_true_eq,
        Sum.inr.injEq]
      rfl
    · rw [Sum.inr.injEq]
      exact KcpTunnel.valid_of_addPeerLink
    · simp

end Stages

variable {nowMs : ℤ}

section Backed

/-- What holds of an action that is pending: a route is only connected after there is a link. -/
def Supported (links : KcpTunnel) : DiscoveryAction LinkStage → Prop
  | .addRoute node _ kcpConnected _ _ =>
    kcpConnected = true → links.linked node.id = true ∧ validRouteNode node = true
  | .markSuccess id kcpConnected => kcpConnected = true → links.linked id = true
  | .linkStage stage peer _ => stage.peer = peer
  | _ => True

structure Backed (runtime : LinkRuntime) (shared : DiscoveryShared KcpTunnel)
    (calls : List (List (DiscoveryAction LinkStage))) : Prop where
  distinct : shared.routes.DistinctIds
  table : KcpTunnel.LinkTable runtime.tunnel shared.links
  linked : ∀ id, shared.routes.connected id = true → shared.links.linked id = true
  pending : ∀ action ∈ pending calls, Supported shared.links action

variable {runtime : LinkRuntime} {state : DiscoveryThreads KcpTunnel LinkStage}
  {event : DiscoveryEvent} {shared : DiscoveryShared KcpTunnel}
  {calls : List (List (DiscoveryAction LinkStage))} {id : KcpConv}

variable {links : KcpTunnel} {action : DiscoveryAction LinkStage}

theorem Supported.mono {later : KcpTunnel}
    (grows : ∀ id, links.linked id = true → later.linked id = true)
    (supported : Supported links action) : Supported later action := by
  cases action with
  | addRoute =>
    intro connects
    exact (supported connects).imp_left (grows _)
  | markSuccess =>
    intro connects
    exact grows _ (supported connects)
  | linkStage => exact supported
  | _ => trivial

theorem linked_of_steps (steps : DiscoveryThreads.Steps runtime.setup state event shared calls)
    (linked : state.shared.links.linked id = true) : shared.links.linked id = true := by
  cases steps with
  | begun | rehashed => exact linked
  | acted next acts =>
    cases acts with
    | continued result | returned result =>
      exact ((linkStep_stepped result).linked id).mpr (.inl linked)
    | _ => exact linked

theorem supported_begins {call : List (DiscoveryAction LinkStage)}
    (begins : DiscoveryThreads.Begins runtime.setup call) :
    ∀ action ∈ call, Supported links action := by
  cases begins with
  | session => simp [sessionActions, Supported]
  | dial => simp [dialActions, Supported]
  | control proposals =>
    intro action mem
    obtain ⟨item, rfl⟩ := proposals action mem
    trivial

theorem supported_afterLink {linked : Bool} {peer : NodeAddress}
    {cause : LinkCause} (isLinked : linked = true → links.linked peer.id = true ∧
      validRouteNode peer = true) :
    ∀ action ∈ afterLink linked peer cause, Supported links action := by
  cases linked with
  | false => simp [afterLink, Supported]
  | true =>
    have there := isLinked rfl
    simp [afterLink, Supported, there]

theorem supported_acts {answers : ActionAnswers}
    {before : DiscoveryShared KcpTunnel} {more : List (DiscoveryAction LinkStage)}
    (acts : Acts runtime.setup before answers action shared more)
    (supported : Supported before.links action) : ∀ action ∈ more, Supported shared.links action := by
  cases acts with
  | addRoute | markAttempt | markSuccess | markFailure | ended | unusable | proposed | full
  | refused => simp
  | reached | unreached | room | admitted => simp [Supported]
  | @answered node line actions arrived read =>
    intro action mem
    rcases mem_append.mp mem with isNew | again
    · rcases ensures_responseActions node line actions read action isNew with
        ⟨item, rfl⟩ | ⟨peer, conv, capability, rfl⟩ <;> trivial
    · cases mem_singleton.mp again
      trivial
  | unset isUnset => cases isUnset
  | called isSet =>
    cases isSet
    simp [Supported, LinkStage.peer]
  | continued result =>
    have isPeer := (linkStep_stepped result).next _ rfl
    have samePeer : _ = _ := supported
    simpa [Supported, isPeer] using samePeer
  | returned result =>
    have stepped := linkStep_stepped result
    have samePeer : _ = _ := supported
    apply supported_afterLink
    rintro rfl
    rw [← samePeer]
    exact ⟨(stepped.linked _).mpr (.inr ⟨rfl, rfl⟩), stepped.valid rfl⟩

theorem connected_addRoute_iff {config : DiscoveryConfig} {discoveryCalls : DiscoveryCalls}
    {routes : RouteManager} {node : NodeAddress} {source : Option NodeAddress}
    {kcpConnected : Bool} {advertisedHopCount : ℕ} {capability : Option NodeCapability}
    (distinct : routes.DistinctIds) (id : KcpConv) :
    ((config.addRoute discoveryCalls nowMs routes node source kcpConnected advertisedHopCount
      capability).1.connected id = true → routes.connected id = true ∨
      kcpConnected = true ∧ id = node.id) ∧
      (routes.connected id = true → (config.addRoute discoveryCalls nowMs routes node source
        kcpConnected advertisedHopCount capability).1.connected id = true) := by
  rw [DiscoveryConfig.addRoute]
  split_ifs
  · exact ⟨.inl, fun connected => connected⟩
  · exact (addRoute_outcome discoveryCalls.double (routeManagerConfig config)
      distinct).connected_iff distinct id

theorem linked_acts {answers : ActionAnswers}
    {before : DiscoveryShared KcpTunnel} {more : List (DiscoveryAction LinkStage)}
    (acts : Acts runtime.setup before answers action shared more)
    (distinct : before.routes.DistinctIds)
    (linked : ∀ id, before.routes.connected id = true → before.links.linked id = true)
    (supported : Supported before.links action) (id : KcpConv)
    (connected : shared.routes.connected id = true) : shared.links.linked id = true := by
  cases acts with
  | @addRoute node source kcpConnected =>
    rcases (connected_addRoute_iff distinct id).1 connected with already | ⟨connects, rfl⟩
    · exact linked id already
    · exact (supported connects).1
  | proposed =>
    rcases (connected_addRoute_iff distinct id).1 connected with already | ⟨connects, -⟩
    · exact linked id already
    · cases connects
  | markAttempt =>
    rw [connected_markAttempt] at connected
    exact linked id connected
  | markSuccess =>
    rw [connected_markSuccess, Bool.or_eq_true, Bool.and_eq_true, Bool.and_eq_true,
      decide_eq_true_eq] at connected
    rcases connected with already | ⟨⟨connects, rfl⟩, -⟩
    · exact linked id already
    · exact supported connects
  | markFailure =>
    rw [connected_markFailure, Bool.and_eq_true] at connected
    exact linked id connected.1
  | continued result | returned result =>
    exact ((linkStep_stepped result).linked id).mpr (.inl (linked id connected))
  | _ => exact linked id connected

theorem Backed.steps (backed : Backed runtime state.shared state.calls)
    (steps : DiscoveryThreads.Steps runtime.setup state event shared calls) :
    Backed runtime shared calls := by
  have grows : ∀ id, state.shared.links.linked id = true → shared.links.linked id = true :=
    fun _ => linked_of_steps steps
  cases steps with
  | begun _ begins =>
    refine ⟨backed.distinct, backed.table, backed.linked, ?_⟩
    exact forall_pending_start backed.pending (fun _ supported => supported)
      (supported_begins begins)
  | @acted index answers action _ more next acts =>
    have supported := backed.pending action (mem_pending_of_next next)
    refine ⟨distinctIds_of_acts acts backed.distinct, ?_,
      linked_acts acts backed.distinct backed.linked supported, ?_⟩
    · cases acts with
      | continued result | returned result =>
        exact (linkStep_stepped result).table backed.table
      | _ => exact backed.table
    · exact forall_pending_resume next backed.pending (fun _ supported => supported.mono grows)
        (supported_acts acts supported)
  | @rehashed order same =>
    refine ⟨Table.Distinct.perm backed.distinct same, backed.table, ?_, backed.pending⟩
    intro id connected
    rw [connected_rehash backed.distinct same] at connected
    exact backed.linked id connected

theorem Backed.started {capability : NodeCapability} {file : Option Bytes}
    (started : runtime.started nowMs capability file = some state) :
    Backed runtime state.shared state.calls := by
  obtain ⟨tunnel, starts, rfl⟩ := map_eq_some_iff.mp started
  refine ⟨distinctIds_loadedRoutes, .start starts, ?_, by simp [Interleaving.pending]⟩
  intro id connected
  rw [connected_loadedRoutes] at connected
  cases connected

theorem Backed.run {condition : DiscoveryThreads KcpTunnel LinkStage → DiscoveryEvent → Prop}
    {events : List DiscoveryEvent} {finish : DiscoveryThreads KcpTunnel LinkStage}
    (backed : Backed runtime state.shared state.calls)
    (run : Run (step runtime.setup) condition state events finish) :
    Backed runtime finish.shared finish.calls := by
  apply run.invariant
  · exact backed
  · intro before after event _ stepped backed
    exact backed.steps (steps_of_step stepped)

theorem linked_of_run {condition : DiscoveryThreads KcpTunnel LinkStage → DiscoveryEvent → Prop}
    {events : List DiscoveryEvent} {finish : DiscoveryThreads KcpTunnel LinkStage}
    (run : Run (step runtime.setup) condition state events finish)
    (linked : state.shared.links.linked id = true) : finish.shared.links.linked id = true := by
  apply run.invariant
  · exact linked
  · intro before after event _ stepped linked
    exact linked_of_steps (steps_of_step stepped) linked

theorem Backed.connectedCount_le (backed : Backed runtime shared calls) :
    shared.routes.connectedCount ≤ shared.links.peerLinks.length := by
  set ids := (shared.routes.routes.filter (·.kcpConnected)).map (·.node.id) with isIds
  have distinct : ids.Nodup := backed.distinct.filter _
  have among : ids ⊆ shared.links.peerLinks.map (·.peer.id) := by
    intro id mem
    obtain ⟨entry, isEntry, rfl⟩ := mem_map.mp mem
    obtain ⟨known, connected⟩ := mem_filter.mp isEntry
    have linked := backed.linked _ (connected_of_mem backed.distinct known connected)
    obtain ⟨link, found⟩ := isSome_iff_exists.mp linked
    have same : link.peer.id = entry.node.id := by simpa using List.find?_some found
    exact mem_map.mpr ⟨link, mem_of_find?_eq_some found, same⟩
  have fewer := (subperm_of_subset distinct among).length_le
  simpa [isIds, RouteManager.connectedCount, countP_eq_length_filter] using fewer

end Backed

/-- In every state that the runtime reaches, a connected route has a link, and there are at most as
many of them as the tunnel may have links. So a frame for the next hop that was chosen in such a
state is handed to the KCP manager, even if it is sent later. -/
theorem connected_routes_linked {runtime : LinkRuntime} {nowMs : ℤ} {capability : NodeCapability}
    {file : Option Bytes} {start finish : DiscoveryThreads KcpTunnel LinkStage}
    {events : List DiscoveryEvent} (started : runtime.started nowMs capability file = some start)
    (run : Run (DiscoveryThreads.step runtime.setup) (fun _ _ => True) start events finish) :
    (∀ entry ∈ finish.shared.routes.routes, entry.kcpConnected = true →
        finish.shared.links.linked entry.node.id = true) ∧
      (∀ now hop, finish.shared.routes.selectDefaultNextHop runtime.double
          (routeManagerConfig runtime.discovery) now = some hop →
        ∀ later last, Run (DiscoveryThreads.step runtime.setup) (fun _ _ => True) finish later last →
        ∀ answers type streamId payload, streamId ≠ 0 →
          ∃ link, last.shared.links.findLink hop.nextHop.id = some link ∧
            last.shared.links.sendFrameTo answers hop.nextHop.id type streamId payload =
              if answers.managerSend link.session (encodeTunnelFrame type streamId payload) then
                some link.session
              else none) ∧
      finish.shared.routes.connectedCount ≤ runtime.tunnel.maxPeerLinks := by
  have backed := (Backed.started started).run run
  have linked : ∀ entry ∈ finish.shared.routes.routes, entry.kcpConnected = true →
      finish.shared.links.linked entry.node.id = true := by
    intro entry mem connected
    exact backed.linked _ (connected_of_mem backed.distinct mem connected)
  refine ⟨linked, ?_, backed.connectedCount_le.trans backed.table.bounded⟩
  intro now hop chosen later last goesOn answers type streamId payload valid
  obtain ⟨entry, best, rfl⟩ := map_eq_some_iff.mp chosen
  obtain ⟨known, usable⟩ := mem_filter.mp (argmax_mem best)
  simp only [RouteManager.usable, Bool.and_eq_true] at usable
  have still := linked_of_run goesOn (linked entry known usable.1.1)
  exact (backed.run goesOn).table.sendFrameTo still answers type payload valid

section Example

def oneLink : LinkRuntime where
  discovery := { id := .ofUint32 1, maxKcpLinks := 1 }
  tunnel :=
    { identity := .ofUint32 1, maxPeerLinks := 1
      peer := { endpoint := { host := [], port := 0 }, id := .ofUint32 0 } }
  library := nlohmann
  double := .exact
  verifyNodeMessage _ _ _ := false

def oneLinkStarted : DiscoveryThreads KcpTunnel LinkStage where
  shared := { links := { running := true } }

def dialAndLink : List DiscoveryEvent :=
  dialAndOffer (.ofUint32 2) ++ List.replicate 5 (.act 0 { nowMs := 1000 })

/-- One node is dialled and linked. -/
theorem dialled_route_linked :
    oneLink.started 0 {} none = some oneLinkStarted ∧
      ∃ finish, Run (DiscoveryThreads.step oneLink.setup) (fun _ _ => True) oneLinkStarted
        dialAndLink finish ∧
        finish.shared.routes.connectedCount = 1 ∧
        (∀ entry ∈ finish.shared.routes.routes, entry.kcpConnected = true →
          finish.shared.links.linked entry.node.id = true) ∧
        finish.shared.routes.connectedCount ≤ 1 := by
  have started : oneLink.started 0 {} none = some oneLinkStarted := rfl
  refine ⟨started, ?_⟩
  apply Run.exists_of_execute fun finish => finish.shared.routes.connectedCount = 1
  · decide +kernel
  · intro finish run connected
    have results := connected_routes_linked started run
    exact ⟨of_decide_eq_true connected, results.1, results.2.2⟩

end Example

section Slots

def Connects (id : KcpConv) (action : DiscoveryAction LinkStage) : Prop :=
  ∃ node source hopCount capability,
    action = .addRoute node source true hopCount capability ∧ node.id = id

/-- What holds of a pending action if the node makes no link to itself. -/
def Elsewhere (own : KcpConv) : DiscoveryAction LinkStage → Prop
  | .addRoute node _ kcpConnected _ _ => kcpConnected = true → node.id ≠ own
  | .linkStage _ peer _ => peer.id ≠ own
  | _ => True

/-- Every link is the configured one or that of a connected route, or the route is about to become
connected. -/
structure Slots (runtime : LinkRuntime) (shared : DiscoveryShared KcpTunnel)
    (calls : List (List (DiscoveryAction LinkStage))) : Prop where
  fits : shared.routes.routes.length ≤ runtime.discovery.routeManager.maxRoutes
  held : ∀ id, shared.links.linked id = true → id = runtime.tunnel.peer.id ∨
    shared.routes.connected id = true ∨ ∃ action ∈ pending calls, Connects id action
  others : ∀ action ∈ pending calls, Elsewhere runtime.discovery.id action

/-- Whether an action is no failure of a node with a link and no link of the node to itself. -/
def sparesSlot (runtime : LinkRuntime) (links : KcpTunnel) :
    Option (DiscoveryAction LinkStage) → Bool
  | some (.markFailure id) => !links.linked id || id = runtime.tunnel.peer.id
  | some (.callLink peer _ _) => peer.id ≠ runtime.discovery.id
  | _ => true

/-- The table is not full of connected routes, and no failure is recorded for a node with a link. -/
def SparesSlots (runtime : LinkRuntime) (state : DiscoveryThreads KcpTunnel LinkStage) :
    DiscoveryEvent → Prop
  | .act index _ =>
    state.shared.routes.connectedCount < runtime.discovery.routeManager.maxRoutes ∧
      sparesSlot runtime state.shared.links (next? state.calls index) = true
  | _ => True

variable {runtime : LinkRuntime} {state : DiscoveryThreads KcpTunnel LinkStage}
  {event : DiscoveryEvent} {shared before : DiscoveryShared KcpTunnel}
  {calls : List (List (DiscoveryAction LinkStage))} {id : KcpConv} {answers : ActionAnswers}
  {action : DiscoveryAction LinkStage} {more : List (DiscoveryAction LinkStage)}

theorem elsewhere_begins {call : List (DiscoveryAction LinkStage)} {own : KcpConv}
    (begins : DiscoveryThreads.Begins runtime.setup call) : ∀ action ∈ call, Elsewhere own action := by
  cases begins with
  | session => simp [sessionActions, Elsewhere]
  | dial => simp [dialActions, Elsewhere]
  | control proposals =>
    intro action mem
    obtain ⟨item, rfl⟩ := proposals action mem
    trivial

theorem elsewhere_acts (acts : Acts runtime.setup before answers action shared more)
    (spares : sparesSlot runtime before.links (some action) = true)
    (elsewhere : Elsewhere runtime.discovery.id action) :
    ∀ action ∈ more, Elsewhere runtime.discovery.id action := by
  cases acts with
  | addRoute | markAttempt | markSuccess | markFailure | ended | unusable | proposed | full
  | refused => simp
  | reached | unreached | room | admitted => simp [Elsewhere]
  | @answered node line actions arrived read =>
    intro action mem
    rcases mem_append.mp mem with isNew | again
    · rcases ensures_responseActions node line actions read action isNew with
        ⟨item, rfl⟩ | ⟨peer, conv, capability, rfl⟩ <;> trivial
    · cases mem_singleton.mp again
      trivial
  | unset isUnset => cases isUnset
  | called isSet => simpa [Elsewhere, sparesSlot] using spares
  | continued result => simpa [Elsewhere] using elsewhere
  | @returned stage linked peer cause links result =>
    cases linked with
    | false => simp [afterLink, Elsewhere]
    | true => simpa [afterLink, Elsewhere] using elsewhere

theorem length_addRoute_le {routes : RouteManager} {node : NodeAddress}
    {source : Option NodeAddress} {kcpConnected : Bool} {advertisedHopCount : ℕ}
    {capability : Option NodeCapability} {config : DiscoveryConfig}
    {discoveryCalls : DiscoveryCalls} (distinct : routes.DistinctIds)
    (fits : routes.routes.length ≤ config.routeManager.maxRoutes) :
    (config.addRoute discoveryCalls nowMs routes node source kcpConnected advertisedHopCount
      capability).1.routes.length ≤ config.routeManager.maxRoutes := by
  rw [DiscoveryConfig.addRoute]
  split_ifs
  · exact fits
  · change _ ≤ (routeManagerConfig config).maxRoutes
    exact (addRoute_outcome discoveryCalls.double (routeManagerConfig config)
      distinct).length_le fits

theorem fits_acts (acts : Acts runtime.setup before answers action shared more)
    (distinct : before.routes.DistinctIds)
    (fits : before.routes.routes.length ≤ runtime.discovery.routeManager.maxRoutes) :
    shared.routes.routes.length ≤ runtime.discovery.routeManager.maxRoutes := by
  cases acts with
  | addRoute | proposed => exact length_addRoute_le distinct fits
  | markAttempt | markSuccess | markFailure => exact le_of_eq_of_le Table.length_modify fits
  | _ => exact fits

theorem connected_of_connects (near : 1 ≤ runtime.discovery.routeManager.maxRouteHops)
    (acts : Acts runtime.setup before answers action shared more)
    (fits : before.routes.routes.length ≤ runtime.discovery.routeManager.maxRoutes)
    (room : before.routes.connectedCount < runtime.discovery.routeManager.maxRoutes)
    (supported : Supported before.links action) (elsewhere : Elsewhere runtime.discovery.id action)
    (connects : Connects id action) : shared.routes.connected id = true := by
  obtain ⟨node, source, hopCount, capability, rfl, rfl⟩ := connects
  cases acts
  have valid := (supported rfl).2
  have other : node.id ≠ runtime.discovery.id := elsewhere rfl
  have accepted : ¬(node.endpoint.host.isEmpty || decide (node.endpoint.port = 0) ||
      node.id.empty || decide (node.id = runtime.setup.config.id)) = true := by
    simp only [validRouteNode, Bool.and_eq_true, Bool.not_eq_true', bne_iff_ne] at valid
    have differs : node.id ≠ runtime.setup.config.id := other
    simp [valid, differs]
  rw [DiscoveryConfig.addRoute, if_neg accepted]
  exact connected_addRoute_self runtime.double valid near fits room

theorem connected_acts (acts : Acts runtime.setup before answers action shared more)
    (distinct : before.routes.DistinctIds) (connected : before.routes.connected id = true) :
    shared.routes.connected id = true ∨ action = .markFailure id := by
  cases acts with
  | addRoute | proposed => exact .inl ((connected_addRoute_iff distinct id).2 connected)
  | markAttempt =>
    rw [connected_markAttempt]
    exact .inl connected
  | markSuccess =>
    rw [connected_markSuccess, connected, Bool.true_or]
    exact .inl rfl
  | @markFailure other =>
    by_cases same : id = other
    · exact .inr (congrArg _ same.symm)
    · rw [connected_markFailure, connected]
      simp [same]
  | _ => exact .inl connected

theorem connects_of_linked (acts : Acts runtime.setup before answers action shared more)
    (supported : Supported before.links action) (linked : shared.links.linked id = true) :
    before.links.linked id = true ∨ ∃ action ∈ more, Connects id action := by
  cases acts with
  | continued result =>
    rcases ((linkStep_stepped result).linked id).mp linked with already | ⟨isNew, -⟩
    · exact .inl already
    · cases isNew
  | @returned stage _ peer cause links result =>
    rcases ((linkStep_stepped result).linked id).mp linked with already | ⟨isNew, rfl⟩
    · exact .inl already
    · have samePeer : stage.peer = peer := supported
      cases isNew
      refine .inr ⟨_, mem_cons_self, peer, cause.source, 0, cause.capability, rfl, ?_⟩
      rw [samePeer]
  | _ => exact .inl linked

theorem Slots.steps (near : 1 ≤ runtime.discovery.routeManager.maxRouteHops)
    (slots : Slots runtime state.shared state.calls)
    (backed : Backed runtime state.shared state.calls) (spares : SparesSlots runtime state event)
    (steps : DiscoveryThreads.Steps runtime.setup state event shared calls) :
    Slots runtime shared calls := by
  cases steps with
  | begun _ begins =>
    refine ⟨slots.fits, ?_, ?_⟩
    · intro id linked
      refine (slots.held id linked).imp_right (.imp_right ?_)
      rintro ⟨action, mem, connects⟩
      exact ⟨action, mem_pending_start mem, connects⟩
    · exact forall_pending_start slots.others (fun _ elsewhere => elsewhere)
        (elsewhere_begins begins)
  | @acted index answers action _ more next acts =>
    obtain ⟨room, spared⟩ := spares
    rw [next] at spared
    have isPending := mem_pending_of_next next
    have supported := backed.pending action isPending
    have elsewhere := slots.others action isPending
    refine ⟨fits_acts acts backed.distinct slots.fits, ?_, ?_⟩
    · intro id linked
      rcases connects_of_linked acts supported linked with before | ⟨new, mem, connects⟩
      · rcases slots.held id before with configured | connected | ⟨old, mem, connects⟩
        · exact .inl configured
        · rcases connected_acts acts backed.distinct connected with still | rfl
          · exact .inr (.inl still)
          · left
            simpa [sparesSlot, before] using spared
        · right
          rcases mem_pending_resume next mem with rfl | stays
          · exact .inl (connected_of_connects near acts slots.fits room supported elsewhere
              connects)
          · exact .inr ⟨old, stays, connects⟩
      · exact .inr (.inr ⟨new, mem_pending_resume_of_mem next mem, connects⟩)
    · exact forall_pending_resume next slots.others (fun _ elsewhere => elsewhere)
        (elsewhere_acts acts spared elsewhere)
  | @rehashed order same =>
    refine ⟨same.length_eq.trans_le slots.fits, ?_, slots.others⟩
    intro id linked
    rw [connected_rehash backed.distinct same]
    exact slots.held id linked

/-- Links are only those of connected routes, apart from the configured one, as long as no failure is
recorded for a node with a link. -/
theorem links_are_connected_routes {nowMs : ℤ} {capability : NodeCapability} {file : Option Bytes}
    {start finish : DiscoveryThreads KcpTunnel LinkStage} {events : List DiscoveryEvent}
    (started : runtime.started nowMs capability file = some start)
    (near : 1 ≤ runtime.discovery.routeManager.maxRouteHops)
    (fits : start.shared.routes.routes.length ≤ runtime.discovery.routeManager.maxRoutes)
    (run : Run (DiscoveryThreads.step runtime.setup) (SparesSlots runtime) start events finish)
    (settled : ∀ action ∈ pending finish.calls, ∀ id, ¬Connects id action) :
    ∀ link ∈ finish.shared.links.peerLinks, link.peer.id = runtime.tunnel.peer.id ∨
      finish.shared.routes.connected link.peer.id = true := by
  have begins : Slots runtime start.shared start.calls := by
    refine ⟨fits, ?_, ?_⟩
    · obtain ⟨tunnel, starts, rfl⟩ := map_eq_some_iff.mp started
      intro id linked
      exact .inl (KcpTunnel.linked_start starts linked)
    · obtain ⟨tunnel, -, rfl⟩ := map_eq_some_iff.mp started
      simp [Interleaving.pending]
  have both : Slots runtime finish.shared finish.calls ∧
      Backed runtime finish.shared finish.calls := by
    apply run.invariant
    · exact ⟨begins, .started started⟩
    · rintro before after event spares stepped ⟨slots, backed⟩
      have steps := steps_of_step stepped
      exact ⟨slots.steps near backed spares steps, backed.steps steps⟩
  intro link mem
  have linked : finish.shared.links.linked link.peer.id = true := by
    rw [KcpTunnel.linked, KcpTunnel.findLink, List.find?_isSome]
    exact ⟨link, mem, by simp⟩
  rcases both.1.held _ linked with configured | connected | ⟨action, isPending, connects⟩
  · exact .inl configured
  · exact .inr connected
  · exact absurd connects (settled action isPending _)

section Example

instance (runtime : LinkRuntime) (state : DiscoveryThreads KcpTunnel LinkStage)
    (event : DiscoveryEvent) : Decidable (SparesSlots runtime state event) :=
  match event with
  | .act index _ => inferInstanceAs (Decidable
      (state.shared.routes.connectedCount < runtime.discovery.routeManager.maxRoutes ∧
        sparesSlot runtime state.shared.links (next? state.calls index) = true))
  | .session .. | .dial .. | .control .. | .rehash .. => .isTrue trivial

/-- One node is dialled and linked, and nothing is left to do. -/
theorem dialled_link_connected :
    oneLink.started 0 {} none = some oneLinkStarted ∧
      ∃ finish, Run (DiscoveryThreads.step oneLink.setup) (SparesSlots oneLink) oneLinkStarted
        dialAndLink finish ∧
        finish.shared.links.peerLinks.length = 1 ∧
        ∀ link ∈ finish.shared.links.peerLinks, link.peer.id = oneLink.tunnel.peer.id ∨
          finish.shared.routes.connected link.peer.id = true := by
  have started : oneLink.started 0 {} none = some oneLinkStarted := rfl
  refine ⟨started, ?_⟩
  apply Run.exists_of_execute fun finish =>
    finish.shared.links.peerLinks.length = 1 && finish.calls.flatten.isEmpty
  · decide +kernel
  · intro finish run facts
    rw [Bool.and_eq_true, decide_eq_true_eq, List.isEmpty_iff] at facts
    refine ⟨facts.1, links_are_connected_routes started (by decide) (by decide) run ?_⟩
    simp [Interleaving.pending, facts.2]

/-- The node dials its peer once more and does not reach it: the route is given up and the link
stays. No call is under way, and there is no place for another link. -/
theorem given_up_link_stays :
    oneLink.started 0 {} none = some oneLinkStarted ∧
      ∃ finish, Run (DiscoveryThreads.step oneLink.setup) (fun _ _ => True) oneLinkStarted
        (dialAndLink ++ [ .dial dialledNode, .act 1 { nowMs := 2000 }, .act 1 { nowMs := 2000 },
          .act 1 { nowMs := 2000, connected := false }, .act 1 { nowMs := 2000 } ]) finish ∧
        finish.calls.flatten.isEmpty = true ∧ finish.shared.routes.connectedCount = 0 ∧
        finish.shared.links.linked dialledNode.id = true ∧
        dialledNode.id ≠ oneLink.tunnel.peer.id ∧
        (finish.shared.links.addPeerLink oneLink.tunnel (RouteManager.numbered 3)
          (.ofUint32 7)).2 = false := by
  refine ⟨rfl, ?_⟩
  apply Run.exists_of_execute fun finish =>
    finish.calls.flatten.isEmpty && finish.shared.routes.connectedCount = 0 &&
      finish.shared.links.linked dialledNode.id &&
      dialledNode.id ≠ oneLink.tunnel.peer.id &&
      !(finish.shared.links.addPeerLink oneLink.tunnel (RouteManager.numbered 3) (.ofUint32 7)).2
  · decide +kernel
  · intro finish _ facts
    simpa [and_assoc] using facts

end Example

end Slots

end IotProxy.Proxy
