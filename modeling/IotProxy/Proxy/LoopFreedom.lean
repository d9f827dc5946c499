import IotProxy.Proxy.DiscoveryExceptions
import IotProxy.Proxy.RouteNetwork

/-!
# Following next hops

A node that knows a target through another one hands its traffic to that one, which has its own
opinion about the way. The hop counts order the nodes: a path is only taken with a larger hop count
than the one that was told, and a hop count that is not zero only shrinks afterwards.

Zero stands for an unknown distance, which any path replaces, and for the best one, which others
build on.
-/

namespace IotProxy.Proxy

open EventSystem (Run)
open Interleaving RouteManager List
open Json (AccessError)

variable {node : NodeAddress}

section Documents

variable {truncate : Text → ℤ} {entry : RouteEntry}

theorem nodeIdText_routeToJson :
    nodeIdText (routeToJson entry) = .ok (some (convidToHex entry.node.id)) := by
  have found : (routeToJson entry).member "public_key" =
      some (.string (convidToHex entry.node.id)) := by
    apply member_object
    · simp [nodeMembers]
    · intro other mem
      simpa [nodeMembers] using mem
  rw [nodeIdText, Json.stringMember, found]
  rfl

theorem id_of_nodeFromJson (read : nodeFromJson truncate (routeToJson entry) = .ok (some node)) :
    node.id = entry.node.id := by
  rw [nodeFromJson, nodeFromJsonNamed] at read
  split at read
  · split_ifs at read
    · cases read
    · rw [nodeIdText_routeToJson] at read
      simp only [Except.ok_bind, Except.bind_eq_ok] at read
      obtain ⟨host, -, port, -, rest⟩ := read
      split_ifs at rest
      · cases rest
      · rw [parseConvidHex_convidToHex] at rest
        split_ifs at rest
        · cases rest
        · cases rest
          rfl
  · cases read

theorem hopCount_routeToJson (small : entry.hopCount ≤ 255) :
    routeHopCountFromJson truncate (routeToJson entry) = .ok entry.hopCount := by
  have found : (routeToJson entry).member "hop_count" = some (numberJson entry.hopCount) := by
    apply member_object
    · simp
    · intro other mem
      simpa [nodeMembers] using mem
  have literal : Json.storedNumber (Text.itoa entry.hopCount) = .unsigned entry.hopCount := by
    unfold Json.storedNumber
    rw [Json.unsigned?_itoa (by omega)]
  have stored : (numberJson entry.hopCount).getUnsigned truncate 32 = .ok entry.hopCount := by
    have wrapped : ((entry.hopCount : ℤ) % 2 ^ 32).toNat = entry.hopCount := by omega
    rw [numberJson, Json.getUnsigned, Json.getNumber, literal]
    exact congrArg Except.ok wrapped
  rw [routeHopCountFromJson, value_of_member found, stored]
  exact congrArg Except.ok (min_eq_left small)

theorem readRoute_routeToJson {hopCount : ℕ}
    {capability : Option NodeCapability} (small : entry.hopCount ≤ 255)
    (read : readRoute truncate (routeToJson entry) = .ok (some (node, hopCount, capability))) :
    node.id = entry.node.id ∧ hopCount = entry.hopCount := by
  rw [readRoute, Except.bind_eq_ok] at read
  obtain ⟨found, readNode, rest⟩ := read
  cases found with
  | none => cases rest
  | some route =>
    simp only [Except.bind_eq_ok, hopCount_routeToJson small] at rest
    obtain ⟨_, -, _, readHops, done⟩ := rest
    cases readHops
    cases done
    exact ⟨id_of_nodeFromJson readNode, rfl⟩

theorem readsAs_routeToJson {item : Json} {hopCount : ℕ}
    {capability : Option NodeCapability} (small : entry.hopCount ≤ 255)
    (same : readsAs truncate item entry = true)
    (read : readRoute truncate item = .ok (some (node, hopCount, capability))) :
    node.id = entry.node.id ∧ hopCount = entry.hopCount := by
  rw [readsAs, read] at same
  cases written : readRoute truncate (routeToJson entry) with
  | error error =>
    rw [written] at same
    cases same
  | ok content =>
    rw [written] at same
    have isContent := of_decide_eq_true same
    rw [← isContent] at written
    exact readRoute_routeToJson small written

end Documents

/-- An entry for which no path leads through another node. -/
def RouteEntry.directOnly (entry : RouteEntry) : Bool :=
  entry.source.all (·.id = entry.node.id)

section Evolution

/-- What one step of a network can do to the path that a node has for a target. -/
inductive Evolved (replies : List RoutesReply) (own : KcpConv) (before : RouteManager)
    (target : KcpConv) (entry : RouteEntry) : Prop where
  | kept {old : RouteEntry} (was : before.find target = some old)
      (sameSource : entry.source = old.source) (sameHops : entry.hopCount = old.hopCount)
  | linked (other : target ≠ own) (direct : ∀ source ∈ entry.source, source.id = target)
      (hops : entry.hopCount = 1)
  | fresh (other : target ≠ own) (unknown : before.find target = none)
      (noSource : entry.source = none) (bounded : entry.hopCount < 255)
  | learnt {source : NodeAddress} {reply : RoutesReply} {told : RouteEntry} (other : target ≠ own)
      (isSource : entry.source = some source) (isReply : reply ∈ replies)
      (sender : reply.sender = source.id) (isTold : told ∈ reply.entries)
      (same : told.node.id = target) (hops : entry.hopCount = told.hopCount + 1)
      (bounded : entry.hopCount < 255)
      (shorter : ∀ old, before.find target = some old →
        old.hopCount = 0 ∨ entry.hopCount < old.hopCount)

variable {replies : List RoutesReply} {own target id : KcpConv} {before : RouteManager}
  {entry : RouteEntry} {nowMs : ℤ} {node : NodeAddress} {source : Option NodeAddress}
  {kcpConnected : Bool} {hopCount : ℕ} {capability : Option NodeCapability}
  {config : DiscoveryConfig} {calls : DiscoveryCalls}

theorem evolved_of_same (found : before.find target = some entry) :
    Evolved replies own before target entry :=
  .kept found rfl rfl

theorem evolved_modify {change : RouteEntry → RouteEntry}
    (found : (before.modify id change).find target = some entry)
    (keeps : ∀ entry, (change entry).node = entry.node)
    (path : ∀ entry, (change entry).source = entry.source ∧
      (change entry).hopCount = entry.hopCount) :
    Evolved replies own before target entry := by
  rw [find_modify before (fun entry same => (congrArg _ (keeps entry)).trans same)]
    at found
  split_ifs at found with same
  · obtain ⟨old, was, rfl⟩ := Option.map_eq_some_iff.mp found
    exact .kept (same ▸ was) (path old).1 (path old).2
  · exact evolved_of_same found

theorem evolved_markSuccess (foreign : before.find own = none)
    (found : (before.markSuccess nowMs id kcpConnected).find target = some entry) :
    Evolved replies own before target entry := by
  rw [markSuccess_eq] at found
  have changed : (before.modify id (RouteManager.succeeded nowMs kcpConnected)).find target =
      some entry := found
  cases kcpConnected with
  | false => exact evolved_modify changed (fun _ => rfl) (fun _ => ⟨rfl, rfl⟩)
  | true =>
    have keeps : ∀ entry : RouteEntry, entry.node.id = id →
        (RouteManager.succeeded nowMs true entry).node.id = id := fun _ same => same
    rw [find_modify before keeps] at changed
    split_ifs at changed with same
    · obtain ⟨old, was, rfl⟩ := Option.map_eq_some_iff.mp changed
      have other : target ≠ own := by
        rintro rfl
        rw [same] at foreign
        rw [foreign] at was
        cases was
      exact .linked other (by simp [RouteManager.succeeded]) rfl
    · exact evolved_of_same changed

theorem pathChange_addRoute (distinct : before.DistinctIds)
    (found : (config.addRoute calls nowMs before node source kcpConnected hopCount
      capability).1.find target = some entry) :
    before.find target = some entry ∨ target = node.id ∧ node.id ≠ config.id ∧
      localHopCount source kcpConnected hopCount ≤ config.routeManager.maxRouteHops ∧
      RouteManager.PathChange source kcpConnected hopCount (before.find node.id) entry := by
  rw [DiscoveryConfig.addRoute] at found
  split_ifs at found with refused
  · exact .inl found
  · simp only [Bool.or_eq_true, not_or, decide_eq_true_eq] at refused
    rcases (addRoute_outcome calls.double (routeManagerConfig config)
      distinct).pathChange distinct found with same | ⟨same, -, near, change⟩
    · exact .inl same
    · exact .inr ⟨same, refused.2, near, change⟩

theorem evolved_addRoute (distinct : before.DistinctIds)
    (near : config.routeManager.maxRouteHops < 255)
    (direct : ∀ node' ∈ source, kcpConnected = true ∧ node'.id = node.id)
    (found : (config.addRoute calls nowMs before node source kcpConnected hopCount
      capability).1.find target = some entry) :
    Evolved replies config.id before target entry := by
  rcases pathChange_addRoute distinct found with same | ⟨rfl, other, hops, change⟩
  · exact evolved_of_same same
  · cases change with
    | kept was sameSource sameHops => exact .kept was sameSource sameHops
    | linked connects learnt isOne =>
      refine .linked other ?_ isOne
      intro via isVia
      rcases learnt with none | filtered
      · rw [none] at isVia
        cases isVia
      · rw [filtered] at isVia
        exact (direct via (Option.mem_filter_iff.mp isVia).1).2
    | taken unconnected learnt isHops shorter =>
      -- There is no source, so the entry is a new one.
      have noSource : source = none := by
        cases source with
        | none => rfl
        | some via =>
          rw [(direct via rfl).1] at unconnected
          cases unconnected
      subst noSource
      refine .fresh other ?_ learnt ?_
      · cases was : before.find node.id with
        | none => rfl
        | some old => exact absurd (shorter old was).1 (by simp)
      · subst unconnected
        omega

theorem evolved_propose {reply : RoutesReply} {told : RouteEntry} {via : NodeAddress}
    (distinct : before.DistinctIds) (near : config.routeManager.maxRouteHops < 255)
    (isReply : reply ∈ replies) (sender : reply.sender = via.id) (isTold : told ∈ reply.entries)
    (small : told.hopCount < 255) (same : node.id = told.node.id)
    (found : (config.addRoute calls nowMs before node (some via) false told.hopCount
      capability).1.find target = some entry) :
    Evolved replies config.id before target entry := by
  rcases pathChange_addRoute distinct found with unchanged | ⟨rfl, other, hops, change⟩
  · exact evolved_of_same unchanged
  · cases change with
    | kept was sameSource sameHops => exact .kept was sameSource sameHops
    | linked connects => cases connects
    | taken _ learnt isHops shorter =>
      by_cases valid : validRouteNode via = true
      · have isSource : entry.source = some via := by simpa [Option.filter, valid] using learnt
        have further : localHopCount (some via) false told.hopCount = told.hopCount + 1 := by
          simp [localHopCount, valid, Nat.ne_of_lt small]
        rw [further] at isHops hops
        exact .learnt other isSource isReply sender isTold same.symm isHops (by omega)
          fun old was => (shorter old was).2
      · have noSource : entry.source = none := by simpa [Option.filter, valid] using learnt
        refine .fresh other ?_ noSource (by omega)
        cases was : before.find node.id with
        | none => rfl
        | some old => exact absurd (shorter old was).1 (by simpa using valid)

end Evolution

namespace RouteNetwork

variable {Links Stage : Type} {network : RouteNetwork Links Stage}

variable {entry : RouteEntry}

section Honest

/-- What holds of the pending actions of a node: paths come from answers of other nodes. -/
def Honest (truncate : Text → ℤ) (replies : List RoutesReply) : DiscoveryAction Stage → Prop
  | .addRoute node source kcpConnected _ _ =>
    ∀ via ∈ source, kcpConnected = true ∧ via.id = node.id
  | .propose source item => ∀ via ∈ source, ∃ reply ∈ replies, reply.sender = via.id ∧
      ∃ told ∈ reply.entries, readsAs truncate item told = true
  | .callLink peer _ cause => ∀ via ∈ cause.source, via.id = peer.id
  | .linkStage _ peer cause => ∀ via ∈ cause.source, via.id = peer.id
  | _ => True

variable {truncate : Text → ℤ} {replies later : List RoutesReply} {state : RouteNetworkState Links Stage}
  {id : KcpConv} {shared before : DiscoveryShared Links} {answers : ActionAnswers}
  {action : DiscoveryAction Stage} {more : List (DiscoveryAction Stage)}

theorem Honest.mono (grows : replies ⊆ later) (honest : Honest truncate replies action) :
    Honest truncate later action := by
  cases action with
  | propose source item =>
    intro via isVia
    obtain ⟨reply, isReply, told⟩ := honest via isVia
    exact ⟨reply, grows isReply, told⟩
  | _ => exact honest

theorem honest_begins {call : List (DiscoveryAction Stage)} {setup : DiscoverySetup Links Stage}
    (begins : DiscoveryThreads.Begins setup call) :
    ∀ action ∈ call, Honest truncate replies action := by
  cases begins with
  | session => simp [sessionActions, Honest]
  | dial => simp [dialActions, Honest]
  | control proposals =>
    intro action mem
    obtain ⟨item, rfl⟩ := proposals action mem
    simp [Honest]

theorem honest_afterLink {linked : Bool} {peer : NodeAddress} {cause : LinkCause}
    (direct : ∀ via ∈ cause.source, via.id = peer.id) :
    ∀ action ∈ (afterLink linked peer cause : List (DiscoveryAction Stage)),
      Honest truncate replies action := by
  cases linked with
  | false => simp [afterLink, Honest]
  | true => simpa [afterLink, Honest] using direct

theorem honest_responseActions {line : Bytes} {actions : List (DiscoveryAction Stage)}
    (hears : network.heardFrom state id node line = true)
    (read : responseActions (network.setup id) node line = .ok actions) :
    ∀ action ∈ actions, Honest (network.setup id).truncate state.replies action := by
  intro action mem
  simp only [heardFrom, read, all_eq_true] at hears
  have heard := hears action mem
  rcases ensures_responseActions node line actions read action mem with
    ⟨item, rfl⟩ | ⟨peer, conv, capability, rfl⟩
  · simp only [any_eq_true, Bool.and_eq_true, decide_eq_true_eq] at heard
    obtain ⟨reply, isReply, ⟨sender, -⟩, told⟩ := heard
    rintro via ⟨⟩
    exact ⟨reply, isReply, sender, told⟩
  · simp only [Bool.and_eq_true, decide_eq_true_eq] at heard
    rintro via ⟨⟩
    exact heard.1.symm

theorem honest_acts (acts : Acts (network.setup id) before answers action shared more)
    (hears : ∀ node line, action = .readLine node → answers.line = some line →
      network.heardFrom state id node line = true)
    (honest : Honest (network.setup id).truncate state.replies action) :
    ∀ action ∈ more, Honest (network.setup id).truncate state.replies action := by
  cases acts with
  | addRoute | markAttempt | markSuccess | markFailure | ended | unusable | proposed | full
  | refused => simp
  | reached | unreached | room | admitted => simp [Honest, LinkCause.source]
  | @answered node line actions arrived read =>
    intro action mem
    rcases mem_append.mp mem with isNew | again
    · exact honest_responseActions (hears node line rfl arrived) read action isNew
    · cases mem_singleton.mp again
      trivial
  | unset => exact honest_afterLink honest
  | called | continued =>
    intro action mem
    cases mem_singleton.mp mem
    exact honest
  | returned => exact honest_afterLink honest

theorem evolved_acts (acts : Acts (network.setup id) before answers action shared more)
    (near : (network.setup id).config.routeManager.maxRouteHops < 255)
    (honest : Honest (network.setup id).truncate replies action)
    (small : ∀ reply ∈ replies, ∀ told ∈ reply.entries, told.hopCount < 255)
    (distinct : before.routes.DistinctIds) (foreign : before.routes.find id = none)
    {target : KcpConv} (found : shared.routes.find target = some entry) :
    Evolved replies id before.routes target entry := by
  cases acts with
  | addRoute =>
    rw [← network.named id]
    exact evolved_addRoute distinct near honest found
  | @proposed source item route hopCount capability read =>
    rw [← network.named id]
    cases source with
    | none => exact evolved_addRoute distinct near (by simp) found
    | some via =>
      obtain ⟨reply, isReply, sender, told, isTold, same⟩ := honest via rfl
      have isSmall := small reply isReply told isTold
      obtain ⟨sameId, rfl⟩ := readsAs_routeToJson (Nat.le_of_lt isSmall) same read
      exact evolved_propose distinct near isReply sender isTold isSmall sameId found
  | markAttempt => exact evolved_modify found (fun _ => rfl) fun _ => ⟨rfl, rfl⟩
  | markSuccess => exact evolved_markSuccess foreign found
  | @markFailure peer =>
    rw [markFailure_eq] at found
    have changed : (before.routes.modify peer (RouteManager.failed
        (routeManagerConfig (network.setup id).config) answers.nowMs)).find target =
        some entry := found
    exact evolved_modify changed (fun _ => rfl) fun _ => ⟨rfl, rfl⟩
  | _ => exact evolved_of_same found

end Honest

section Ordered

/-- Whether the table still has an entry that was told, and with no path through another node if it
was told with hop count 0. -/
def keepsTold (routes : RouteManager) (told : RouteEntry) : Bool :=
  (routes.find told.node.id).any fun entry => told.hopCount ≠ 0 || entry.directOnly

variable (network) in
/-- In this state the event makes no node drop an entry that it has told, or take a path for one that
it has told with hop count 0. The step is a function of both, so what it does is looked up in its
outcome. -/
def KeepsTold (state : RouteNetworkState Links Stage) (event : RouteNetworkEvent) : Prop :=
  ((network.step state event).all fun after => state.replies.all fun reply =>
    reply.entries.all (keepsTold (table after reply.sender))) = true

def Stands (routes : RouteManager) (told : RouteEntry) : Prop :=
  ∃ entry, routes.find told.node.id = some entry ∧
    (told.hopCount = 0 → entry.directOnly = true) ∧
    (told.hopCount ≠ 0 → 1 ≤ entry.hopCount ∧ entry.hopCount ≤ told.hopCount)

/-- The hop counts order the nodes on every path. -/
structure Ordered (network : RouteNetwork Links Stage) (state : RouteNetworkState Links Stage) :
    Prop where
  distinct : ∀ id, (table state id).DistinctIds
  foreign : ∀ id, (table state id).find id = none
  bounded : ∀ id target entry, (table state id).find target = some entry → entry.hopCount < 255
  sources : ∀ id target entry, (table state id).find target = some entry →
    ∀ source ∈ entry.source, source.id ≠ target → ∃ reply ∈ state.replies,
      reply.sender = source.id ∧ ∃ told ∈ reply.entries, told.node.id = target ∧
        told.hopCount < entry.hopCount
  told : ∀ reply ∈ state.replies, ∀ told ∈ reply.entries, told.hopCount < 255 ∧
    Stands (table state reply.sender) told
  pending : ∀ id, ∀ action ∈ pending (state.nodes id).calls,
    Honest (network.setup id).truncate state.replies action

variable {state after : RouteNetworkState Links Stage} {id : KcpConv}

theorem Stands.evolved {replies : List RoutesReply} {own : KcpConv} {before routes : RouteManager}
    {told : RouteEntry} (stands : Stands before told) (keeps : keepsTold routes told = true)
    (evolved : ∀ entry, routes.find told.node.id = some entry →
      Evolved replies own before told.node.id entry) : Stands routes told := by
  obtain ⟨old, was, -, range⟩ := stands
  rw [keepsTold, Option.any_eq_true] at keeps
  obtain ⟨entry, found, direct⟩ := keeps
  refine ⟨entry, found, ?_, ?_⟩
  · intro zero
    simpa [zero] using direct
  · intro positive
    obtain ⟨lower, upper⟩ := range positive
    cases evolved entry found with
    | kept isOld _ sameHops =>
      rw [was] at isOld
      cases isOld
      omega
    | linked _ _ hops => omega
    | fresh _ unknown =>
      rw [was] at unknown
      cases unknown
    | learnt _ _ _ _ _ _ hops _ shorter =>
      have less := shorter old was
      omega

theorem Ordered.update {node : DiscoveryThreads Links Stage} (ordered : Ordered network state)
    (isAfter : after = { state with nodes := Function.update state.nodes id node })
    (distinct : node.shared.routes.DistinctIds)
    (evolved : ∀ target entry, node.shared.routes.find target = some entry →
      Evolved state.replies id (table state id) target entry)
    (pending : ∀ action ∈ Interleaving.pending node.calls,
      Honest (network.setup id).truncate state.replies action)
    (keeps : ∀ reply ∈ state.replies, ∀ told ∈ reply.entries,
      keepsTold (table after reply.sender) told = true) : Ordered network after := by
  have here : table after id = node.shared.routes := by simp [isAfter, table]
  have elsewhere : ∀ other, other ≠ id → table after other = table state other := by
    intro other differs
    simp [isAfter, table, differs]
  have sameReplies : after.replies = state.replies := by rw [isAfter]
  refine ⟨?_, ?_, ?_, ?_, ?_, ?_⟩
  · intro other
    by_cases same : other = id
    · rw [same, here]
      exact distinct
    · rw [elsewhere other same]
      exact ordered.distinct other
  · intro other
    by_cases same : other = id
    · rw [same, here]
      cases found : node.shared.routes.find id with
      | none => rfl
      | some entry =>
        cases evolved id entry found with
        | kept was =>
          rw [ordered.foreign id] at was
          cases was
        | linked differs | fresh differs | learnt differs => exact absurd rfl differs
    · rw [elsewhere other same]
      exact ordered.foreign other
  · intro other target entry found
    by_cases same : other = id
    · rw [same, here] at found
      cases evolved target entry found with
      | kept was _ sameHops =>
        rw [sameHops]
        exact ordered.bounded id target _ was
      | linked _ _ hops => omega
      | fresh _ _ _ bounded => exact bounded
      | learnt _ _ _ _ _ _ _ bounded => exact bounded
    · rw [elsewhere other same] at found
      exact ordered.bounded other target entry found
  · intro other target entry found source isSource differs
    rw [sameReplies]
    by_cases same : other = id
    · rw [same, here] at found
      cases evolved target entry found with
      | kept was sameSource sameHops =>
        rw [sameSource] at isSource
        rw [sameHops]
        exact ordered.sources id target _ was source isSource differs
      | linked _ direct => exact absurd (direct source isSource) differs
      | fresh _ _ noSource =>
        rw [noSource] at isSource
        cases isSource
      | learnt _ isVia isReply sender isTold sameTarget hops =>
        rw [isVia] at isSource
        cases isSource
        exact ⟨_, isReply, sender, _, isTold, sameTarget, by omega⟩
    · rw [elsewhere other same] at found
      exact ordered.sources other target entry found source isSource differs
  · intro reply isReply told isTold
    rw [sameReplies] at isReply
    obtain ⟨small, stands⟩ := ordered.told reply isReply told isTold
    refine ⟨small, ?_⟩
    have kept := keeps reply isReply told isTold
    by_cases same : reply.sender = id
    · rw [same] at stands kept ⊢
      rw [here] at kept ⊢
      exact stands.evolved kept (evolved told.node.id)
    · rw [elsewhere _ same]
      exact stands
  · intro other action mem
    rw [sameReplies]
    by_cases same : other = id
    · subst same
      rw [isAfter] at mem
      exact pending action (by simpa using mem)
    · apply ordered.pending other
      simpa [isAfter, same] using mem

theorem mem_selectRoutesForResponse {config : RouteManagerConfig} {nowMs : ℤ}
    {shuffle : List RouteEntry → List RouteEntry} {routes : RouteManager}
    (permutes : ∀ routes, (shuffle routes).Perm routes)
    (mem : entry ∈ routes.selectRoutesForResponse config nowMs shuffle) :
    entry ∈ routes.routes := by
  have shuffled := mem_of_mem_take mem
  exact mem_of_mem_filter ((permutes _).mem_iff.mp shuffled)

theorem Ordered.stands (ordered : Ordered network state) (mem : entry ∈ (table state id).routes) :
    entry.hopCount < 255 ∧ Stands (table state id) entry := by
  have found := (ordered.distinct id).find_eq_some.mpr ⟨mem, rfl⟩
  refine ⟨ordered.bounded id _ entry found, entry, found, ?_, ?_⟩
  · intro zero
    rw [RouteEntry.directOnly, Option.all_eq_true]
    intro source isSource
    rw [decide_eq_true_eq]
    by_contra differs
    obtain ⟨_, _, _, _, _, _, less⟩ := ordered.sources id _ entry found source isSource differs
    omega
  · intro positive
    omega

theorem Ordered.node_step {event : DiscoveryEvent} {node : DiscoveryThreads Links Stage}
    (near : (network.setup id).config.routeManager.maxRouteHops < 255)
    (ordered : Ordered network state) (heard : network.heard state id event = true)
    (stepped : (state.nodes id).step (network.setup id) event = some node) :
    node.shared.routes.DistinctIds ∧
      (∀ target entry, node.shared.routes.find target = some entry →
        Evolved state.replies id (table state id) target entry) ∧
      ∀ action ∈ Interleaving.pending node.calls,
        Honest (network.setup id).truncate state.replies action := by
  have steps := DiscoveryThreads.steps_of_step stepped
  have distinct : (state.nodes id).shared.routes.DistinctIds := ordered.distinct id
  have honest := ordered.pending id
  obtain ⟨shared, calls, greetings, dialled⟩ := node
  dsimp only at steps ⊢
  cases steps with
  | begun _ begins =>
    refine ⟨distinct, fun _ _ => evolved_of_same, ?_⟩
    exact forall_pending_start honest (fun _ holds => holds) (honest_begins begins)
  | @acted index answers action _ more next acts =>
    have isHonest := honest action (mem_pending_of_next next)
    refine ⟨distinctIds_of_acts acts distinct, ?_, ?_⟩
    · intro target entry found
      exact evolved_acts acts near isHonest
        (fun reply isReply told isTold => (ordered.told reply isReply told isTold).1) distinct
        (ordered.foreign id) found
    · refine forall_pending_resume next honest (fun _ holds => holds) ?_
      refine honest_acts acts ?_ isHonest
      rintro node line rfl arrived
      simpa only [RouteNetwork.heard, next, arrived] using heard
  | @rehashed order same =>
    refine ⟨Table.Distinct.perm distinct same, ?_, honest⟩
    intro target entry found
    have unchanged : (state.nodes id).shared.routes.find target = some entry := by
      rw [← found]
      exact (Table.Distinct.find_perm distinct same target).symm
    exact evolved_of_same unchanged

theorem Ordered.step {event : RouteNetworkEvent}
    (near : ∀ id, (network.setup id).config.routeManager.maxRouteHops < 255)
    (ordered : Ordered network state) (keeps : network.KeepsTold state event)
    (stepped : network.step state event = some after) : Ordered network after := by
  have kept : ∀ reply ∈ state.replies, ∀ told ∈ reply.entries,
      keepsTold (table after reply.sender) told = true := by
    simpa [KeepsTold, stepped] using keeps
  cases event with
  | node id event =>
    simp only [RouteNetwork.step, Option.ite_none_right_eq_some, Option.map_eq_some_iff] at stepped
    obtain ⟨heard, node, taken, isAfter⟩ := stepped
    obtain ⟨distinct, evolved, honest⟩ := ordered.node_step (near id) heard taken
    exact ordered.update isAfter.symm distinct evolved honest kept
  | sendRoutes sender receiver nowMs shuffle =>
    cases stepped
    refine ⟨ordered.distinct, ordered.foreign, ordered.bounded, ?_, ?_, ?_⟩
    · intro id target entry found source isSource differs
      obtain ⟨reply, isReply, told⟩ :=
        ordered.sources id target entry found source isSource differs
      exact ⟨reply, mem_cons_of_mem _ isReply, told⟩
    · intro reply isReply told isTold
      rcases mem_cons.mp isReply with rfl | old
      · exact ordered.stands
          (mem_selectRoutesForResponse shuffle.2 (mem_of_mem_filter isTold))
      · exact ordered.told reply old told isTold
    · intro id action mem
      exact (ordered.pending id action mem).mono (subset_cons_self _ _)
  | announce id route =>
    simp only [RouteNetwork.step, Option.ite_none_right_eq_some, Option.some.injEq] at stepped
    obtain ⟨-, rfl⟩ := stepped
    exact ⟨ordered.distinct, ordered.foreign, ordered.bounded, ordered.sources, ordered.told,
      ordered.pending⟩
  | announceSelf id capability =>
    cases stepped
    exact ⟨ordered.distinct, ordered.foreign, ordered.bounded, ordered.sources, ordered.told,
      ordered.pending⟩
  | loseLink id peer =>
    have isAfter := (Option.some.inj stepped).symm
    refine ordered.update isAfter ?_ ?_ (ordered.pending id) kept
    · exact RouteManager.DistinctIds.modify (ordered.distinct id) fun _ same => same
    · intro target entry found
      have changed : ((table state id).modify peer RouteManager.disconnected).find target =
          some entry := found
      exact evolved_modify changed (fun _ => rfl) fun _ => ⟨rfl, rfl⟩

end Ordered

section LoopFree

variable {state : RouteNetworkState Links Stage} {here next target : KcpConv}

def rank (state : RouteNetworkState Links Stage) (target node : KcpConv) : ℕ :=
  if node = target then 0
  else
    match (table state node).find target with
    | none => 1
    | some entry => if entry.directOnly then 1 else entry.hopCount + 2

theorem rank_of_find (other : here ≠ target) (found : (table state here).find target = some entry) :
    rank state target here = if entry.directOnly then 1 else entry.hopCount + 2 := by
  rw [rank, if_neg other, found]

theorem Ordered.rank_lt (ordered : Ordered network state)
    (hop : nextHop state here target = some next) : rank state target next < rank state target here := by
  obtain ⟨chosen, selected, rfl⟩ := Option.map_eq_some_iff.mp hop
  obtain ⟨entry, found, cases⟩ := selectNextHop_eq_some selected
  have other : here ≠ target := by
    rintro rfl
    rw [ordered.foreign] at found
    cases found
  have isTarget := id_of_find found
  rcases cases with direct | ⟨unconnected, source, via, isSource, known, connected, through⟩
  · rw [direct, isTarget, rank_of_find other found, rank, if_pos rfl]
    split_ifs <;> omega
  · have isVia := id_of_find known
    have differs : source.id ≠ target := by
      intro same
      rw [same, found] at known
      cases known
      rw [unconnected] at connected
      cases connected
    have indirect : entry.directOnly = false := by
      rw [RouteEntry.directOnly, isSource, isTarget]
      simpa using differs
    obtain ⟨reply, isReply, sender, told, isTold, same, less⟩ :=
      ordered.sources here target entry found source isSource differs
    obtain ⟨-, theirs, isTheirs, zero, positive⟩ := ordered.told reply isReply told isTold
    rw [sender, same] at isTheirs
    have farther : rank state target here = entry.hopCount + 2 := by
      rw [rank_of_find other found, if_neg (by simp [indirect])]
    rw [through, isVia, farther, rank_of_find differs isTheirs]
    split_ifs with theirDirect
    · omega
    · have isPositive : told.hopCount ≠ 0 := fun isZero => theirDirect (zero isZero)
      have bound := (positive isPositive).2
      omega

/-- In a network of honest nodes, following the next hops towards a target never comes to a node
twice, as long as no node drops an entry that it has told or takes a path for one that it has told
with hop count 0. -/
theorem next_hops_loop_free {links : KcpConv → Links} {events : List RouteNetworkEvent}
    {finish : RouteNetworkState Links Stage}
    (near : ∀ id, (network.setup id).config.routeManager.maxRouteHops < 255)
    (run : Run network.step network.KeepsTold
      { nodes := fun id => { shared := { links := links id } } } events finish)
    (target : KcpConv) {path : List KcpConv}
    (follows : path.IsChain fun here next => nextHop finish here target = some next) :
    path.Nodup := by
  have ordered : Ordered network finish := by
    apply run.invariant
    · have nothing : ∀ target, RouteManager.find {} target = none := fun _ => rfl
      refine ⟨fun _ => Table.distinct_nil, nothing, ?_, ?_, by simp, by simp [pending]⟩
      · intro id target entry found
        cases found
      · intro id target entry found
        cases found
    · intro before after event keeps stepped ordered
      exact ordered.step near keeps stepped
  have decreasing : (path.map (rank finish target)).IsChain (· > ·) := by
    rw [isChain_map]
    exact follows.imp fun _ _ hop => ordered.rank_lt hop
  have distinctRanks : (path.map (rank finish target)).Nodup :=
    (isChain_iff_pairwise.mp decreasing).imp ne_of_gt
  exact distinctRanks.of_map _

section Example

/-- Nodes that take every link. Signatures are always valid. -/
def mesh : RouteNetwork Unit Unit where
  setup id :=
    { config := { id }
      library := nlohmann
      double := .exact
      verifyNodeMessage := fun _ _ _ => true
      callbacks :=
        { kcpLink := some fun _ _ => (), linkStep := fun _ _ => ((), .inr true)
          kcpAdmission := none } }
  named _ := rfl

def meshStart : RouteNetworkState Unit Unit where
  nodes _ := { shared := { links := () } }

def meshNode (number : ℕ) : NodeAddress where
  endpoint := { host := "10.0.0.".toList ++ Nat.toDigits 10 number, port := 9000 }
  id := .ofUint32 number

def nodeText (number : ℕ) : Text :=
  "\"host\":\"".toList ++ (meshNode number).endpoint.host ++
    "\",\"port\":9000,\"public_key\":\"".toList ++ convidToHex (.ofUint32 number) ++ "\"".toList

def helloLine (sender target : ℕ) : Bytes :=
  Text.toBytes <| "\x7b\"type\":\"hello\",\"version\":1,\"target_public_key\":\"".toList ++
    convidToHex (.ofUint32 target) ++ "\",\"node\":\x7b".toList ++ nodeText sender ++
    "\x7d,\"timestamp_ms\":1000,\"nonce\":\"".toList ++ List.replicate 64 '0' ++
    "\",\"signature\":\"".toList ++ List.replicate 128 '0' ++ "\"\x7d".toList

def routesLine (number hopCount : ℕ) : Bytes :=
  Text.toBytes <| "\x7b\"type\":\"routes\",\"entries\":[\x7b".toList ++ nodeText number ++
    ",\"hop_count\":".toList ++ Nat.toDigits 10 hopCount ++ "\x7d]\x7d".toList

def kcpConvLine (sender receiver : ℕ) : Bytes :=
  let conv := deriveKcpConvid (meshNode receiver).endpoint { host := "0.0.0.0".toList, port := 9000 }
  Text.toBytes <| "\x7b\"type\":\"kcp_conv\",\"node\":\x7b".toList ++ nodeText sender ++
    "\x7d,\"convid\":\"".toList ++ convidToHex conv ++ "\"\x7d".toList

def goOn (node call : ℕ) (line : Option Bytes) (connected : Bool) : RouteNetworkEvent :=
  .node (.ofUint32 node) (.act call { nowMs := 1000, line, connected })

def steps (node call count : ℕ) : List RouteNetworkEvent :=
  List.replicate count (goOn node call none true)

/-- Node 1 knows node 3, which it does not reach. Node 2 dials node 1 and gets a link. -/
def learning : List RouteNetworkEvent :=
  [.node (.ofUint32 1) (.dial (meshNode 3))] ++ steps 1 0 2 ++ [goOn 1 0 none false] ++
    steps 1 0 1 ++
    [.node (.ofUint32 2) (.dial (meshNode 1))] ++ steps 2 0 4 ++
    [.node (.ofUint32 1) (.session 1000 "10.0.0.2".toList (helloLine 2 1))] ++ steps 1 1 1 ++
    [.sendRoutes (.ofUint32 1) (.ofUint32 2) 1000 ⟨List.reverse, List.reverse_perm⟩] ++
    steps 1 1 6 ++
    [goOn 2 0 (some (routesLine 3 0)) true] ++ steps 2 0 1 ++
    [goOn 2 0 (some (kcpConvLine 1 2)) true] ++ steps 2 0 5

/-- Node 1 dials node 2 and learns node 3 from it. -/
def learningBack : List RouteNetworkEvent :=
  [.node (.ofUint32 1) (.dial (meshNode 2))] ++ steps 1 2 4 ++
    [.node (.ofUint32 2) (.session 1000 "10.0.0.1".toList (helloLine 1 2))] ++ steps 2 1 1 ++
    [.sendRoutes (.ofUint32 2) (.ofUint32 1) 1000 ⟨id, List.Perm.refl⟩] ++
    [goOn 1 2 (some (routesLine 3 1)) true] ++ steps 1 2 1

instance (state : RouteNetworkState Unit Unit) (event : RouteNetworkEvent) :
    Decidable (mesh.KeepsTold state event) :=
  inferInstanceAs (Decidable (_ = true))

/-- Node 2 has learnt of node 3 from node 1 and goes through it. -/
theorem next_hops_after_learning :
    ∃ finish, Run mesh.step mesh.KeepsTold meshStart learning finish ∧
      nextHop finish (.ofUint32 2) (.ofUint32 3) = some (.ofUint32 1) ∧
      ∀ target path, List.IsChain (fun here next => nextHop finish here target = some next) path →
        path.Nodup := by
  apply Run.exists_of_execute fun finish =>
    nextHop finish (.ofUint32 2) (.ofUint32 3) = some (.ofUint32 1)
  · decide +kernel
  · intro finish run learnt
    have near : ∀ id, (mesh.setup id).config.routeManager.maxRouteHops < 255 := by
      intro id
      change 8 < 255
      decide
    refine ⟨of_decide_eq_true learnt, ?_⟩
    intro target path follows
    exact next_hops_loop_free near run target follows

/-- Node 1 has told node 3 with hop count 0, which it gives up for the path through node 2, which
leads through node 1. -/
theorem next_hops_loop :
    ∃ finish, Run mesh.step (fun _ _ => True) meshStart (learning ++ learningBack) finish ∧
      nextHop finish (.ofUint32 1) (.ofUint32 3) = some (.ofUint32 2) ∧
      nextHop finish (.ofUint32 2) (.ofUint32 3) = some (.ofUint32 1) := by
  apply Run.exists_of_execute fun finish =>
    nextHop finish (.ofUint32 1) (.ofUint32 3) = some (.ofUint32 2) &&
      nextHop finish (.ofUint32 2) (.ofUint32 3) = some (.ofUint32 1)
  · decide +kernel
  · intro finish _ facts
    simpa using facts

end Example

end LoopFree

end RouteNetwork

end IotProxy.Proxy
