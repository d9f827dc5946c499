import IotProxy.Proxy.BroadcastRelay

/-!
# Broadcasts in a network

Any number of nodes, each with a name of its own, exchange packets. A packet that was sent can reach
any node, at any time, any number of times, or never. A copy of a broadcast has a hop number: it is
1 where the broadcast starts, and one more than that of the copy that a node passes on.
-/

namespace IotProxy.Proxy

open KcpTunnel List
open EventSystem (Run)

/-- A network of nodes that have a name each. A time to live is one byte. -/
structure Network (Node : Type*) where
  config : Node → KcpTunnelConfig
  named : ∀ node, (config node).identity.empty = false
  distinct : ∀ ⦃left right⦄, (config left).identity = (config right).identity → left = right
  isByte : ∀ node, (config node).broadcastTtl < 256

structure BroadcastId where
  type : TunnelFrameType
  streamId : ℕ
  origin : KcpConv
  messageId : KcpConv
  deriving DecidableEq

def Broadcast.id (broadcast : Broadcast) : BroadcastId where
  type := broadcast.type
  streamId := broadcast.streamId
  origin := broadcast.envelope.origin
  messageId := broadcast.envelope.messageId

def BroadcastId.seenKey (id : BroadcastId) : Bytes :=
  makeSeenKey id.type id.streamId id.origin id.messageId

/-- A packet that was sent, with its hop number. -/
structure Copy where
  hop : ℕ
  packet : Bytes
  deriving DecidableEq

structure GossipState (Node : Type*) where
  tunnels : Node → KcpTunnel := fun _ => {}
  copies : List Copy := []
  deliveries : List (Node × BroadcastId) := []

inductive GossipEvent (Node : Type*) where
  | deliver (node : Node) (copy : Copy) (key : KcpSessionKey) (answers : NodeAnswers)
  | act (node : Node) (event : NodeEvent)
  | unicast (packet : Bytes)

def IsUnicast (packet : Bytes) : Prop :=
  ∀ frame ∈ decodeTunnelFrame packet, isRelayedType frame.type = false ∨
    frame.type = .control ∧ decodeBroadcastEnvelope frame.payload = .plain

instance (packet : Bytes) : Decidable (IsUnicast packet) :=
  inferInstanceAs (Decidable (∀ frame ∈ _, _))

def NodeEvent.IsOwn : NodeEvent → Prop
  | .packet .. => False
  | .replicate streamId .. => streamId < 2 ^ 64
  | .control .. | .kafka .. | .configure .. => True

instance : (event : NodeEvent) → Decidable event.IsOwn
  | .packet .. => inferInstanceAs (Decidable False)
  | .replicate streamId .. => inferInstanceAs (Decidable (streamId < 2 ^ 64))
  | .control .. | .kafka .. | .configure .. => inferInstanceAs (Decidable True)

section Model

variable {Node : Type*} [DecidableEq Node]

def deliveredId (packet : Bytes) (reception : Reception) : Option BroadcastId :=
  if reception.inbound = .dropped then none else (broadcastOf packet).map Broadcast.id

def GossipState.after (state : GossipState Node) (node : Node) (hop : ℕ) (reception : Reception)
    (delivered : Option BroadcastId) : GossipState Node where
  tunnels := Function.update state.tunnels node reception.tunnel
  copies := state.copies ++ reception.sent.map fun copy => ⟨hop + 1, copy.packet⟩
  deliveries := state.deliveries ++ delivered.toList.map fun id => (node, id)

def Network.step (network : Network Node) (state : GossipState Node) :
    GossipEvent Node → Option (GossipState Node)
  | .deliver node copy key answers =>
    if copy ∈ state.copies then
      let reception := (state.tunnels node).receive (network.config node) answers key copy.packet
      some (state.after node copy.hop reception (deliveredId copy.packet reception))
    else none
  | .act node event =>
    if event.IsOwn then
      some (state.after node 0 ((state.tunnels node).handle (network.config node) event) none)
    else none
  | .unicast packet =>
    if IsUnicast packet then some { state with copies := state.copies ++ [⟨0, packet⟩] }
    else none

end Model

section Retention

variable (config : KcpTunnelConfig) (tunnel : KcpTunnel)

def KcpTunnel.keys : List Bytes :=
  tunnel.seenBroadcasts.map Prod.fst

/-- A key can be marked without a loss: no mark has expired, and with the key there are not too many
of them. -/
def Retains (nowMs : ℤ) (key : Bytes) : Prop :=
  (∀ entry ∈ tunnel.seenBroadcasts, nowMs < entry.2) ∧
    (if key ∈ tunnel.keys then tunnel.keys.length else tunnel.keys.length + 1) ≤
      config.maxSeenBroadcasts

instance (nowMs : ℤ) (key : Bytes) : Decidable (Retains config tunnel nowMs key) :=
  inferInstanceAs (Decidable (_ ∧ _))

def RetainsOwn (answers : TunnelAnswers) (type : TunnelFrameType) (streamId : ℕ) (payload : Bytes)
    (metadata : Option BroadcastMetadata) : Prop :=
  ∀ envelope ∈ KcpTunnel.outgoingEnvelope config answers payload metadata,
    Retains config tunnel answers.nowMs
      (makeSeenKey type streamId envelope.origin envelope.messageId)

instance (answers : TunnelAnswers) (type : TunnelFrameType) (streamId : ℕ) (payload : Bytes)
    (metadata : Option BroadcastMetadata) :
    Decidable (RetainsOwn config tunnel answers type streamId payload metadata) :=
  inferInstanceAs (Decidable (∀ envelope ∈ _, _))

/-- No mark of a node is lost when it handles an event. -/
def KcpTunnel.Keeps : NodeEvent → Prop
  | .packet _ bytes answers => ∀ broadcast ∈ broadcastOf bytes,
      broadcast.envelope.origin ≠ config.identity →
      Retains config tunnel answers.kcp.nowMs broadcast.seenKey ∧
      (broadcast.type = .kafkaBroadcast →
        Retains config (tunnel.markBroadcastSeen config answers.kcp broadcast.seenKey).1
          answers.rebroadcast.nowMs broadcast.seenKey)
  | .control payload answers => RetainsOwn config tunnel answers .control 0 payload none
  | .replicate streamId payload random answers =>
    RetainsOwn config tunnel answers .replicate streamId payload
      (some (ownMetadata config random))
  | .kafka payload answers => RetainsOwn config tunnel answers .kafkaBroadcast 1 payload none
  | .configure .. => True

instance : (event : NodeEvent) → Decidable (tunnel.Keeps config event)
  | .packet .. => inferInstanceAs (Decidable (∀ broadcast ∈ _, _ → _ ∧ _))
  | .control .. => inferInstanceAs (Decidable (RetainsOwn ..))
  | .replicate .. => inferInstanceAs (Decidable (RetainsOwn ..))
  | .kafka .. => inferInstanceAs (Decidable (RetainsOwn ..))
  | .configure .. => inferInstanceAs (Decidable True)

end Retention

variable {answers : TunnelAnswers} {key payload : Bytes}

section Marks

variable {config : KcpTunnelConfig} {tunnel : KcpTunnel}

theorem makeRoom_of_lt {limit rounds : ℕ} {firstEntry : List (Bytes × ℤ) → ℕ}
    {seen : List (Bytes × ℤ)} (room : seen.length < limit) :
    KcpTunnel.makeRoom limit firstEntry rounds seen = seen := by
  cases rounds with
  | zero => rfl
  | succ rounds =>
    rw [KcpTunnel.makeRoom, if_neg]
    exact fun full => absurd full.1 (not_le.mpr room)

theorem mem_keys_markBroadcastSeen (notEmpty : key ≠ [])
    (retains : Retains config tunnel answers.nowMs key) (other : Bytes) :
    other ∈ (tunnel.markBroadcastSeen config answers key).1.keys ↔
      other = key ∨ other ∈ tunnel.keys := by
  have limited : config.maxSeenBroadcasts ≠ 0 := by
    intro unlimited
    have few := retains.2
    rw [unlimited] at few
    split at few
    · next mem => exact absurd (length_pos_of_mem mem) (not_lt.mpr few)
    · cases few
  have unexpired : tunnel.seenBroadcasts.filter (fun entry => answers.nowMs < entry.2) =
      tunnel.seenBroadcasts :=
    filter_eq_self.mpr fun entry mem => decide_eq_true (retains.1 entry mem)
  have anyIff : tunnel.seenBroadcasts.any (·.1 == key) = true ↔ key ∈ tunnel.keys := by
    simp [KcpTunnel.keys]
  rw [KcpTunnel.markBroadcastSeen, if_neg (by simp [notEmpty, limited])]
  simp only [unexpired]
  by_cases mem : key ∈ tunnel.keys
  · rw [if_pos (anyIff.mpr mem)]
    have sameKeys : ∀ entries : List (Bytes × ℤ), ∀ expiresAt,
        (entries.map fun entry => if entry.1 == key then (key, expiresAt) else entry).map Prod.fst =
          entries.map Prod.fst := by
      intro entries expiresAt
      rw [map_map]
      apply map_congr_left
      intro entry _
      by_cases isKey : entry.1 = key <;> simp [isKey]
    simp only [KcpTunnel.keys, sameKeys] at mem ⊢
    exact (or_iff_right_of_imp fun isKey => isKey ▸ mem).symm
  · rw [if_neg (mt anyIff.mp mem)]
    have room := retains.2
    rw [if_neg mem, KcpTunnel.keys, length_map] at room
    simp [KcpTunnel.keys, makeRoom_of_lt room]

theorem notMem_keys_of_isNew (notEmpty : key ≠ [])
    (retains : Retains config tunnel answers.nowMs key)
    (isNew : (tunnel.markBroadcastSeen config answers key).2 = true) : key ∉ tunnel.keys := by
  intro mem
  rcases (isNew_iff_forgotten notEmpty).mp isNew with unlimited | expired
  · have few := retains.2
    rw [if_pos mem, unlimited] at few
    have none := eq_nil_of_length_eq_zero (Nat.le_zero.mp few)
    simp [none] at mem
  · rcases mem_map.mp mem with ⟨entry, isEntry, isKey⟩
    exact absurd (retains.1 entry isEntry) (not_lt.mpr (expired entry isEntry isKey))

theorem makeSeenKey_ne_nil {type : TunnelFrameType} {streamId : ℕ} {origin messageId : KcpConv} :
    makeSeenKey type streamId origin messageId ≠ [] := by
  simp [makeSeenKey]

section Copies

variable {type : TunnelFrameType} {streamId : ℕ} {metadata : Option BroadcastMetadata}

theorem outgoing_of_wirePacket {packet : Bytes} {envelope : BroadcastEnvelope}
    (built : KcpTunnel.wirePacket config answers type streamId payload metadata =
      some (packet, some envelope)) :
    KcpTunnel.outgoingEnvelope config answers payload metadata = some envelope := by
  unfold KcpTunnel.wirePacket at built
  split at built
  · split at built
    · cases built
    · next outgoing =>
        rw [Option.ite_none_left_eq_some, Option.some.injEq, Prod.mk.injEq,
          Option.some.injEq] at built
        rw [outgoing, built.2.2]
  · simp at built

theorem keys_broadcastCopies
    (retains : RetainsOwn config tunnel answers type streamId payload metadata)
    (mem : key ∈ tunnel.keys) :
    key ∈ (tunnel.broadcastCopies config answers type streamId payload metadata).1.keys := by
  unfold KcpTunnel.broadcastCopies
  split
  · exact mem
  · exact mem
  · next built =>
      have kept := mem_keys_markBroadcastSeen makeSeenKey_ne_nil
        (retains _ (outgoing_of_wirePacket built)) key
      exact kept.mpr (.inr mem)

theorem keys_broadcastFrame
    (retains : RetainsOwn config tunnel answers type streamId payload metadata)
    (mem : key ∈ tunnel.keys) :
    key ∈ (tunnel.broadcastFrame config answers type streamId payload metadata).1.keys := by
  unfold KcpTunnel.broadcastFrame
  split
  · exact mem
  · exact keys_broadcastCopies retains mem

theorem keys_broadcastControl
    (retains : RetainsOwn config tunnel answers .control 0 payload none) (mem : key ∈ tunnel.keys) :
    key ∈ (tunnel.broadcastControl config answers payload).1.keys := by
  unfold KcpTunnel.broadcastControl
  split
  · exact mem
  · exact keys_broadcastCopies retains mem

end Copies

end Marks

section Receive

variable {config : KcpTunnelConfig} {tunnel : KcpTunnel} {answers : NodeAnswers}
  {key : KcpSessionKey} {packet : Bytes} {broadcast : Broadcast}

theorem broadcastOf_eq_none (isUnicast : IsUnicast packet) : broadcastOf packet = none := by
  unfold broadcastOf
  cases decoded : decodeTunnelFrame packet with
  | none => rfl
  | some frame =>
    rcases isUnicast frame decoded with other | ⟨_, plain⟩
    · simp [other]
    · simp [plain]

theorem receive_of_unicast (isUnicast : IsUnicast packet) :
    (tunnel.receive config answers key packet).tunnel = tunnel ∧
      (tunnel.receive config answers key packet).sent = [] := by
  unfold KcpTunnel.receive
  cases decoded : decodeTunnelFrame packet with
  | none => exact ⟨rfl, rfl⟩
  | some frame =>
    simp only [broadcastOf_eq_none isUnicast]
    rcases isUnicast frame decoded with other | ⟨isControl, plain⟩
    · have notKafka : frame.type ≠ .kafkaBroadcast := by
        rintro isKafka
        simp [isKafka, isRelayedType] at other
      simp only [KcpTunnel.prepareInboundBroadcast, other, Bool.not_false, if_true,
        KcpTunnel.callBack, KcpTunnel.onFrame, notKafka, if_false]
      split
      · exact ⟨rfl, rfl⟩
      · cases answers.admitted <;> exact ⟨rfl, rfl⟩
    · simp [KcpTunnel.prepareInboundBroadcast, plain, KcpTunnel.callBack, isControl]

theorem tunnel_callBack {frame : TunnelFrame} {relayed : List SentCopy} :
    (tunnel.callBack config answers key frame relayed).tunnel = tunnel ∨
      frame.type = .kafkaBroadcast ∧
      (tunnel.callBack config answers key frame relayed).tunnel =
        (tunnel.broadcastFrame config answers.rebroadcast .kafkaBroadcast frame.streamId
          frame.payload (some frame.broadcast)).1 := by
  unfold KcpTunnel.callBack KcpTunnel.onFrame
  split
  · exact .inl rfl
  · cases answers.admitted with
    | false => exact .inl rfl
    | true =>
      by_cases isKafka : frame.type = .kafkaBroadcast
      · cases answers.record with
        | failed | duplicate => exact .inl (by simp [isKafka])
        | recorded => exact .inr ⟨isKafka, by simp [isKafka]⟩
      · exact .inl (by simp [isKafka])

theorem keys_callBack {relayed : List SentCopy} {mark : Bytes}
    (wellFormed : KcpTunnel.WellFormed broadcast) (retains : broadcast.type = .kafkaBroadcast →
      Retains config tunnel answers.rebroadcast.nowMs broadcast.seenKey)
    (mem : mark ∈ tunnel.keys) :
    mark ∈ (tunnel.callBack config answers key broadcast.frame relayed).tunnel.keys := by
  rcases tunnel_callBack with same | ⟨isKafka, same⟩
  · rw [same]
    exact mem
  · rw [same]
    apply keys_broadcastFrame _ mem
    intro outgoing isOutgoing
    obtain ⟨_, isSame⟩ := outgoingEnvelope_of_broadcast wellFormed isOutgoing
    have isKey : makeSeenKey .kafkaBroadcast broadcast.frame.streamId outgoing.origin
        outgoing.messageId = broadcast.seenKey := by
      rw [isSame, Broadcast.seenKey, show broadcast.type = _ from isKafka]
      rfl
    rw [isKey]
    exact retains isKafka

theorem marks_of_receive (isBroadcast : broadcastOf packet = some broadcast)
    (keeps : tunnel.Keeps config (.packet key packet answers)) :
    (∀ mark ∈ tunnel.keys, mark ∈ (tunnel.receive config answers key packet).tunnel.keys) ∧
      ((tunnel.receive config answers key packet).inbound ≠ .dropped →
        broadcast.envelope.origin ≠ config.identity ∧ broadcast.seenKey ∉ tunnel.keys ∧
        broadcast.seenKey ∈ (tunnel.receive config answers key packet).tunnel.keys) := by
  by_cases own : broadcast.envelope.origin = config.identity
  · rw [receive_of_own isBroadcast own]
    exact ⟨fun _ => id, fun taken => absurd rfl taken⟩
  · obtain ⟨retains, retainsAgain⟩ := keeps broadcast isBroadcast own
    have marked := mem_keys_markBroadcastSeen makeSeenKey_ne_nil retains
    cases isNew : (tunnel.markBroadcastSeen config answers.kcp broadcast.seenKey).2 with
    | false =>
      rw [receive_of_known isBroadcast own isNew]
      exact ⟨fun mark mem => (marked mark).mpr (.inr mem), fun taken => absurd rfl taken⟩
    | true =>
      rw [receive_of_new isBroadcast own isNew]
      have wellFormed := wellFormed_of_broadcastOf isBroadcast
      refine ⟨?_, ?_⟩
      · intro mark mem
        exact keys_callBack wellFormed retainsAgain ((marked mark).mpr (.inr mem))
      · intro _
        exact ⟨own, notMem_keys_of_isNew makeSeenKey_ne_nil retains isNew,
          keys_callBack wellFormed retainsAgain ((marked _).mpr (.inl rfl))⟩

end Receive

section Own

variable {config : KcpTunnelConfig} {tunnel : KcpTunnel}

theorem own_of_outgoingEnvelope {envelope : BroadcastEnvelope} {metadata : Option BroadcastMetadata}
    (isOwn : ∀ data ∈ metadata, data.origin = config.identity ∧ data.ttl = 0)
    (outgoing : KcpTunnel.outgoingEnvelope config answers payload metadata = some envelope) :
    envelope.origin = config.identity ∧ envelope.ttl = config.broadcastTtl := by
  obtain ⟨⟨sender, messageId, time⟩, names, rfl⟩ := Option.map_eq_some_iff.mp outgoing
  have ofFresh (fresh : (makeRandomMessageId answers.random).map (fun messageId =>
      (config.identity, messageId, config.broadcastTtl)) = some (sender, messageId, time)) :
      sender = config.identity ∧ time = config.broadcastTtl := by
    obtain ⟨_, -, same⟩ := Option.map_eq_some_iff.mp fresh
    cases same
    exact ⟨rfl, rfl⟩
  cases metadata with
  | none => exact ofFresh names
  | some data =>
    obtain ⟨origin, ttl⟩ := isOwn data rfl
    simp only [KcpTunnel.outgoingNames, ttl, origin] at names
    split at names
    · cases names
      exact ⟨rfl, rfl⟩
    · exact ofFresh names

theorem own_of_ownMetadata (random : Option KcpConv) :
    ∀ data ∈ some (ownMetadata config random), data.origin = config.identity ∧ data.ttl = 0 := by
  rintro _ ⟨⟩
  unfold ownMetadata
  cases makeRandomMessageId random <;> exact ⟨rfl, rfl⟩

theorem own_of_handle {event : NodeEvent} {copy : SentCopy} (isOwn : event.IsOwn)
    (named : config.identity.empty = false) (isByte : config.broadcastTtl < 256)
    (mem : copy ∈ (tunnel.handle config event).sent) :
    ∃ broadcast, broadcastOf copy.packet = some broadcast ∧
      broadcast.envelope.origin = config.identity ∧
      broadcast.envelope.ttl = config.broadcastTtl := by
  have same : config.broadcastTtl % 256 = config.broadcastTtl := Nat.mod_eq_of_lt isByte
  cases event with
  | packet => cases isOwn
  | control payload answers =>
    obtain ⟨envelope, outgoing, carries⟩ := broadcastOf_broadcastControl named mem
    obtain ⟨origin, ttl⟩ := own_of_outgoingEnvelope (by simp) outgoing
    exact ⟨_, carries, origin, by simp only [ttl, same]⟩
  | replicate streamId payload random answers =>
    obtain ⟨envelope, outgoing, carries⟩ :=
      broadcastOf_broadcastFrame rfl named isOwn mem
    obtain ⟨origin, ttl⟩ := own_of_outgoingEnvelope (own_of_ownMetadata random) outgoing
    exact ⟨_, carries, origin, by simp only [ttl, same]⟩
  | kafka payload answers =>
    obtain ⟨envelope, outgoing, carries⟩ :=
      broadcastOf_broadcastFrame rfl named (by decide) mem
    obtain ⟨origin, ttl⟩ := own_of_outgoingEnvelope (by simp) outgoing
    exact ⟨_, carries, origin, by simp only [ttl, same]⟩
  | configure => cases mem

theorem keys_handle {event : NodeEvent} (isOwn : event.IsOwn)
    (keeps : tunnel.Keeps config event) (mem : key ∈ tunnel.keys) :
    key ∈ (tunnel.handle config event).tunnel.keys := by
  cases event with
  | packet => cases isOwn
  | control payload answers => exact keys_broadcastControl keeps mem
  | replicate streamId payload random answers => exact keys_broadcastFrame keeps mem
  | kafka payload answers => exact keys_broadcastFrame keeps mem
  | configure => exact mem

end Own

section Safety

variable {Node : Type*} [DecidableEq Node]

def Network.Remembers (network : Network Node) (state : GossipState Node) :
    GossipEvent Node → Prop
  | .deliver node copy key answers =>
    (state.tunnels node).Keeps (network.config node) (.packet key copy.packet answers)
  | .act node event => (state.tunnels node).Keeps (network.config node) event
  | .unicast _ => True

instance (network : Network Node) (state : GossipState Node) :
    (event : GossipEvent Node) → Decidable (network.Remembers state event)
  | .deliver node copy key answers => inferInstanceAs (Decidable
      ((state.tunnels node).Keeps (network.config node) (.packet key copy.packet answers)))
  | .act node event =>
    inferInstanceAs (Decidable ((state.tunnels node).Keeps (network.config node) event))
  | .unicast _ => inferInstanceAs (Decidable True)

/-- A copy of a broadcast is within the time to live of its origin. -/
def Network.Within (network : Network Node) (copy : Copy) (broadcast : Broadcast) : Prop :=
  ∃ origin, (network.config origin).identity = broadcast.envelope.origin ∧
    (1 ≤ (network.config origin).broadcastTtl → 1 ≤ broadcast.envelope.ttl ∧
      copy.hop + broadcast.envelope.ttl ≤ (network.config origin).broadcastTtl + 1)

structure Safe (network : Network Node) (state : GossipState Node) : Prop where
  once : ∀ node id, state.deliveries.count (node, id) ≤ 1
  marked : ∀ ⦃node id⦄, (node, id) ∈ state.deliveries → id.seenKey ∈ (state.tunnels node).keys
  foreign : ∀ ⦃node id⦄, (node, id) ∈ state.deliveries → id.origin ≠ (network.config node).identity
  copies : ∀ ⦃copy⦄, copy ∈ state.copies → IsUnicast copy.packet ∨
    ∃ broadcast, broadcastOf copy.packet = some broadcast ∧ network.Within copy broadcast

namespace Safe

variable {network : Network Node} {state : GossipState Node}

theorem initial : Safe network {} where
  once := by simp
  marked := by simp
  foreign := by simp
  copies := by simp

theorem after {node : Node} {hop : ℕ} {reception : Reception} {delivered : Option BroadcastId}
    (safe : Safe network state)
    (kept : ∀ mark ∈ (state.tunnels node).keys, mark ∈ reception.tunnel.keys)
    (fresh : ∀ id ∈ delivered, id.origin ≠ (network.config node).identity ∧
      id.seenKey ∉ (state.tunnels node).keys ∧ id.seenKey ∈ reception.tunnel.keys)
    (sent : ∀ copy ∈ reception.sent, ∃ broadcast, broadcastOf copy.packet = some broadcast ∧
      network.Within ⟨hop + 1, copy.packet⟩ broadcast) :
    Safe network (state.after node hop reception delivered) := by
  have keys {other : Node} {mark : Bytes} (mem : mark ∈ (state.tunnels other).keys) :
      mark ∈ ((state.after node hop reception delivered).tunnels other).keys := by
    by_cases here : other = node
    · subst here
      simpa [GossipState.after] using kept mark mem
    · simpa [GossipState.after, here] using mem
  have isDelivered {other : Node} {id : BroadcastId}
      (mem : (other, id) ∈ delivered.toList.map fun id => (node, id)) :
      other = node ∧ id ∈ delivered := by
    simp only [mem_map, Option.mem_toList, Prod.mk.injEq] at mem
    rcases mem with ⟨_, isId, rfl, rfl⟩
    exact ⟨rfl, isId⟩
  refine ⟨?_, ?_, ?_, ?_⟩
  · intro other id
    change (state.deliveries ++ delivered.toList.map fun id => (node, id)).count (other, id) ≤ 1
    rw [count_append]
    by_cases isNew : (other, id) ∈ delivered.toList.map fun id => (node, id)
    · rcases isDelivered isNew with ⟨rfl, isId⟩
      have before : state.deliveries.count (other, id) = 0 := by
        apply count_eq_zero.mpr
        intro mem
        exact (fresh id isId).2.1 (safe.marked mem)
      have atMost : (delivered.toList.map fun id => (other, id)).count (other, id) ≤ 1 := by
        apply count_le_length.trans
        rw [length_map]
        exact Option.length_toList_le
      omega
    · rw [count_eq_zero.mpr isNew]
      exact safe.once other id
  · intro other id mem
    rcases mem_append.mp mem with before | isNew
    · exact keys (safe.marked before)
    · rcases isDelivered isNew with ⟨rfl, isId⟩
      simpa [GossipState.after] using (fresh id isId).2.2
  · intro other id mem
    rcases mem_append.mp mem with before | isNew
    · exact safe.foreign before
    · rcases isDelivered isNew with ⟨rfl, isId⟩
      exact (fresh id isId).1
  · intro copy mem
    rcases mem_append.mp mem with before | isNew
    · exact safe.copies before
    · rcases mem_map.mp isNew with ⟨sentCopy, isSent, rfl⟩
      exact .inr (sent sentCopy isSent)

theorem deliver {node : Node} {copy : Copy} {key : KcpSessionKey} {answers : NodeAnswers}
    (safe : Safe network state) (mem : copy ∈ state.copies)
    (keeps : (state.tunnels node).Keeps (network.config node) (.packet key copy.packet answers)) :
    let reception := (state.tunnels node).receive (network.config node) answers key copy.packet
    Safe network (state.after node copy.hop reception (deliveredId copy.packet reception)) := by
  intro reception
  rcases safe.copies mem with isUnicast | ⟨broadcast, isBroadcast, origin, isOrigin, within⟩
  · obtain ⟨same, silent⟩ : reception.tunnel = state.tunnels node ∧ reception.sent = [] :=
      receive_of_unicast isUnicast
    apply safe.after
    · intro mark isMark
      rw [same]
      exact isMark
    · simp [deliveredId, broadcastOf_eq_none isUnicast]
    · intro sent isSent
      rw [silent] at isSent
      cases isSent
  · obtain ⟨kept, taken⟩ := marks_of_receive isBroadcast keeps
    apply safe.after kept
    · intro id isId
      simp only [deliveredId, isBroadcast, Option.mem_def, Option.ite_none_left_eq_some,
        Option.map_some, Option.some.injEq] at isId
      rcases isId with ⟨isTaken, rfl⟩
      exact taken isTaken
    · intro sent isSent
      obtain ⟨ttl, carries, shorter⟩ :=
        sent_of_broadcast isBroadcast (fun _ => network.named node) isSent
      refine ⟨_, carries, origin, isOrigin, ?_⟩
      intro positive
      obtain ⟨isPositive, bound⟩ := within positive
      rcases shorter with ⟨several, rfl⟩ | ⟨_, usedUp, _⟩
      · simp only [Broadcast.withTtl]
        omega
      · omega

theorem step {after : GossipState Node} {event : GossipEvent Node} (safe : Safe network state)
    (remembers : network.Remembers state event)
    (taken : network.step state event = some after) : Safe network after := by
  cases event with
  | deliver node copy key answers =>
    simp only [Network.step, Option.ite_none_right_eq_some, Option.some.injEq] at taken
    rcases taken with ⟨mem, rfl⟩
    exact safe.deliver mem remembers
  | act node event =>
    simp only [Network.step, Option.ite_none_right_eq_some, Option.some.injEq] at taken
    rcases taken with ⟨isOwn, rfl⟩
    apply safe.after
    · intro mark mem
      exact keys_handle isOwn remembers mem
    · simp
    · intro copy isSent
      obtain ⟨broadcast, carries, origin, ttl⟩ :=
        own_of_handle isOwn (network.named node) (network.isByte node) isSent
      refine ⟨broadcast, carries, node, origin.symm, ?_⟩
      intro positive
      simp only [ttl]
      omega
  | unicast packet =>
    simp only [Network.step, Option.ite_none_right_eq_some, Option.some.injEq] at taken
    rcases taken with ⟨isUnicast, rfl⟩
    refine ⟨safe.once, safe.marked, safe.foreign, ?_⟩
    intro copy mem
    rcases mem_append.mp mem with before | isNew
    · exact safe.copies before
    · cases mem_singleton.mp isNew
      exact .inl isUnicast

end Safe

/-- In every run in which no node loses a mark: a node takes every broadcast at most once, and none
of its own, and every copy of a broadcast that started with a time to live of at least one has a hop
number that does not exceed it. -/
theorem gossip_safe {network : Network Node} {events : List (GossipEvent Node)}
    {state : GossipState Node} (run : Run network.step network.Remembers {} events state) :
    (∀ node id, state.deliveries.count (node, id) ≤ 1) ∧
      (∀ node id, (node, id) ∈ state.deliveries → id.origin ≠ (network.config node).identity) ∧
      ∀ copy ∈ state.copies, ∀ broadcast, broadcastOf copy.packet = some broadcast →
        ∀ origin, (network.config origin).identity = broadcast.envelope.origin →
          1 ≤ (network.config origin).broadcastTtl →
          copy.hop ≤ (network.config origin).broadcastTtl := by
  have safe : Safe network state := by
    apply run.invariant
    · exact Safe.initial
    · intro before after event remembers taken safe
      exact safe.step remembers taken
  refine ⟨safe.once, safe.foreign, ?_⟩
  intro copy mem broadcast isBroadcast origin isOrigin positive
  rcases safe.copies mem with isUnicast | ⟨carried, carries, other, isOther, within⟩
  · simp [broadcastOf_eq_none isUnicast] at isBroadcast
  · obtain rfl : carried = broadcast := Option.some.inj (carries.symm.trans isBroadcast)
    obtain rfl : other = origin := network.distinct (isOther.trans isOrigin.symm)
    have := within positive
    omega

end Safety

def twoNodes : Network (Fin 2) where
  config node := { relayNode with identity := .ofUint32 (node + 1) }
  named := by decide
  distinct := by decide
  isByte := by decide

def messageAnswers : NodeAnswers :=
  let kcp := { openAnswers.kcp with random := some (.ofUint32 9) }
  { openAnswers with kcp, rebroadcast := kcp }

def messageCopy (hop ttl : ℕ) : Copy where
  hop
  packet := encodeTunnelFrame .kafkaBroadcast 1
    (encodeBroadcastEnvelope
      { origin := .ofUint32 1, messageId := .ofUint32 9, ttl, payload := [7] })

/-- The second node gets the message twice, and passes it back to the first one. -/
theorem message_taken_once : ∃ state,
    Run twoNodes.step twoNodes.Remembers {}
      [.act 0 (.configure true [relayLink]), .act 1 (.configure true [relayLink]),
        .act 0 (.kafka [7] messageAnswers.kcp),
        .deliver 1 (messageCopy 1 4) relayLink.session messageAnswers,
        .deliver 1 (messageCopy 1 4) relayLink.session messageAnswers,
        .deliver 0 (messageCopy 2 3) relayLink.session messageAnswers] state ∧
    state.copies = [messageCopy 1 4, messageCopy 2 3] ∧
    (∀ id, state.deliveries.count (1, id) ≤ 1) ∧
    ∀ id, (0, id) ∈ state.deliveries → id.origin ≠ .ofUint32 1 := by
  apply Run.exists_of_execute fun state => state.copies == [messageCopy 1 4, messageCopy 2 3]
  · decide +kernel
  · intro state run facts
    obtain ⟨once, foreign, _⟩ := gossip_safe run
    exact ⟨beq_iff_eq.mp facts, once 1, foreign 0⟩

end IotProxy.Proxy
