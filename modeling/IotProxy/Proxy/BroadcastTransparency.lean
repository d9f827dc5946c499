import IotProxy.Proxy.BroadcastRelay

/-!
# What a broadcast carries

A broadcast payload travels in two nested formats: an envelope with the names of the broadcast, and
the frame around it. A receiver tells an envelope from a plain payload by its first four bytes.

A packet of `broadcast_frame` or `broadcast_control` carries the payload that it was given, whatever
its bytes are: an envelope is always put around it, so the test sees the magic number of that
envelope. A relay decodes the packet and builds a new one from the parts.
-/

namespace IotProxy.Proxy

open KcpTunnel

namespace KcpTunnel

section Model

variable (config : KcpTunnelConfig) (tunnel : KcpTunnel) (answers : TunnelAnswers)

def autoRelays (packet : Bytes) : List SentCopy :=
  match decodeTunnelFrame packet, broadcastOf packet with
  | some frame, some broadcast =>
    (tunnel.prepareInboundBroadcast config answers frame).relayedTo.map
      (⟨·, broadcast.relayPacket⟩)
  | _, _ => []

end Model

end KcpTunnel

structure OriginalMessage where
  type : TunnelFrameType
  streamId : ℕ
  origin : KcpConv
  messageId : KcpConv
  payload : Bytes
  deriving DecidableEq

namespace OriginalMessage

def broadcast (original : OriginalMessage) (ttl : ℕ) : Broadcast where
  type := original.type
  streamId := original.streamId
  envelope :=
    { origin := original.origin, messageId := original.messageId, ttl
      payload := original.payload }

def seenKey (original : OriginalMessage) : Bytes :=
  makeSeenKey original.type original.streamId original.origin original.messageId

/-- The packet carries the announced payload and names, with some time to live. -/
def CarriedBy (original : OriginalMessage) (packet : Bytes) : Prop :=
  ∃ ttl, broadcastOf packet = some (original.broadcast ttl)

end OriginalMessage

/-- The packets in envelopes that a node builds, with the payload and the names that they are built
for. Nothing is built for stream zero or for an empty control message. -/
inductive BuiltBy (config : KcpTunnelConfig) (answers : TunnelAnswers) :
    OriginalMessage → Bytes → Prop
  | frame {type : TunnelFrameType} {streamId ttl : ℕ} {payload packet : Bytes}
      {metadata : Option BroadcastMetadata} {origin messageId : KcpConv}
      {envelope : BroadcastEnvelope} (hasStream : streamId ≠ 0) (inRange : streamId < 2 ^ 64)
      (names : KcpTunnel.outgoingNames config answers metadata = some (origin, messageId, ttl))
      (built : KcpTunnel.wirePacket config answers type streamId payload metadata =
        some (packet, some envelope)) :
      BuiltBy config answers { type, streamId, payload, origin, messageId } packet
  | control {payload packet : Bytes} {origin messageId : KcpConv} {ttl : ℕ}
      {envelope : BroadcastEnvelope} (hasPayload : payload ≠ [])
      (names : KcpTunnel.outgoingNames config answers none = some (origin, messageId, ttl))
      (built : KcpTunnel.wirePacket config answers .control 0 payload none =
        some (packet, some envelope)) :
      BuiltBy config answers { type := .control, streamId := 0, payload, origin, messageId } packet

inductive RelayedFrom (packet : Bytes) : Bytes → Prop
  | start : RelayedFrom packet packet
  | relay {before : Bytes} {config : KcpTunnelConfig} {tunnel : KcpTunnel}
      {answers : TunnelAnswers} {copy : SentCopy} (relayed : RelayedFrom packet before)
      (sent : copy ∈ tunnel.autoRelays config answers before) : RelayedFrom packet copy.packet

/-- How `handle_kcp_message` calls back with a frame. The control callback gets the payload only. -/
def callbackOf (key : KcpSessionKey) (frame : TunnelFrame) : KcpTunnel.Inbound :=
  if frame.type = .control then .control key frame.payload else .frame frame

namespace KcpTunnel

section Relaying

variable {config : KcpTunnelConfig} {tunnel : KcpTunnel} {answers : TunnelAnswers} {packet : Bytes}
  {copy : SentCopy}

theorem relay_of_autoRelays {broadcast : Broadcast}
    (isBroadcast : broadcastOf packet = some broadcast)
    (mem : copy ∈ tunnel.autoRelays config answers packet) :
    ∃ marked : KcpTunnel, ∃ link ∈ marked.relay config answers broadcast.type broadcast.streamId
      broadcast.envelope, copy = ⟨link, broadcast.relayPacket⟩ := by
  rcases exists_frame_of_broadcastOf isBroadcast with ⟨payload, _, decoded, relayed, enveloped⟩
  simp only [autoRelays, decoded, isBroadcast, List.mem_map, prepareInboundBroadcast, relayed,
    enveloped, Bool.not_true, Bool.false_eq_true, if_false] at mem
  rcases mem with ⟨link, mem, rfl⟩
  split at mem
  · cases mem
  · split at mem
    · cases mem
    · exact ⟨_, link, mem, rfl⟩

end Relaying

end KcpTunnel

namespace OriginalMessage

variable {original : OriginalMessage} {config : KcpTunnelConfig} {tunnel : KcpTunnel}
  {answers : TunnelAnswers} {packet : Bytes}

theorem carriedBy_wirePacket {metadata : Option BroadcastMetadata} {envelope : BroadcastEnvelope}
    {ttl : ℕ} (inRange : original.streamId < 2 ^ 64)
    (hasStream : original.type ≠ .control → original.streamId ≠ 0)
    (fits : original.payload.length + broadcastHeaderSize < 2 ^ 32)
    (names : KcpTunnel.outgoingNames config answers metadata =
      some (original.origin, original.messageId, ttl))
    (built : KcpTunnel.wirePacket config answers original.type original.streamId original.payload
      metadata = some (packet, some envelope)) :
    original.CarriedBy packet := by
  obtain ⟨relayed, named⟩ : isRelayedType original.type = true ∧ config.identity.empty = false := by
    by_contra plain
    rw [KcpTunnel.wirePacket, if_neg (by simpa using plain)] at built
    simp at built
  obtain ⟨outgoing, isOutgoing, hasEnvelope, same⟩ := wirePacket_of_named relayed named built
  rw [KcpTunnel.outgoingEnvelope, names, Option.map_some, Option.some.injEq] at isOutgoing
  subst isOutgoing
  obtain ⟨origin, messageId, short⟩ := named_of_encodeBroadcastEnvelope hasEnvelope
  have length := encodeBroadcastEnvelope_length _ origin messageId short
  have hasPacket : encodeTunnelFrame original.type original.streamId _ ≠ [] :=
    encodeTunnelFrame_ne_nil (by rw [length]; simp only; omega)
  refine ⟨ttl % 256, ?_⟩
  rw [(Prod.mk.inj same).1, broadcastOf_encode relayed inRange hasStream hasEnvelope hasPacket]
  rfl

theorem carriedBy_of_builtBy (built : BuiltBy config answers original packet)
    (fits : original.payload.length + broadcastHeaderSize < 2 ^ 32) :
    original.CarriedBy packet := by
  cases built with
  | frame hasStream inRange names built =>
    exact carriedBy_wirePacket inRange (fun _ => hasStream) fits names built
  | control hasPayload names built =>
    exact carriedBy_wirePacket (Nat.two_pow_pos 64) (by simp) fits names built

theorem CarriedBy.relayedFrom {copy : Bytes} (carried : original.CarriedBy packet)
    (relayed : RelayedFrom packet copy) : original.CarriedBy copy := by
  induction relayed with
  | start => exact carried
  | relay _ sent carried =>
    rcases carried with ⟨ttl, isBroadcast⟩
    rcases relay_of_autoRelays isBroadcast sent with ⟨marked, link, relays, rfl⟩
    have wellFormed := wellFormed_of_broadcastOf isBroadcast
    exact ⟨ttl - 1, (broadcastOf_relay wellFormed relays).2⟩

theorem CarriedBy.delivered {key : KcpSessionKey} (carried : original.CarriedBy packet)
    (foreign : original.origin ≠ config.identity)
    (unseen : KcpTunnel.Forgotten config tunnel answers.nowMs original.seenKey) :
    ∃ ttl wire, decodeTunnelFrame packet = some wire ∧
      (tunnel.prepareInboundBroadcast config answers wire).content =
        some (original.payload, (original.broadcast ttl).metadata) ∧
      (tunnel.handleKcpMessage config answers key packet).2 =
        callbackOf key (original.broadcast ttl).frame := by
  rcases carried with ⟨ttl, isBroadcast⟩
  rcases exists_frame_of_broadcastOf isBroadcast with
    ⟨payload, received, decoded, relayed, enveloped⟩
  have isNew : (tunnel.markBroadcastSeen config answers original.seenKey).2 = true := by
    rw [isNew_iff_forgotten (by simp [seenKey, makeSeenKey])]
    exact unseen
  have content : (tunnel.prepareInboundBroadcast config answers
      ⟨original.type, original.streamId, payload, received⟩).content =
        some (original.payload, (original.broadcast ttl).metadata) := by
    rw [seenKey] at isNew
    simp only [broadcast] at relayed enveloped
    simp [KcpTunnel.prepareInboundBroadcast, relayed, enveloped, foreign, isNew, broadcast,
      Broadcast.metadata]
  refine ⟨ttl, _, decoded, content, ?_⟩
  simp only [broadcast] at decoded
  simp only [KcpTunnel.handleKcpMessage, decoded, content, callbackOf]
  exact apply_ite Prod.snd _ _ _

end OriginalMessage

theorem handleKcpMessage_encode {config : KcpTunnelConfig} {tunnel : KcpTunnel}
    {answers : TunnelAnswers} {key : KcpSessionKey} {type : TunnelFrameType} {streamId : ℕ}
    {payload : Bytes} (notRelayed : isRelayedType type = false) (hasStream : streamId ≠ 0)
    (inRange : streamId < 2 ^ 64) (fits : payload.length ≤ 2 ^ 32 - 1) :
    (tunnel.handleKcpMessage config answers key (encodeTunnelFrame type streamId payload)).2 =
      .frame { type, streamId, payload } := by
  have notControl : type ≠ .control := by
    rintro rfl
    cases notRelayed
  simp [KcpTunnel.handleKcpMessage, decode_encodeTunnelFrame fits inRange fun _ => hasStream,
    KcpTunnel.prepareInboundBroadcast, notRelayed, notControl]

/-- Every node that has not seen a broadcast gets the payload and the names that it was started with,
over any number of relays. Frames of the other types are delivered as they are, even if their payload
looks like an envelope. -/
theorem broadcast_payload_unchanged {config : KcpTunnelConfig} {answers : TunnelAnswers}
    {original : OriginalMessage} {packet : Bytes}
    (built : BuiltBy config answers original packet)
    (fits : original.payload.length + broadcastHeaderSize < 2 ^ 32) :
    (∀ copy, RelayedFrom packet copy →
      ∀ (receiver : KcpTunnelConfig) (tunnel : KcpTunnel) (later : TunnelAnswers)
        (key : KcpSessionKey), original.origin ≠ receiver.identity →
        KcpTunnel.Forgotten receiver tunnel later.nowMs original.seenKey →
      ∃ ttl wire, decodeTunnelFrame copy = some wire ∧
        (tunnel.prepareInboundBroadcast receiver later wire).content =
          some (original.payload, (original.broadcast ttl).metadata) ∧
        (tunnel.handleKcpMessage receiver later key copy).2 =
          callbackOf key (original.broadcast ttl).frame) ∧
    ∀ type, isRelayedType type = false → ∀ streamId, streamId ≠ 0 → streamId < 2 ^ 64 →
      ∀ payload, payload.length ≤ 2 ^ 32 - 1 →
      ∀ (receiver : KcpTunnelConfig) (tunnel : KcpTunnel) (later : TunnelAnswers)
        (key : KcpSessionKey),
        (tunnel.handleKcpMessage receiver later key
          (encodeTunnelFrame type streamId payload)).2 = .frame { type, streamId, payload } := by
  constructor
  · intro copy relayed receiver tunnel later key foreign unseen
    have carried := OriginalMessage.carriedBy_of_builtBy built fits
    exact (carried.relayedFrom relayed).delivered foreign unseen
  · intro type notRelayed streamId hasStream inRange payload fits receiver tunnel later key
    exact handleKcpMessage_encode notRelayed hasStream inRange fits

def drawingAnswers : TunnelAnswers where
  nowMs := 0
  random := some (.ofUint32 5)
  accepts := fun _ => true
  firstEntry := fun _ => 0

/-- Replicated data that starts with the magic number of envelopes. -/
def magicOriginal : OriginalMessage where
  type := .replicate
  streamId := 1
  origin := relayNode.identity
  messageId := .ofUint32 5
  payload := broadcastMagic ++ [7]

def magicPacket : Bytes :=
  encodeTunnelFrame .replicate 1 (encodeBroadcastEnvelope (magicOriginal.broadcast 4).envelope)

def magicCopy : Bytes :=
  (magicOriginal.broadcast 4).relayPacket

/-- A payload that begins like an envelope, both in a broadcast and in a data frame. -/
theorem magic_payload_unchanged :
    (∃ ttl wire, decodeTunnelFrame magicCopy = some wire ∧
      (KcpTunnel.prepareInboundBroadcast { relayNode with identity := .ofUint32 9 } {}
        drawingAnswers wire).content =
        some (magicOriginal.payload, (magicOriginal.broadcast ttl).metadata) ∧
      (KcpTunnel.handleKcpMessage { relayNode with identity := .ofUint32 9 } {} drawingAnswers
        relayLink.session magicCopy).2 =
        callbackOf relayLink.session (magicOriginal.broadcast ttl).frame) ∧
    (KcpTunnel.handleKcpMessage relayNode {} drawingAnswers relayLink.session
      (encodeTunnelFrame .data 1 magicOriginal.payload)).2 =
        .frame { type := .data, streamId := 1, payload := magicOriginal.payload } := by
  have names : KcpTunnel.outgoingNames relayNode drawingAnswers none =
      some (magicOriginal.origin, magicOriginal.messageId, 4) := by
    decide +kernel
  have packet : KcpTunnel.wirePacket relayNode drawingAnswers .replicate 1 magicOriginal.payload
      none = some (magicPacket, some (magicOriginal.broadcast 4).envelope) := by
    decide +kernel
  have built : BuiltBy relayNode drawingAnswers magicOriginal magicPacket :=
    .frame (by decide) (by decide) names packet
  have relayed : RelayedFrom magicPacket magicCopy := by
    have sent : ⟨relayLink, magicCopy⟩ ∈ relayTunnel.autoRelays
        { relayNode with identity := .ofUint32 2 } drawingAnswers magicPacket := by
      decide +kernel
    exact .relay .start sent
  have unchanged := broadcast_payload_unchanged built (by decide +kernel)
  constructor
  · exact unchanged.1 magicCopy relayed _ {} drawingAnswers relayLink.session (by decide +kernel)
      (by decide +kernel)
  · exact unchanged.2 .data rfl 1 (by decide) (by decide) _ (by decide +kernel) relayNode {}
      drawingAnswers relayLink.session

end IotProxy.Proxy
