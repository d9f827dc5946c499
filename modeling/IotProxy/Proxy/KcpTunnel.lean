import IotProxy.Proxy.TunnelFrame

/-!
# The KCP tunnel

The tunnel sends frames to single peers and broadcasts frames to all of them. A broadcast payload is
wrapped in an envelope that names its origin and its message id, so that every node handles and
relays it once. The peers of a node are its links, at most one for each node id.

Whether the KCP manager takes a packet for a session is part of `TunnelAnswers`, as are the clock,
the random generator and the iteration order of the table of seen broadcasts.
-/

namespace IotProxy.Proxy

open List BigEndian

structure KcpTunnelConfig where
  identity : KcpConv
  /-- The peer of `send_frame`, and the address it resolves to. -/
  peer : NodeAddress
  maxPeerLinks : ℕ := 512
  broadcastTtl : ℕ := 4
  maxBroadcastFanout : ℕ := 32
  maxSeenBroadcasts : ℕ := 8192
  seenBroadcastSeconds : ℕ := 10 * 60

structure PeerLink where
  peer : NodeAddress
  conv : KcpConv
  addr : SockAddr
  deriving DecidableEq

def PeerLink.session (link : PeerLink) : KcpSessionKey where
  addr := link.addr
  conv := link.conv

/-- A packet that a link has taken. -/
structure SentCopy where
  link : PeerLink
  packet : Bytes
  deriving DecidableEq

/-- The fields of the tunnel that decide where a message goes. -/
structure KcpTunnel where
  running : Bool := false
  peerAddr : SockAddr := { addr := [0, 0, 0, 0], port := 0 }
  peerLinks : List PeerLink := []
  seenBroadcasts : List (Bytes × ℤ) := []

/-- What the clock, the random numbers and the sessions answer during a call. -/
structure TunnelAnswers where
  nowMs : ℤ
  random : Option KcpConv
  accepts : KcpSessionKey → Bool
  /-- The place of the first entry of the table of seen broadcasts in its iteration order. -/
  firstEntry : List (Bytes × ℤ) → ℕ

def TunnelAnswers.managerSend (answers : TunnelAnswers) (key : KcpSessionKey) (packet : Bytes) :
    Bool :=
  key.valid && !packet.isEmpty && answers.accepts key

section Envelope

def isRelayedType (type : TunnelFrameType) : Bool :=
  type = .control || type = .replicate || type = .kafkaBroadcast

def autoRelayType (type : TunnelFrameType) : Bool :=
  type = .control || type = .replicate

def broadcastHeaderSize : ℕ := 76

def broadcastMagic : Bytes :=
  BigEndian.store 4 0x49504742

def broadcastVersion : UInt8 := 1

/-- The header and the payload of a message that nodes pass on. -/
structure BroadcastEnvelope where
  origin : KcpConv
  messageId : KcpConv
  ttl : ℕ
  payload : Bytes
  deriving DecidableEq

/-- The bytes of an envelope; empty when a name is missing or the payload is too long. -/
def encodeBroadcastEnvelope (envelope : BroadcastEnvelope) : Bytes :=
  if envelope.origin.empty || envelope.messageId.empty
      || envelope.payload.length > 2 ^ 32 - 1 then []
  else
    broadcastMagic ++ [broadcastVersion, envelope.ttl.toUInt8, 0, 0] ++ envelope.origin.bytes
      ++ envelope.messageId.bytes ++ BigEndian.store 4 envelope.payload.length
      ++ envelope.payload

inductive BroadcastDecodeStatus where
  | plain
  | invalid
  | envelope (view : BroadcastEnvelope)
  deriving DecidableEq

/-- A payload that does not start with the magic number is no envelope. -/
def decodeBroadcastEnvelope (payload : Bytes) : BroadcastDecodeStatus :=
  if payload.length < 4 || payload.take 4 != broadcastMagic then .plain
  else if payload.length < broadcastHeaderSize || payload.getD 4 0 != broadcastVersion
      || payload.getD 6 0 != 0 || payload.getD 7 0 != 0
      || payload.length - broadcastHeaderSize != BigEndian.load ((payload.drop 72).take 4) then
    .invalid
  else
    let origin := KcpConv.ofBytes (payload.drop 8)
    let messageId := KcpConv.ofBytes (payload.drop 40)
    if origin.empty || messageId.empty then .invalid
    else .envelope
      { origin, messageId, ttl := (payload.getD 5 0).toNat
        payload := payload.drop broadcastHeaderSize }

theorem decode_encodeBroadcastEnvelope {envelope : BroadcastEnvelope}
    (origin : envelope.origin.empty = false) (messageId : envelope.messageId.empty = false)
    (fits : envelope.payload.length ≤ 2 ^ 32 - 1) :
    decodeBroadcastEnvelope (encodeBroadcastEnvelope envelope) =
      .envelope { envelope with ttl := envelope.ttl % 256 } := by
  rw [encodeBroadcastEnvelope, origin, messageId, if_neg (by simpa using fits)]
  set names := envelope.origin.bytes ++ (envelope.messageId.bytes ++
    (store 4 envelope.payload.length ++ envelope.payload)) with isNames
  set packet := broadcastMagic ++ [broadcastVersion, envelope.ttl.toUInt8, 0, 0] ++
    envelope.origin.bytes ++ envelope.messageId.bytes ++
    store 4 envelope.payload.length ++ envelope.payload with isPacket
  have dropNames : packet.drop 8 = names := by
    simp only [isPacket, isNames, append_assoc]
    rfl
  have dropOrigin : packet.drop 40 = envelope.messageId.bytes ++
      (store 4 envelope.payload.length ++ envelope.payload) := by
    rw [show 40 = 8 + 32 from rfl, ← drop_drop, dropNames, isNames, drop_left' envelope.origin.size]
  have dropMessageId : packet.drop 72 = store 4 envelope.payload.length ++ envelope.payload := by
    rw [show 72 = 40 + 32 from rfl, ← drop_drop, dropOrigin, drop_left' envelope.messageId.size]
  have content : packet.drop broadcastHeaderSize = envelope.payload := by
    rw [broadcastHeaderSize, show 76 = 72 + 4 from rfl, ← drop_drop, dropMessageId,
      drop_left' (length_store 4 _)]
  have length : packet.length = broadcastHeaderSize + envelope.payload.length := by
    simp only [isPacket, broadcastMagic, broadcastHeaderSize, length_append, length_store,
      envelope.origin.size, envelope.messageId.size, length_cons, length_nil]
  have isLength : load ((packet.drop 72).take 4) = envelope.payload.length := by
    rw [dropMessageId, take_left' (length_store 4 _), load_store]
    omega
  have isTtl : (packet.getD 5 0).toNat = envelope.ttl % 256 := by
    change (envelope.ttl.toUInt8).toNat = envelope.ttl % 256
    simp
  have magic : packet.take 4 = broadcastMagic := rfl
  have version : packet.getD 4 0 = broadcastVersion := rfl
  have reserved : packet.getD 6 0 = 0 ∧ packet.getD 7 0 = 0 := ⟨rfl, rfl⟩
  have long : 4 ≤ broadcastHeaderSize + envelope.payload.length :=
    Nat.le_add_right_of_le (by decide)
  rw [decodeBroadcastEnvelope, magic, version, reserved.1, reserved.2, isLength, isTtl, dropNames,
    dropOrigin, content, KcpConv.ofBytes_append, KcpConv.ofBytes_append]
  simp [length, long, origin, messageId]

theorem bounds_of_decodeBroadcastEnvelope {payload : Bytes} {envelope : BroadcastEnvelope}
    (decoded : decodeBroadcastEnvelope payload = .envelope envelope) :
    envelope.origin.empty = false ∧ envelope.messageId.empty = false ∧ envelope.ttl < 256 ∧
      payload.length = broadcastHeaderSize + envelope.payload.length := by
  unfold decodeBroadcastEnvelope at decoded
  split at decoded
  · cases decoded
  · split at decoded
    · cases decoded
    · next valid =>
        simp only at decoded
        split at decoded
        · cases decoded
        · next named =>
            cases decoded
            simp only [Bool.or_eq_true, not_or, Bool.not_eq_true, decide_eq_false_iff_not,
              not_lt, bne_eq_false_iff_eq] at named valid
            refine ⟨named.1, named.2, UInt8.toNat_lt _, ?_⟩
            simp only [length_drop]
            omega

def makeSeenKey (type : TunnelFrameType) (streamId : ℕ) (origin messageId : KcpConv) : Bytes :=
  type.code :: BigEndian.store 8 streamId ++ origin.bytes ++ messageId.bytes

def makeRandomMessageId (random : Option KcpConv) : Option KcpConv :=
  random.map fun conv =>
    if conv.empty then KcpConv.ofBytes (List.replicate 31 0 ++ [1]) else conv

/-- What the runtime's `broadcast_metadata_factory_` makes for a broadcast of its own. -/
def ownMetadata (config : KcpTunnelConfig) (random : Option KcpConv) : BroadcastMetadata :=
  match makeRandomMessageId random with
  | none => { origin := config.identity }
  | some messageId => { origin := config.identity, messageId, valid := !config.identity.empty }

/-- The order in which links are chosen when there are more than the fan-out allows. -/
def fanoutScore (messageId : KcpConv) (link : PeerLink) : UInt64 :=
  (messageId.bytes ++ link.peer.id.bytes ++ link.conv.bytes ++ link.addr.addr
      ++ BigEndian.store 2 link.addr.port).foldl
    (fun hash byte => (hash ^^^ byte.toUInt64) * 1099511628211) 1469598103934665603

end Envelope

namespace KcpTunnel

def findLink (tunnel : KcpTunnel) (id : KcpConv) : Option PeerLink :=
  tunnel.peerLinks.find? (·.peer.id = id)

/-- Add a link, or replace the one with the same peer. -/
def addPeerLink (config : KcpTunnelConfig) (tunnel : KcpTunnel) (peer : NodeAddress)
    (conv : KcpConv) : KcpTunnel × Bool :=
  if peer.endpoint.host.isEmpty || peer.endpoint.port = 0 || peer.id.empty || conv.empty then
    (tunnel, false)
  else
    match makeSockaddr peer.endpoint with
    | none => (tunnel, false)
    | some addr =>
      if (tunnel.findLink peer.id).isNone && config.maxPeerLinks ≤ tunnel.peerLinks.length then
        (tunnel, false)
      else
        let others := tunnel.peerLinks.filter (·.peer.id ≠ peer.id)
        ({ tunnel with peerLinks := { peer, conv, addr } :: others }, true)

def sendFrame (config : KcpTunnelConfig) (tunnel : KcpTunnel) (answers : TunnelAnswers)
    (type : TunnelFrameType) (streamId : ℕ) (payload : Bytes) : Option KcpSessionKey :=
  let packet := encodeTunnelFrame type streamId payload
  let key : KcpSessionKey := { addr := tunnel.peerAddr, conv := config.peer.id }
  if !tunnel.running || streamId = 0 || !answers.managerSend key packet then none
  else some key

def sendFrameTo (tunnel : KcpTunnel) (answers : TunnelAnswers) (nextHop : KcpConv)
    (type : TunnelFrameType) (streamId : ℕ) (payload : Bytes) : Option KcpSessionKey :=
  if !tunnel.running || nextHop.empty || streamId = 0 then none
  else
    match tunnel.findLink nextHop with
    | none => none
    | some link =>
      let packet := encodeTunnelFrame type streamId payload
      if answers.managerSend link.session packet then some link.session else none

section Seen

def makeRoom (limit : ℕ) (firstEntry : List (Bytes × ℤ) → ℕ) :
    ℕ → List (Bytes × ℤ) → List (Bytes × ℤ)
  | 0, seen => seen
  | rounds + 1, seen =>
    if limit ≤ seen.length ∧ seen ≠ [] then
      makeRoom limit firstEntry rounds (seen.eraseIdx (firstEntry seen % seen.length))
    else seen

/-- Remember a broadcast. The result says whether it is a new one. -/
def markBroadcastSeen (config : KcpTunnelConfig) (tunnel : KcpTunnel) (answers : TunnelAnswers)
    (key : Bytes) : KcpTunnel × Bool :=
  if key.isEmpty || config.maxSeenBroadcasts = 0 then (tunnel, true)
  else
    let ttlMs : ℤ := config.seenBroadcastSeconds * 1000
    let expiresAt := if ttlMs ≤ 0 then 2 ^ 63 - 1 else answers.nowMs + ttlMs
    let seen := tunnel.seenBroadcasts.filter fun entry => answers.nowMs < entry.2
    if seen.any (·.1 == key) then
      -- a repetition also extends the time the key is remembered
      let refreshed := seen.map fun entry => if entry.1 == key then (key, expiresAt) else entry
      ({ tunnel with seenBroadcasts := refreshed }, false)
    else
      let kept := makeRoom config.maxSeenBroadcasts answers.firstEntry seen.length seen
      ({ tunnel with seenBroadcasts := (key, expiresAt) :: kept }, true)

end Seen

section Broadcast

variable (config : KcpTunnelConfig) (tunnel : KcpTunnel) (answers : TunnelAnswers)

def fanout (messageId : Option KcpConv) : List PeerLink :=
  match messageId with
  | some messageId =>
    if config.maxBroadcastFanout ≠ 0 ∧ config.maxBroadcastFanout < tunnel.peerLinks.length then
      (tunnel.peerLinks.mergeSort fun left right =>
        fanoutScore messageId left ≤ fanoutScore messageId right).take config.maxBroadcastFanout
    else tunnel.peerLinks
  | none => tunnel.peerLinks

def broadcastPacket (packet : Bytes) (messageId : Option KcpConv) : List PeerLink :=
  if !tunnel.running || packet.isEmpty then []
  else (tunnel.fanout config messageId).filter fun link => answers.managerSend link.session packet

/-- The origin, the message id and the time to live of an outgoing broadcast. Frames that are passed
on keep their origin and id, and lose one from their time to live. -/
def outgoingNames (metadata : Option BroadcastMetadata) : Option (KcpConv × KcpConv × ℕ) :=
  let fresh := (makeRandomMessageId answers.random).map fun messageId =>
    (config.identity, messageId, config.broadcastTtl)
  match metadata with
  | none => fresh
  | some metadata =>
    if metadata.valid && !metadata.origin.empty && !metadata.messageId.empty then
      -- a time to live of zero stands for the configured one
      if metadata.ttl = 1 then none
      else some (metadata.origin, metadata.messageId,
        if metadata.ttl = 0 then config.broadcastTtl else metadata.ttl - 1)
    else fresh

def outgoingEnvelope (payload : Bytes) (metadata : Option BroadcastMetadata) :
    Option BroadcastEnvelope :=
  (outgoingNames config answers metadata).map fun (origin, messageId, ttl) =>
    { origin, messageId, ttl, payload }

/-- The packet of a broadcast, with its envelope if it has one. -/
def wirePacket (type : TunnelFrameType) (streamId : ℕ) (payload : Bytes)
    (metadata : Option BroadcastMetadata) : Option (Bytes × Option BroadcastEnvelope) :=
  if isRelayedType type && !config.identity.empty then
    match outgoingEnvelope config answers payload metadata with
    | none => none
    | some envelope =>
      let wirePayload := encodeBroadcastEnvelope envelope
      if wirePayload.isEmpty then none
      else some (encodeTunnelFrame type streamId wirePayload, some envelope)
  else some (encodeTunnelFrame type streamId payload, none)

/-- What `broadcast_frame` and `broadcast_control` have in common. The code returns the number of the
copies. -/
def broadcastCopies (type : TunnelFrameType) (streamId : ℕ) (payload : Bytes)
    (metadata : Option BroadcastMetadata) : KcpTunnel × List SentCopy :=
  match wirePacket config answers type streamId payload metadata with
  | none => (tunnel, [])
  | some (packet, none) =>
    (tunnel, (tunnel.broadcastPacket config answers packet none).map (⟨·, packet⟩))
  | some (packet, some envelope) =>
    let key := makeSeenKey type streamId envelope.origin envelope.messageId
    -- the answer is not used: a broadcast of this node is sent even if it is known
    let tunnel := (tunnel.markBroadcastSeen config answers key).1
    let links := tunnel.broadcastPacket config answers packet (some envelope.messageId)
    (tunnel, links.map (⟨·, packet⟩))

def broadcastFrame (type : TunnelFrameType) (streamId : ℕ) (payload : Bytes)
    (metadata : Option BroadcastMetadata) : KcpTunnel × List SentCopy :=
  if !tunnel.running || streamId = 0 then (tunnel, [])
  else tunnel.broadcastCopies config answers type streamId payload metadata

def broadcastControl (payload : Bytes) : KcpTunnel × List SentCopy :=
  if !tunnel.running || payload.isEmpty then (tunnel, [])
  else tunnel.broadcastCopies config answers .control 0 payload none

end Broadcast

section Reach

variable {config : KcpTunnelConfig} {tunnel : KcpTunnel} {answers : TunnelAnswers}

def SomeAccepts (answers : TunnelAnswers) (links : List PeerLink) : Prop :=
  ∃ link ∈ links, link.session.valid = true ∧ answers.accepts link.session = true

instance (answers : TunnelAnswers) (links : List PeerLink) :
    Decidable (SomeAccepts answers links) := by
  unfold SomeAccepts
  infer_instance

/-- The environment lets a fresh broadcast of the payload reach a peer: the tunnel runs, the
payload fits an envelope, there is a message id if one is needed, and a session of a chosen link
takes the packet. -/
def Reaches (config : KcpTunnelConfig) (tunnel : KcpTunnel) (answers : TunnelAnswers)
    (payload : Bytes) : Prop :=
  tunnel.running = true ∧ payload.length + broadcastHeaderSize ≤ 2 ^ 32 - 1 ∧
    if config.identity.empty then SomeAccepts answers tunnel.peerLinks
    else ∃ messageId ∈ makeRandomMessageId answers.random,
      SomeAccepts answers (tunnel.fanout config (some messageId))

instance (payload : Bytes) : Decidable (Reaches config tunnel answers payload) := by
  unfold Reaches
  infer_instance

theorem markBroadcastSeen_running (key : Bytes) :
    (tunnel.markBroadcastSeen config answers key).1.running = tunnel.running := by
  simp only [markBroadcastSeen]
  split
  · rfl
  · split <;> rfl

theorem markBroadcastSeen_peerLinks (key : Bytes) :
    (tunnel.markBroadcastSeen config answers key).1.peerLinks = tunnel.peerLinks := by
  simp only [markBroadcastSeen]
  split
  · rfl
  · split <;> rfl

theorem makeRandomMessageId_not_empty {random : Option KcpConv} {messageId : KcpConv}
    (made : messageId ∈ makeRandomMessageId random) : messageId.empty = false := by
  rcases Option.map_eq_some_iff.mp made with ⟨conv, _, rfl⟩
  split
  · decide
  · next notEmpty => simpa using notEmpty

theorem encodeTunnelFrame_ne_nil {type : TunnelFrameType} {streamId : ℕ} {payload : Bytes}
    (fits : payload.length ≤ 2 ^ 32 - 1) : encodeTunnelFrame type streamId payload ≠ [] := by
  rw [encodeTunnelFrame, encodeFrameBytes, if_neg (not_lt.mpr fits)]
  simp

theorem encodeBroadcastEnvelope_length (envelope : BroadcastEnvelope)
    (origin : envelope.origin.empty = false) (messageId : envelope.messageId.empty = false)
    (fits : envelope.payload.length ≤ 2 ^ 32 - 1) :
    (encodeBroadcastEnvelope envelope).length = broadcastHeaderSize + envelope.payload.length := by
  rw [encodeBroadcastEnvelope, origin, messageId, if_neg (by simpa using fits)]
  simp [envelope.origin.size, envelope.messageId.size, broadcastMagic, store, broadcastHeaderSize]
  omega

theorem broadcastPacket_ne_nil {packet : Bytes} {messageId : Option KcpConv}
    (running : tunnel.running = true) (notEmpty : packet ≠ [])
    (accepted : SomeAccepts answers (tunnel.fanout config messageId)) :
    tunnel.broadcastPacket config answers packet messageId ≠ [] := by
  rcases accepted with ⟨link, chosen, valid, accepts⟩
  have mem : link ∈ tunnel.broadcastPacket config answers packet messageId := by
    simp [broadcastPacket, running, notEmpty, chosen, TunnelAnswers.managerSend, valid, accepts]
  exact ne_nil_of_mem mem

theorem broadcastFrame_ne_nil {type : TunnelFrameType} {streamId : ℕ} {payload : Bytes}
    (reaches : Reaches config tunnel answers payload) (relayed : isRelayedType type = true)
    (hasStream : streamId ≠ 0) :
    (tunnel.broadcastFrame config answers type streamId payload none).2 ≠ [] := by
  rcases reaches with ⟨running, fits, accepted⟩
  have payloadFits : payload.length ≤ 2 ^ 32 - 1 := by omega
  cases identity : config.identity.empty with
  | true =>
    rw [identity, if_pos rfl] at accepted
    simp only [broadcastFrame, broadcastCopies, wirePacket, running, hasStream, identity,
      Bool.not_true, Bool.and_false, Bool.false_eq_true, decide_false, Bool.or_self, if_false, ne_eq,
      map_eq_nil_iff]
    exact broadcastPacket_ne_nil running (encodeTunnelFrame_ne_nil payloadFits) accepted
  | false =>
    rw [identity, if_neg (by decide)] at accepted
    rcases accepted with ⟨messageId, made, accepted⟩
    have envelopeLength := encodeBroadcastEnvelope_length
      ⟨config.identity, messageId, config.broadcastTtl, payload⟩ identity
      (makeRandomMessageId_not_empty made) payloadFits
    have hasEnvelope : (encodeBroadcastEnvelope
        ⟨config.identity, messageId, config.broadcastTtl, payload⟩).isEmpty = false := by
      rw [isEmpty_eq_false_iff, ← length_pos_iff, envelopeLength]
      exact Nat.add_pos_left (by decide) _
    have envelope : outgoingEnvelope config answers payload none =
        some ⟨config.identity, messageId, config.broadcastTtl, payload⟩ := by
      rw [outgoingEnvelope, outgoingNames, Option.mem_def.mp made]
      rfl
    simp only [broadcastFrame, broadcastCopies, wirePacket, running, hasStream, identity, relayed,
      envelope, hasEnvelope, Bool.not_true, Bool.not_false, Bool.and_true, Bool.false_eq_true,
      decide_false, Bool.or_self, if_false, if_true, ne_eq, map_eq_nil_iff]
    refine broadcastPacket_ne_nil ?_ (encodeTunnelFrame_ne_nil ?_) ?_
    · rw [markBroadcastSeen_running, running]
    · rw [envelopeLength, Nat.add_comm]
      exact fits
    · simpa only [fanout, markBroadcastSeen_peerLinks] using accepted

end Reach

section Inbound

variable (config : KcpTunnelConfig) (tunnel : KcpTunnel) (answers : TunnelAnswers)

/-- What becomes of an incoming frame: the payload and metadata to handle, if it is to be handled,
and the links it was relayed to. -/
structure Prepared where
  tunnel : KcpTunnel
  content : Option (Bytes × BroadcastMetadata)
  relayedTo : List PeerLink := []

/-- Pass a broadcast on, if its type is one that is relayed and it has hops left. -/
def relay (tunnel : KcpTunnel) (type : TunnelFrameType) (streamId : ℕ)
    (envelope : BroadcastEnvelope) : List PeerLink :=
  let relayPayload := encodeBroadcastEnvelope { envelope with ttl := envelope.ttl - 1 }
  if !(autoRelayType type && envelope.ttl > 1) || relayPayload.isEmpty then []
  else
    tunnel.broadcastPacket config answers (encodeTunnelFrame type streamId relayPayload)
      (some envelope.messageId)

/-- Unwrap a broadcast, unless it is malformed, the node's own or already seen. -/
def prepareInboundBroadcast (frame : TunnelFrame) : Prepared :=
  if !isRelayedType frame.type then { tunnel, content := some (frame.payload, {}) }
  else
    match decodeBroadcastEnvelope frame.payload with
    | .plain => { tunnel, content := some (frame.payload, {}) }
    | .invalid => { tunnel, content := none }
    | .envelope envelope =>
      let key := makeSeenKey frame.type frame.streamId envelope.origin envelope.messageId
      let (marked, isNew) := tunnel.markBroadcastSeen config answers key
      if envelope.origin = config.identity then { tunnel, content := none }
      else if !isNew then { tunnel := marked, content := none }
      else
        { tunnel := marked
          content := some (envelope.payload,
            { valid := true, ttl := envelope.ttl, origin := envelope.origin
              messageId := envelope.messageId })
          relayedTo := relay config answers marked frame.type frame.streamId envelope }

/-- What the callbacks of the tunnel are called with. The session is named to the control callback
only. -/
inductive Inbound where
  | dropped
  | control (key : KcpSessionKey) (payload : Bytes)
  | frame (frame : TunnelFrame)
  deriving DecidableEq

/-- What the tunnel does with a packet, up to the callback. -/
def handleKcpMessage (key : KcpSessionKey) (packet : Bytes) : KcpTunnel × Inbound :=
  match decodeTunnelFrame packet with
  | none => (tunnel, .dropped)
  | some frame =>
    let prepared := tunnel.prepareInboundBroadcast config answers frame
    match prepared.content with
    | none => (prepared.tunnel, .dropped)
    | some (payload, broadcast) =>
      if frame.type = .control then (prepared.tunnel, .control key payload)
      else (prepared.tunnel, .frame { frame with payload, broadcast })

end Inbound

end KcpTunnel

end IotProxy.Proxy
