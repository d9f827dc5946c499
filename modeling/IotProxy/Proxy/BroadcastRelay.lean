import IotProxy.Proxy.Runtime

/-!
# How a node relays a broadcast

A packet that carries a broadcast is unwrapped, marked as seen and, for two of the three types,
relayed by the tunnel itself. Then the callbacks of the runtime decide what becomes of it: the
admission control may refuse the payload, and a Kafka message is recorded and, if it is new,
broadcast again with the metadata it came with.

Here a node is its tunnel, and what the callbacks decide comes from the environment.
-/

namespace IotProxy.Proxy

open KcpTunnel
open EventSystem (Run)

structure Broadcast where
  type : TunnelFrameType
  streamId : ℕ
  envelope : BroadcastEnvelope
  deriving DecidableEq

namespace Broadcast

def withTtl (broadcast : Broadcast) (ttl : ℕ) : Broadcast :=
  { broadcast with envelope := { broadcast.envelope with ttl } }

def seenKey (broadcast : Broadcast) : Bytes :=
  makeSeenKey broadcast.type broadcast.streamId broadcast.envelope.origin
    broadcast.envelope.messageId

def metadata (broadcast : Broadcast) : BroadcastMetadata where
  valid := true
  ttl := broadcast.envelope.ttl
  origin := broadcast.envelope.origin
  messageId := broadcast.envelope.messageId

def frame (broadcast : Broadcast) : TunnelFrame where
  type := broadcast.type
  streamId := broadcast.streamId
  payload := broadcast.envelope.payload
  broadcast := broadcast.metadata

def relayPacket (broadcast : Broadcast) : Bytes :=
  encodeTunnelFrame broadcast.type broadcast.streamId
    (encodeBroadcastEnvelope { broadcast.envelope with ttl := broadcast.envelope.ttl - 1 })

end Broadcast

/-- The broadcast that is in a packet, if there is one. -/
def broadcastOf (packet : Bytes) : Option Broadcast :=
  match decodeTunnelFrame packet with
  | none => none
  | some frame =>
    if isRelayedType frame.type then
      match decodeBroadcastEnvelope frame.payload with
      | .envelope envelope => some ⟨frame.type, frame.streamId, envelope⟩
      | _ => none
    else none

inductive RecordOutcome where
  | failed
  | duplicate
  | recorded
  deriving DecidableEq

/-- What the rest of the node answers while it handles a packet. -/
structure NodeAnswers where
  kcp : TunnelAnswers
  admitted : Bool := true
  record : RecordOutcome := .recorded
  rebroadcast : TunnelAnswers

structure Reception where
  tunnel : KcpTunnel
  inbound : KcpTunnel.Inbound := .dropped
  accepted : Bool := false
  sent : List SentCopy := []

variable {frame : TunnelFrame} {relayed : List SentCopy}

namespace KcpTunnel

section Model

variable (config : KcpTunnelConfig) (tunnel : KcpTunnel)

/-- The frame callback of the runtime. -/
def onFrame (answers : NodeAnswers) (frame : TunnelFrame) : Reception :=
  if !answers.admitted then { tunnel, inbound := .frame frame }
  else if frame.type = .kafkaBroadcast then
    match answers.record with
    | .failed => { tunnel, inbound := .frame frame }
    | .duplicate => { tunnel, inbound := .frame frame, accepted := true }
    | .recorded =>
      let (tunnel, sent) := tunnel.broadcastFrame config answers.rebroadcast .kafkaBroadcast
        frame.streamId frame.payload (some frame.broadcast)
      { tunnel, inbound := .frame frame, accepted := true, sent }
  else { tunnel, inbound := .frame frame, accepted := true }

def callBack (answers : NodeAnswers) (key : KcpSessionKey) (frame : TunnelFrame)
    (relayed : List SentCopy) : Reception :=
  if frame.type = .control then
    { tunnel, inbound := .control key frame.payload, accepted := answers.admitted, sent := relayed }
  else
    let reception := tunnel.onFrame config answers frame
    { reception with sent := relayed ++ reception.sent }

/-- `handle_kcp_message`, with the callbacks of the runtime. -/
def receive (answers : NodeAnswers) (key : KcpSessionKey) (packet : Bytes) : Reception :=
  match decodeTunnelFrame packet with
  | none => { tunnel }
  | some frame =>
    let prepared := tunnel.prepareInboundBroadcast config answers.kcp frame
    let relayed := match broadcastOf packet with
      | none => []
      | some broadcast => prepared.relayedTo.map (⟨·, broadcast.relayPacket⟩)
    match prepared.content with
    | none => { tunnel := prepared.tunnel, sent := relayed }
    | some (payload, broadcast) =>
      prepared.tunnel.callBack config answers key { frame with payload, broadcast } relayed

end Model

variable {config : KcpTunnelConfig} {tunnel : KcpTunnel}

section Runtime

variable {answers : NodeAnswers}

theorem inbound_onFrame (frame : TunnelFrame) :
    (tunnel.onFrame config answers frame).inbound = .frame frame := by
  unfold onFrame
  repeat' split
  all_goals rfl

end Runtime

variable {answers : TunnelAnswers} {streamId : ℕ} {payload : Bytes} {broadcast : Broadcast}

section Codec

variable {packet : Bytes}

theorem ne_nil_of_mem_broadcastPacket {messageId : Option KcpConv} {link : PeerLink}
    (mem : link ∈ tunnel.broadcastPacket config answers packet messageId) : packet ≠ [] := by
  rintro rfl
  simp [broadcastPacket] at mem

theorem fits_of_encodeTunnelFrame {type : TunnelFrameType}
    (encoded : encodeTunnelFrame type streamId payload ≠ []) : payload.length ≤ 2 ^ 32 - 1 := by
  by_contra long
  rw [encodeTunnelFrame, encodeFrameBytes, if_pos (not_le.mp long)] at encoded
  exact encoded rfl

theorem named_of_encodeBroadcastEnvelope {envelope : BroadcastEnvelope}
    (encoded : encodeBroadcastEnvelope envelope ≠ []) :
    envelope.origin.empty = false ∧ envelope.messageId.empty = false ∧
      envelope.payload.length ≤ 2 ^ 32 - 1 := by
  unfold encodeBroadcastEnvelope at encoded
  split at encoded
  · exact absurd rfl encoded
  · next named => simpa [and_assoc] using named

theorem exists_frame_of_broadcastOf (isBroadcast : broadcastOf packet = some broadcast) :
    ∃ payload received, decodeTunnelFrame packet =
        some ⟨broadcast.type, broadcast.streamId, payload, received⟩ ∧
      isRelayedType broadcast.type = true ∧
      decodeBroadcastEnvelope payload = .envelope broadcast.envelope := by
  unfold broadcastOf at isBroadcast
  cases decoded : decodeTunnelFrame packet with
  | none => simp [decoded] at isBroadcast
  | some frame =>
    simp only [decoded, Option.ite_none_right_eq_some] at isBroadcast
    rcases isBroadcast with ⟨relayed, isBroadcast⟩
    cases enveloped : decodeBroadcastEnvelope frame.payload with
    | plain | invalid => simp [enveloped] at isBroadcast
    | envelope envelope =>
      simp only [enveloped, Option.some.injEq] at isBroadcast
      subst isBroadcast
      exact ⟨frame.payload, frame.broadcast, rfl, relayed, enveloped⟩

structure WellFormed (broadcast : Broadcast) : Prop where
  relayed : isRelayedType broadcast.type = true
  inRange : broadcast.streamId < 2 ^ 64
  hasStream : broadcast.type ≠ .control → broadcast.streamId ≠ 0
  origin : broadcast.envelope.origin.empty = false
  messageId : broadcast.envelope.messageId.empty = false
  isByte : broadcast.envelope.ttl < 256

theorem wellFormed_of_broadcastOf
    (isBroadcast : broadcastOf packet = some broadcast) : WellFormed broadcast := by
  rcases exists_frame_of_broadcastOf isBroadcast with ⟨payload, _, decoded, relayed, enveloped⟩
  obtain ⟨_, inRange, hasStream⟩ := bounds_of_decodeTunnelFrame decoded
  obtain ⟨origin, messageId, isByte, _⟩ := bounds_of_decodeBroadcastEnvelope enveloped
  exact ⟨relayed, inRange, hasStream, origin, messageId, isByte⟩

end Codec

section Sent

theorem broadcastOf_encode {type : TunnelFrameType} {envelope : BroadcastEnvelope}
    (relayed : isRelayedType type = true) (inRange : streamId < 2 ^ 64)
    (hasStream : type ≠ .control → streamId ≠ 0)
    (hasEnvelope : encodeBroadcastEnvelope envelope ≠ [])
    (built : encodeTunnelFrame type streamId (encodeBroadcastEnvelope envelope) ≠ []) :
    broadcastOf (encodeTunnelFrame type streamId (encodeBroadcastEnvelope envelope)) =
      some ⟨type, streamId, { envelope with ttl := envelope.ttl % 256 }⟩ := by
  obtain ⟨origin, messageId, short⟩ := named_of_encodeBroadcastEnvelope hasEnvelope
  have fits := fits_of_encodeTunnelFrame built
  rw [broadcastOf, decode_encodeTunnelFrame fits inRange hasStream]
  simp only [relayed, if_true, decode_encodeBroadcastEnvelope origin messageId short]

section Copies

variable {type : TunnelFrameType} {metadata : Option BroadcastMetadata} {copy : SentCopy}

theorem exists_wirePacket
    (mem : copy ∈ (tunnel.broadcastCopies config answers type streamId payload metadata).2) :
    copy.packet ≠ [] ∧ ∃ envelope,
      wirePacket config answers type streamId payload metadata = some (copy.packet, envelope) := by
  unfold broadcastCopies at mem
  split at mem
  · cases mem
  · next built =>
      rcases List.mem_map.mp mem with ⟨link, taken, rfl⟩
      exact ⟨ne_nil_of_mem_broadcastPacket taken, _, built⟩
  · next built =>
      rcases List.mem_map.mp mem with ⟨link, taken, rfl⟩
      exact ⟨ne_nil_of_mem_broadcastPacket taken, _, built⟩

theorem mem_broadcastFrame
    (mem : copy ∈ (tunnel.broadcastFrame config answers type streamId payload metadata).2) :
    streamId ≠ 0 ∧
      copy ∈ (tunnel.broadcastCopies config answers type streamId payload metadata).2 := by
  unfold broadcastFrame at mem
  split at mem
  · cases mem
  · next runs =>
      refine ⟨?_, mem⟩
      rintro rfl
      simp at runs

theorem wirePacket_of_named {built : Bytes × Option BroadcastEnvelope}
    (relayed : isRelayedType type = true) (named : config.identity.empty = false)
    (isBuilt : wirePacket config answers type streamId payload metadata = some built) :
    ∃ envelope, outgoingEnvelope config answers payload metadata = some envelope ∧
      encodeBroadcastEnvelope envelope ≠ [] ∧
      built = (encodeTunnelFrame type streamId (encodeBroadcastEnvelope envelope), some envelope) := by
  simp only [wirePacket, relayed, named, Bool.not_false, Bool.and_self, if_true] at isBuilt
  split at isBuilt
  · cases isBuilt
  · next envelope outgoing =>
      rw [Option.ite_none_left_eq_some, Option.some.injEq] at isBuilt
      exact ⟨envelope, outgoing, by simpa using isBuilt.1, isBuilt.2.symm⟩

theorem broadcastOf_broadcastCopies (relayed : isRelayedType type = true)
    (named : config.identity.empty = false) (inRange : streamId < 2 ^ 64)
    (hasStream : type ≠ .control → streamId ≠ 0)
    (mem : copy ∈ (tunnel.broadcastCopies config answers type streamId payload metadata).2) :
    ∃ envelope, outgoingEnvelope config answers payload metadata = some envelope ∧
      broadcastOf copy.packet =
        some ⟨type, streamId, { envelope with ttl := envelope.ttl % 256 }⟩ := by
  obtain ⟨hasPacket, _, isBuilt⟩ := exists_wirePacket mem
  obtain ⟨envelope, outgoing, hasEnvelope, same⟩ := wirePacket_of_named relayed named isBuilt
  rw [(Prod.mk.inj same).1] at hasPacket ⊢
  exact ⟨envelope, outgoing, broadcastOf_encode relayed inRange hasStream hasEnvelope hasPacket⟩

theorem broadcastOf_broadcastFrame (relayed : isRelayedType type = true)
    (named : config.identity.empty = false) (inRange : streamId < 2 ^ 64)
    (mem : copy ∈ (tunnel.broadcastFrame config answers type streamId payload metadata).2) :
    ∃ envelope, outgoingEnvelope config answers payload metadata = some envelope ∧
      broadcastOf copy.packet =
        some ⟨type, streamId, { envelope with ttl := envelope.ttl % 256 }⟩ := by
  obtain ⟨hasStream, mem⟩ := mem_broadcastFrame mem
  exact broadcastOf_broadcastCopies relayed named inRange (fun _ => hasStream) mem

theorem broadcastOf_broadcastControl (named : config.identity.empty = false)
    (mem : copy ∈ (tunnel.broadcastControl config answers payload).2) :
    ∃ envelope, outgoingEnvelope config answers payload none = some envelope ∧
      broadcastOf copy.packet =
        some ⟨.control, 0, { envelope with ttl := envelope.ttl % 256 }⟩ := by
  unfold broadcastControl at mem
  split at mem
  · cases mem
  · exact broadcastOf_broadcastCopies rfl named (by decide) (by simp) mem

end Copies

theorem broadcastOf_relay {link : PeerLink} (wellFormed : WellFormed broadcast)
    (mem : link ∈ tunnel.relay config answers broadcast.type broadcast.streamId
      broadcast.envelope) :
    1 < broadcast.envelope.ttl ∧ broadcastOf broadcast.relayPacket =
      some (broadcast.withTtl (broadcast.envelope.ttl - 1)) := by
  simp only [relay] at mem
  split at mem
  · cases mem
  · next relays =>
      simp only [Bool.or_eq_true, Bool.not_eq_true', Bool.and_eq_false_iff, decide_eq_false_iff_not,
        not_or, Bool.not_eq_false, not_not, List.isEmpty_iff] at relays
      have sent := broadcastOf_encode wellFormed.relayed wellFormed.inRange wellFormed.hasStream
        relays.2 (ne_nil_of_mem_broadcastPacket mem)
      have isByte := wellFormed.isByte
      rw [Nat.mod_eq_of_lt (by simp only; omega)] at sent
      exact ⟨relays.1.2, sent⟩

end Sent

section Receive

variable {answers : NodeAnswers} {key : KcpSessionKey} {packet : Bytes} {broadcast : Broadcast}
  (isBroadcast : broadcastOf packet = some broadcast)

include isBroadcast

theorem receive_of_own (own : broadcast.envelope.origin = config.identity) :
    tunnel.receive config answers key packet = { tunnel } := by
  rcases exists_frame_of_broadcastOf isBroadcast with ⟨payload, _, decoded, relayed, enveloped⟩
  simp [receive, isBroadcast, decoded, prepareInboundBroadcast, relayed, enveloped, own]

theorem receive_of_known (foreign : broadcast.envelope.origin ≠ config.identity)
    (known : (tunnel.markBroadcastSeen config answers.kcp broadcast.seenKey).2 = false) :
    tunnel.receive config answers key packet =
      { tunnel := (tunnel.markBroadcastSeen config answers.kcp broadcast.seenKey).1 } := by
  rcases exists_frame_of_broadcastOf isBroadcast with ⟨payload, _, decoded, relayed, enveloped⟩
  rw [Broadcast.seenKey] at known ⊢
  simp [receive, isBroadcast, decoded, prepareInboundBroadcast, relayed, enveloped, foreign, known]

theorem receive_of_new (foreign : broadcast.envelope.origin ≠ config.identity)
    (isNew : (tunnel.markBroadcastSeen config answers.kcp broadcast.seenKey).2 = true) :
    tunnel.receive config answers key packet =
      let marked := (tunnel.markBroadcastSeen config answers.kcp broadcast.seenKey).1
      marked.callBack config answers key broadcast.frame
        ((marked.relay config answers.kcp broadcast.type broadcast.streamId
          broadcast.envelope).map (⟨·, broadcast.relayPacket⟩)) := by
  rcases exists_frame_of_broadcastOf isBroadcast with ⟨payload, _, decoded, relayed, enveloped⟩
  rw [Broadcast.seenKey] at isNew ⊢
  simp only [receive, isBroadcast, decoded, prepareInboundBroadcast, relayed, enveloped, foreign,
    isNew, Bool.not_true, Bool.false_eq_true, if_false]
  rfl

end Receive

section Relay

variable {answers : NodeAnswers} {key : KcpSessionKey} {packet : Bytes} {broadcast : Broadcast}
  {copy : SentCopy}

theorem outgoingEnvelope_of_broadcast {kcp : TunnelAnswers} {outgoing : BroadcastEnvelope}
    (wellFormed : WellFormed broadcast)
    (isOutgoing : outgoingEnvelope config kcp broadcast.envelope.payload
      (some broadcast.metadata) = some outgoing) :
    broadcast.envelope.ttl ≠ 1 ∧ outgoing =
      { broadcast.envelope with
        ttl := if broadcast.envelope.ttl = 0 then config.broadcastTtl
          else broadcast.envelope.ttl - 1 } := by
  have same : outgoingEnvelope config kcp broadcast.envelope.payload (some broadcast.metadata) =
      if broadcast.envelope.ttl = 1 then none
      else some { broadcast.envelope with
        ttl := if broadcast.envelope.ttl = 0 then config.broadcastTtl
          else broadcast.envelope.ttl - 1 } := by
    simp only [outgoingEnvelope, outgoingNames, Broadcast.metadata, wellFormed.origin,
      wellFormed.messageId, Bool.not_false, Bool.and_self, if_true]
    exact apply_ite (Option.map _) _ _ _
  rw [same, Option.ite_none_left_eq_some, Option.some.injEq] at isOutgoing
  exact ⟨isOutgoing.1, isOutgoing.2.symm⟩

theorem sent_onFrame (mem : copy ∈ (tunnel.onFrame config answers frame).sent) :
    answers.admitted = true ∧ answers.record = .recorded ∧ frame.type = .kafkaBroadcast ∧
      copy ∈ (tunnel.broadcastFrame config answers.rebroadcast .kafkaBroadcast frame.streamId
        frame.payload (some frame.broadcast)).2 := by
  unfold onFrame at mem
  split at mem
  · cases mem
  · next admitted =>
      split at mem
      · next isKafka =>
          cases record : answers.record with
          | failed | duplicate => simp [record] at mem
          | recorded =>
            simp only [record] at mem
            exact ⟨by simpa using admitted, rfl, isKafka, mem⟩
      · cases mem

theorem sent_callBack (mem : copy ∈ (tunnel.callBack config answers key frame relayed).sent) :
    copy ∈ relayed ∨ copy ∈ (tunnel.onFrame config answers frame).sent := by
  unfold callBack at mem
  split at mem
  · exact .inl mem
  · exact List.mem_append.mp mem

/-- A node sends on only what is of another node and new to it. -/
theorem sent_receive (isBroadcast : broadcastOf packet = some broadcast)
    (mem : copy ∈ (tunnel.receive config answers key packet).sent) :
    let marked := tunnel.markBroadcastSeen config answers.kcp broadcast.seenKey
    broadcast.envelope.origin ≠ config.identity ∧ marked.2 = true ∧
      (copy ∈ (marked.1.relay config answers.kcp broadcast.type broadcast.streamId
          broadcast.envelope).map (⟨·, broadcast.relayPacket⟩) ∨
        copy ∈ (marked.1.onFrame config answers broadcast.frame).sent) := by
  by_cases own : broadcast.envelope.origin = config.identity
  · simp [receive_of_own isBroadcast own] at mem
  · cases isNew : (tunnel.markBroadcastSeen config answers.kcp broadcast.seenKey).2 with
    | false => simp [receive_of_known isBroadcast own isNew] at mem
    | true =>
      rw [receive_of_new isBroadcast own isNew] at mem
      exact ⟨own, isNew, sent_callBack mem⟩

/-- What a node sends on carries the broadcast that it has received, with a time to live that is
shorter by one, unless it is a Kafka message whose time had been used up. -/
theorem sent_of_broadcast (isBroadcast : broadcastOf packet = some broadcast)
    (named : broadcast.type = .kafkaBroadcast → config.identity.empty = false)
    (mem : copy ∈ (tunnel.receive config answers key packet).sent) :
    ∃ ttl, broadcastOf copy.packet = some (broadcast.withTtl ttl) ∧
      (1 < broadcast.envelope.ttl ∧ ttl = broadcast.envelope.ttl - 1 ∨
        broadcast.type = .kafkaBroadcast ∧ broadcast.envelope.ttl = 0 ∧
          ttl = config.broadcastTtl % 256) := by
  have wellFormed := wellFormed_of_broadcastOf isBroadcast
  obtain ⟨-, -, mem | mem⟩ := sent_receive isBroadcast mem
  · rcases List.mem_map.mp mem with ⟨link, relays, rfl⟩
    obtain ⟨several, carries⟩ := broadcastOf_relay wellFormed relays
    exact ⟨broadcast.envelope.ttl - 1, carries, .inl ⟨several, rfl⟩⟩
  · obtain ⟨-, -, isKafka, again⟩ := sent_onFrame mem
    obtain ⟨outgoing, isOutgoing, carries⟩ :=
      broadcastOf_broadcastFrame rfl (named isKafka) wellFormed.inRange again
    obtain ⟨several, same⟩ := outgoingEnvelope_of_broadcast wellFormed isOutgoing
    refine ⟨outgoing.ttl % 256, ?_, ?_⟩
    · rw [carries, same, Broadcast.withTtl, show broadcast.type = _ from isKafka]
    · rw [same]
      have isByte := wellFormed.isByte
      by_cases usedUp : broadcast.envelope.ttl = 0
      · exact .inr ⟨isKafka, usedUp, by rw [if_pos usedUp]⟩
      · have shorter : (broadcast.envelope.ttl - 1) % 256 = broadcast.envelope.ttl - 1 :=
          Nat.mod_eq_of_lt (by omega)
        refine .inl ⟨Nat.lt_of_le_of_ne (Nat.pos_of_ne_zero usedUp) several.symm, ?_⟩
        rw [if_neg usedUp, shorter]

end Relay

section Seen

variable {answers : TunnelAnswers}

/-- The node has no mark of the broadcast, or only one that is over. -/
def Forgotten (config : KcpTunnelConfig) (tunnel : KcpTunnel) (nowMs : ℤ) (key : Bytes) : Prop :=
  config.maxSeenBroadcasts = 0 ∨ ∀ entry ∈ tunnel.seenBroadcasts, entry.1 = key → entry.2 ≤ nowMs

instance (nowMs : ℤ) (key : Bytes) : Decidable (Forgotten config tunnel nowMs key) :=
  inferInstanceAs (Decidable (_ ∨ _))

theorem isNew_iff_forgotten {key : Bytes} (notEmpty : key ≠ []) :
    (tunnel.markBroadcastSeen config answers key).2 = true ↔
      Forgotten config tunnel answers.nowMs key := by
  unfold markBroadcastSeen Forgotten
  by_cases unlimited : config.maxSeenBroadcasts = 0
  · simp [unlimited]
  · rw [if_neg (by simp [notEmpty, unlimited]), or_iff_right unlimited]
    dsimp only
    split
    · next seen =>
        simp only [List.any_filter, List.any_eq_true, Bool.and_eq_true, decide_eq_true_eq,
          beq_iff_eq] at seen
        rcases seen with ⟨entry, mem, current, isKey⟩
        refine iff_of_false Bool.false_ne_true ?_
        intro forgotten
        exact absurd current (not_lt.mpr (forgotten entry mem isKey))
    · next unseen =>
        refine iff_of_true rfl ?_
        intro entry mem isKey
        by_contra current
        apply unseen
        simp only [List.any_filter, List.any_eq_true, Bool.and_eq_true, decide_eq_true_eq,
          beq_iff_eq]
        exact ⟨entry, mem, not_le.mp current, isKey⟩

end Seen

end KcpTunnel

/-- What happens at a node: a packet comes in, the node starts a broadcast of one of the three types,
or its links change. -/
inductive NodeEvent where
  | packet (key : KcpSessionKey) (bytes : Bytes) (answers : NodeAnswers)
  | control (payload : Bytes) (answers : TunnelAnswers)
  | replicate (streamId : ℕ) (payload : Bytes) (random : Option KcpConv) (answers : TunnelAnswers)
  | kafka (payload : Bytes) (answers : TunnelAnswers)
  | configure (running : Bool) (peerLinks : List PeerLink)

namespace KcpTunnel

def handle (config : KcpTunnelConfig) (tunnel : KcpTunnel) : NodeEvent → Reception
  | .packet key bytes answers => tunnel.receive config answers key bytes
  | .control payload answers =>
    let (tunnel, sent) := tunnel.broadcastControl config answers payload
    { tunnel, sent }
  | .replicate streamId payload random answers =>
    let (tunnel, sent) := tunnel.broadcastFrame config answers .replicate streamId payload
      (some (ownMetadata config random))
    { tunnel, sent }
  | .kafka payload answers =>
    let (tunnel, sent) := tunnel.broadcastFrame config answers .kafkaBroadcast 1 payload none
    { tunnel, sent }
  | .configure running peerLinks => { tunnel := { tunnel with running, peerLinks } }

def step (config : KcpTunnelConfig) (tunnel : KcpTunnel) (event : NodeEvent) : Option KcpTunnel :=
  some (tunnel.handle config event).tunnel

end KcpTunnel

section Results

variable {config : KcpTunnelConfig} {tunnel : KcpTunnel} {answers : NodeAnswers}
  {key : KcpSessionKey} {packet : Bytes} {broadcast : Broadcast}

theorem accepted_callBack
    (admitted : answers.admitted = true) (recorded : answers.record = .recorded) :
    (tunnel.callBack config answers key frame relayed).accepted = true := by
  unfold callBack onFrame
  simp only [admitted, recorded]
  repeat' split
  all_goals simp_all

theorem sent_callBack_of_kafka (isKafka : broadcast.type = .kafkaBroadcast)
    (admitted : answers.admitted = true) (recorded : answers.record = .recorded) :
    (tunnel.callBack config answers key broadcast.frame
      ((tunnel.relay config answers.kcp broadcast.type broadcast.streamId
        broadcast.envelope).map (⟨·, broadcast.relayPacket⟩))).sent =
      (tunnel.broadcastFrame config answers.rebroadcast .kafkaBroadcast broadcast.streamId
        broadcast.envelope.payload (some broadcast.metadata)).2 := by
  simp [callBack, onFrame, relay, autoRelayType, Broadcast.frame, isKafka, admitted, recorded]

theorem inbound_callBack_ne :
    (tunnel.callBack config answers key frame relayed).inbound ≠ .dropped := by
  unfold callBack
  split
  · simp
  · simp [inbound_onFrame]

def relayNode : KcpTunnelConfig where
  identity := .ofUint32 1
  peer := { endpoint := { host := [], port := 0 }, id := .ofUint32 2 }

def relayLink : PeerLink where
  peer := relayNode.peer
  conv := .ofUint32 3
  addr := { addr := [10, 0, 0, 2], port := 9000 }

def relayTunnel : KcpTunnel where
  running := true
  peerLinks := [relayLink]

def openAnswers : NodeAnswers where
  kcp := { nowMs := 0, random := none, accepts := fun _ => true, firstEntry := fun _ => 0 }
  rebroadcast := { nowMs := 0, random := none, accepts := fun _ => true, firstEntry := fun _ => 0 }

def kafkaPacket (ttl : ℕ) : Bytes :=
  encodeTunnelFrame .kafkaBroadcast 1
    (encodeBroadcastEnvelope
      { origin := .ofUint32 4, messageId := .ofUint32 5, ttl, payload := [7] })

def kafkaBroadcast (ttl : ℕ) : Broadcast where
  type := .kafkaBroadcast
  streamId := 1
  envelope := { origin := .ofUint32 4, messageId := .ofUint32 5, ttl, payload := [7] }

/-- Whatever has happened since a node dropped a broadcast: a later copy that would be admitted and
recorded is taken if and only if the mark of the first one is forgotten. Then a Kafka message is also
broadcast again. -/
theorem accepted_iff_forgotten (isBroadcast : broadcastOf packet = some broadcast)
    (dropped : (tunnel.receive config answers key packet).inbound ≠ .dropped ∧
      (tunnel.receive config answers key packet).accepted = false) :
    ∀ events later, Run (KcpTunnel.step config) (fun _ _ => True)
        (tunnel.receive config answers key packet).tunnel events later →
      ∀ copy ttl session (laterAnswers : NodeAnswers),
        broadcastOf copy = some (broadcast.withTtl ttl) → laterAnswers.admitted = true →
        laterAnswers.record = .recorded →
      let reception := later.receive config laterAnswers session copy
      (reception.accepted = true ↔
        KcpTunnel.Forgotten config later laterAnswers.kcp.nowMs broadcast.seenKey) ∧
      (reception.accepted = true → reception.inbound ≠ .dropped ∧
        (broadcast.type = .kafkaBroadcast → reception.sent =
          ((later.markBroadcastSeen config laterAnswers.kcp broadcast.seenKey).1.broadcastFrame
            config laterAnswers.rebroadcast .kafkaBroadcast broadcast.streamId
            broadcast.envelope.payload (some (broadcast.withTtl ttl).metadata)).2)) := by
  intro events later _ copy ttl session laterAnswers isCopy admitted recorded reception
  have foreign : broadcast.envelope.origin ≠ config.identity := by
    intro own
    apply dropped.1
    rw [receive_of_own isBroadcast own]
  have newIff : (later.markBroadcastSeen config laterAnswers.kcp broadcast.seenKey).2 = true ↔ _ :=
    isNew_iff_forgotten (by simp [Broadcast.seenKey, makeSeenKey])
  cases isNew : (later.markBroadcastSeen config laterAnswers.kcp broadcast.seenKey).2 with
  | false =>
    have same : reception = _ := receive_of_known isCopy foreign isNew
    have remembered : ¬ _ := mt newIff.mpr (by simp [isNew])
    rw [same]
    exact ⟨iff_of_false (by simp) remembered, by simp⟩
  | true =>
    have same : reception = _ := receive_of_new isCopy foreign isNew
    have accepted : reception.accepted = true := by
      rw [same]
      exact accepted_callBack admitted recorded
    refine ⟨iff_of_true accepted (newIff.mp isNew), fun _ => ⟨?_, ?_⟩⟩
    · rw [same]
      exact inbound_callBack_ne
    · intro isKafka
      rw [same]
      exact sent_callBack_of_kafka isKafka admitted recorded

def refusingAnswers (admitted : Bool) : NodeAnswers :=
  { openAnswers with admitted, record := .failed }

def lateAnswers : NodeAnswers :=
  { openAnswers with kcp := { openAnswers.kcp with nowMs := 600000 } }

/-- A refused message whose mark has expired is taken when a copy comes. -/
theorem copy_taken_after_expiry :
    let first := relayTunnel.receive relayNode (refusingAnswers true) relayLink.session
      (kafkaPacket 4)
    first.accepted = false ∧
      (first.tunnel.receive relayNode lateAnswers relayLink.session (kafkaPacket 3)).accepted =
        true := by
  intro first
  have isBroadcast : broadcastOf (kafkaPacket 4) = some (kafkaBroadcast 4) := by decide +kernel
  have isCopy : broadcastOf (kafkaPacket 3) = some ((kafkaBroadcast 4).withTtl 3) := by
    decide +kernel
  have dropped : first.inbound ≠ .dropped ∧ first.accepted = false := by decide +kernel
  have forgotten : KcpTunnel.Forgotten relayNode first.tunnel lateAnswers.kcp.nowMs
      (kafkaBroadcast 4).seenKey := by
    decide +kernel
  refine ⟨dropped.2, ?_⟩
  exact (accepted_iff_forgotten isBroadcast dropped [] _ .nil (kafkaPacket 3) 3 _ lateAnswers isCopy
    rfl rfl).1.mpr forgotten

/-- The admission control refuses the first copy. The next one, from another session, is taken for a
duplicate. -/
theorem later_copy_suppressed :
    let first := relayTunnel.receive relayNode (refusingAnswers false) relayLink.session
      (kafkaPacket 4)
    let second := first.tunnel.receive relayNode openAnswers
      { relayLink.session with conv := .ofUint32 6 } (kafkaPacket 3)
    first.inbound ≠ .dropped ∧ first.accepted = false ∧
      second.inbound = .dropped ∧ second.accepted = false ∧ second.sent = [] := by
  decide +kernel

end Results

end IotProxy.Proxy
