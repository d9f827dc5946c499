import IotProxy.Myring.KcpSession
import IotProxy.Proxy.BroadcastTransparency
import IotProxy.Proxy.Segmentation

/-!
# The sizes of sent frames

An edge frame passes four components with limits of their own. The ingress cuts frames with a
payload up to the configured size, one MiB by default. The tunnel adds the header of its frame, and
for a broadcast that of the envelope, and both are limited by their length fields only. The manager
reports a packet as sent once it has posted the call that gives it to the session.
-/

namespace IotProxy.Proxy

open KcpTunnel List
open Myring (SessionTakes maxMessageSize sessionTakes_iff)

def broadcastOverhead (config : KcpTunnelConfig) (type : TunnelFrameType) : ℕ :=
  tunnelFrameHeaderSize +
    if isRelayedType type && !config.identity.empty then broadcastHeaderSize else 0

namespace KcpTunnel

theorem length_encodeTunnelFrame {type : TunnelFrameType} {streamId : ℕ} {payload : Bytes}
    (built : encodeTunnelFrame type streamId payload ≠ []) :
    (encodeTunnelFrame type streamId payload).length = payload.length + tunnelFrameHeaderSize := by
  have fits := fits_of_encodeTunnelFrame built
  rw [encodeTunnelFrame, encodeFrameBytes, if_neg (not_lt.mpr fits)]
  simp [tunnelFramePreamble, tunnelFrameHeaderSize]
  omega

variable {config : KcpTunnelConfig} {tunnel : KcpTunnel} {answers : TunnelAnswers}
  {type : TunnelFrameType} {streamId : ℕ} {payload : Bytes}

theorem encode_ne_nil_of_sendFrameTo {nextHop : KcpConv} {session : KcpSessionKey}
    (sent : tunnel.sendFrameTo answers nextHop type streamId payload = some session) :
    encodeTunnelFrame type streamId payload ≠ [] := by
  intro empty
  unfold sendFrameTo at sent
  split at sent
  · cases sent
  · split at sent
    · cases sent
    · simp [TunnelAnswers.managerSend, empty] at sent

theorem length_broadcastFrame {metadata : Option BroadcastMetadata} {copy : SentCopy}
    (mem : copy ∈ (tunnel.broadcastFrame config answers type streamId payload metadata).2) :
    copy.packet.length = payload.length + broadcastOverhead config type := by
  obtain ⟨hasPacket, envelope, built⟩ := exists_wirePacket (mem_broadcastFrame mem).2
  cases enveloped : isRelayedType type && !config.identity.empty with
  | false =>
    simp only [wirePacket, enveloped, Bool.false_eq_true, if_false, Option.some.injEq,
      Prod.mk.injEq] at built
    rw [← built.1] at hasPacket ⊢
    simp [length_encodeTunnelFrame hasPacket, broadcastOverhead, enveloped]
  | true =>
    have relayed : isRelayedType type = true ∧ config.identity.empty = false := by
      simpa using enveloped
    obtain ⟨envelope, outgoing, hasEnvelope, same⟩ := wirePacket_of_named relayed.1 relayed.2 built
    have named := named_of_encodeBroadcastEnvelope hasEnvelope
    have size := encodeBroadcastEnvelope_length envelope named.1 named.2.1 named.2.2
    rw [(Prod.mk.inj same).1] at hasPacket ⊢
    have carried : envelope.payload = payload := by
      obtain ⟨names, -, rfl⟩ := Option.map_eq_some_iff.mp outgoing
      rfl
    rw [length_encodeTunnelFrame hasPacket, size, carried]
    simp only [broadcastOverhead, enveloped, if_true]
    omega

end KcpTunnel

theorem length_le_of_extractFrames {config : TcpIngressConfig} {buffer frame : Bytes}
    (cut : frame ∈ (TcpIngress.extractFrames config buffer).frames) :
    frame.length ≤ edgeDataFrameHeaderSize + config.maxEdgeFramePayloadSize := by
  have isFrame := (TcpIngress.extractFrames_splits config buffer).1.framed frame cut
  rw [isFrame.length]
  exact Nat.add_le_add_left isFrame.within _

/-- The session takes a frame of the ingress that was reported as sent if and only if the frame and
what was added to it are not larger than a message may be. With a small limit on the payloads that
is so for all frames. -/
theorem reported_sends_taken_iff {ingress : TcpIngressConfig} {buffer frame : Bytes}
    (cut : frame ∈ (TcpIngress.extractFrames ingress buffer).frames) :
    (∀ (tunnel : KcpTunnel) answers nextHop type streamId session,
      tunnel.sendFrameTo answers nextHop type streamId frame = some session →
      (SessionTakes {} (encodeTunnelFrame type streamId frame) ↔
        frame.length + tunnelFrameHeaderSize ≤ maxMessageSize)) ∧
    (∀ config (tunnel : KcpTunnel) answers type streamId metadata,
      ∀ copy ∈ (tunnel.broadcastFrame config answers type streamId frame metadata).2,
      (SessionTakes {} copy.packet ↔
        frame.length + broadcastOverhead config type ≤ maxMessageSize)) ∧
    (ingress.maxEdgeFramePayloadSize + edgeDataFrameHeaderSize + tunnelFrameHeaderSize +
        broadcastHeaderSize ≤ maxMessageSize →
      frame.length + tunnelFrameHeaderSize ≤ maxMessageSize ∧
      ∀ config type, frame.length + broadcastOverhead config type ≤ maxMessageSize) := by
  refine ⟨?_, ?_, ?_⟩
  · intro tunnel answers nextHop type streamId session sent
    have built := encode_ne_nil_of_sendFrameTo sent
    rw [sessionTakes_iff built, length_encodeTunnelFrame built]
  · intro config tunnel answers type streamId metadata copy mem
    have size := length_broadcastFrame mem
    have header : 0 < broadcastOverhead config type := Nat.add_pos_left (by decide) _
    have built : copy.packet ≠ [] := by
      apply ne_nil_of_length_pos
      omega
    rw [sessionTakes_iff built, size]
  · intro small
    have within := length_le_of_extractFrames cut
    have overhead (config : KcpTunnelConfig) (type : TunnelFrameType) :
        broadcastOverhead config type ≤ tunnelFrameHeaderSize + broadcastHeaderSize := by
      unfold broadcastOverhead
      split <;> omega
    refine ⟨by omega, ?_⟩
    intro config type
    have added := overhead config type
    omega

theorem extractFrames_of_isFrame {config : TcpIngressConfig} {frame : Bytes}
    (isFrame : edgeFraming.IsFrame config.maxEdgeFramePayloadSize frame) :
    (TcpIngress.extractFrames config frame).frames = [frame] := by
  have nothing : edgeFraming.Splits config.maxEdgeFramePayloadSize [] [] [] :=
    Framing.splits_of_short fun complete => absurd complete (by decide)
  have splits := Framing.Splits.cons isFrame nothing
  rw [append_nil] at splits
  exact ((TcpIngress.extractFrames_splits config frame).1.unique splits).1

def emptyFrame : Bytes :=
  List.replicate 18 0

/-- The frame without a payload is reported as sent and taken by the session. -/
theorem empty_frame_taken :
    relayTunnel.sendFrameTo openAnswers.kcp relayNode.peer.id .data 1 emptyFrame =
      some relayLink.session ∧
    SessionTakes {} (encodeTunnelFrame .data 1 emptyFrame) := by
  have cut : emptyFrame ∈ (TcpIngress.extractFrames {} emptyFrame).frames := by
    rw [extractFrames_of_isFrame (by decide)]
    exact mem_singleton_self _
  have sent : relayTunnel.sendFrameTo openAnswers.kcp relayNode.peer.id .data 1 emptyFrame =
      some relayLink.session := by
    decide +kernel
  have taken := (reported_sends_taken_iff cut).1 relayTunnel openAnswers.kcp relayNode.peer.id .data
    1 relayLink.session sent
  exact ⟨sent, taken.mpr (by decide)⟩

/-- A frame whose payload is below the default limit of the ingress. -/
def largeFrame : Bytes :=
  List.replicate 14 0 ++ BigEndian.store 4 200000 ++ List.replicate 200000 0

theorem length_largeFrame : largeFrame.length = 200018 := by
  rw [largeFrame, length_append, length_append, length_replicate,
    length_replicate, BigEndian.length_store]

theorem isFrame_largeFrame : edgeFraming.IsFrame (1024 * 1024) largeFrame := by
  have header : largeFrame.take 18 = List.replicate 14 0 ++ BigEndian.store 4 200000 := by
    rw [largeFrame, take_left']
    rfl
  have announced : edgeFraming.announced largeFrame = 200000 := by
    rw [Framing.announced, show edgeFraming.headerSize = 18 from rfl, header]
    decide
  constructor
  · rw [announced, length_largeFrame]
    rfl
  · rw [announced]
    decide

/-- The ingress cuts the frame, the tunnel reports it as sent, and the session refuses it. -/
theorem large_frame_dropped :
    (TcpIngress.extractFrames {} largeFrame).frames = [largeFrame] ∧
    relayTunnel.sendFrameTo openAnswers.kcp relayNode.peer.id .data 1 largeFrame =
      some relayLink.session ∧
    Myring.sendAppData {} (encodeTunnelFrame .data 1 largeFrame) = -2 := by
  have built : encodeTunnelFrame .data 1 largeFrame ≠ [] := by
    apply encodeTunnelFrame_ne_nil
    rw [length_largeFrame]
    decide
  have size : (encodeTunnelFrame .data 1 largeFrame).length = 200038 := by
    rw [length_encodeTunnelFrame built, length_largeFrame]
    rfl
  have link : relayTunnel.findLink relayNode.peer.id = some relayLink := by decide +kernel
  refine ⟨extractFrames_of_isFrame isFrame_largeFrame, ?_, ?_⟩
  · have valid : relayLink.session.valid = true := by decide +kernel
    have named : relayNode.peer.id.empty = false := by decide +kernel
    have running : relayTunnel.running = true := rfl
    have accepts : openAnswers.kcp.accepts relayLink.session = true := rfl
    simp [KcpTunnel.sendFrameTo, link, named, running, built, valid, accepts,
      TunnelAnswers.managerSend]
  · rw [Myring.sendAppData, size, if_neg (by simp [built])]
    decide

end IotProxy.Proxy
