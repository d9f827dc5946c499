import IotProxy.Proxy.Address

/-!
# Tunnel frames

The unit that nodes exchange over KCP: a 20-byte header (magic, version, type, flags, stream id,
payload length) and the payload. A broadcast frame also carries the origin and the id of the
message, from an envelope inside the payload.
-/

namespace IotProxy.Proxy

open BigEndian List

inductive TunnelFrameType where
  | open
  | data
  | close
  | control
  | finish
  | replicate
  | kafkaBroadcast
  deriving DecidableEq, Repr

namespace TunnelFrameType

def code : TunnelFrameType → UInt8
  | .open => 1
  | .data => 2
  | .close => 3
  | .control => 4
  | .finish => 5
  | .replicate => 6
  | .kafkaBroadcast => 7

def ofCode (code : UInt8) : Option TunnelFrameType :=
  if code = 1 then some .open
  else if code = 2 then some .data
  else if code = 3 then some .close
  else if code = 4 then some .control
  else if code = 5 then some .finish
  else if code = 6 then some .replicate
  else if code = 7 then some .kafkaBroadcast
  else none

end TunnelFrameType

structure BroadcastMetadata where
  valid : Bool := false
  ttl : ℕ := 0
  origin : KcpConv := KcpConv.zero
  messageId : KcpConv := KcpConv.zero
  deriving DecidableEq

structure TunnelFrame where
  type : TunnelFrameType
  streamId : ℕ
  payload : Bytes
  broadcast : BroadcastMetadata := {}
  deriving DecidableEq

def tunnelFrameHeaderSize : ℕ := 20

def tunnelFramePreamble : Bytes :=
  BigEndian.store 4 0x49505450 ++ [1]

/-- `encode_tunnel_frame` for any value of the byte that the enumeration of types rests on. -/
def encodeFrameBytes (code : UInt8) (streamId : ℕ) (payload : Bytes) : Bytes :=
  if payload.length > 2 ^ 32 - 1 then []
  else
    tunnelFramePreamble ++ [code] ++ BigEndian.store 2 0 ++ BigEndian.store 8 streamId
      ++ BigEndian.store 4 payload.length ++ payload

def encodeTunnelFrame (type : TunnelFrameType) (streamId : ℕ) (payload : Bytes) : Bytes :=
  encodeFrameBytes type.code streamId payload

/-- Read a packet as one frame. Only control frames may carry stream id zero. -/
def decodeTunnelFrame (packet : Bytes) : Option TunnelFrame :=
  if packet.length < tunnelFrameHeaderSize ∨ packet.take 5 ≠ tunnelFramePreamble then none
  else
    match TunnelFrameType.ofCode (packet.getD 5 0) with
    | none => none
    | some type =>
      let streamId := BigEndian.load ((packet.drop 8).take 8)
      let payload := packet.drop tunnelFrameHeaderSize
      if BigEndian.load ((packet.drop 6).take 2) ≠ 0
          ∨ payload.length ≠ BigEndian.load ((packet.drop 16).take 4)
          ∨ (type ≠ .control ∧ streamId = 0) then none
      else some { type, streamId, payload }

theorem TunnelFrameType.ofCode_code (type : TunnelFrameType) : ofCode type.code = some type := by
  cases type <;> rfl

theorem decode_encodeTunnelFrame {type : TunnelFrameType} {streamId : ℕ} {payload : Bytes}
    (fits : payload.length ≤ 2 ^ 32 - 1) (inRange : streamId < 2 ^ 64)
    (hasStream : type ≠ .control → streamId ≠ 0) :
    decodeTunnelFrame (encodeTunnelFrame type streamId payload) =
      some { type, streamId, payload } := by
  rw [encodeTunnelFrame, encodeFrameBytes, if_neg (not_lt.mpr fits)]
  set packet := tunnelFramePreamble ++ [type.code] ++ BigEndian.store 2 0 ++
    BigEndian.store 8 streamId ++ BigEndian.store 4 payload.length ++ payload with isPacket
  have long : ¬ packet.length < tunnelFrameHeaderSize := by
    simp only [isPacket, tunnelFramePreamble, tunnelFrameHeaderSize, length_append,
      length_singleton, length_store]
    omega
  have preamble : packet.take 5 = tunnelFramePreamble := rfl
  have code : packet.getD 5 0 = type.code := rfl
  have flags : BigEndian.load ((packet.drop 6).take 2) = 0 := rfl
  have stream : (packet.drop 8).take 8 = BigEndian.store 8 streamId := rfl
  have length : (packet.drop 16).take 4 = BigEndian.store 4 payload.length := rfl
  have content : packet.drop tunnelFrameHeaderSize = payload := rfl
  have isStream : BigEndian.load (BigEndian.store 8 streamId) = streamId :=
    load_store (by omega)
  have isLength : BigEndian.load (BigEndian.store 4 payload.length) = payload.length :=
    load_store (by omega)
  simp only [decodeTunnelFrame, long, preamble, code, flags, stream, length, content, isStream,
    isLength, TunnelFrameType.ofCode_code, ne_eq, not_true_eq_false, or_self, false_or, if_false]
  rw [if_neg (by simpa using hasStream)]

theorem bounds_of_decodeTunnelFrame {packet : Bytes} {frame : TunnelFrame}
    (decoded : decodeTunnelFrame packet = some frame) :
    frame.payload.length ≤ 2 ^ 32 - 1 ∧ frame.streamId < 2 ^ 64 ∧
      (frame.type ≠ .control → frame.streamId ≠ 0) := by
  unfold decodeTunnelFrame at decoded
  split at decoded
  · cases decoded
  · split at decoded
    · cases decoded
    · next type _ =>
        simp only [ne_eq, Option.ite_none_left_eq_some, not_or, not_not, not_and,
          Option.some.injEq] at decoded
        rcases decoded with ⟨⟨_, length, hasStream⟩, rfl⟩
        have small := load_lt ((packet.drop 16).take 4)
        have streamSmall := load_lt ((packet.drop 8).take 8)
        have width : (256 : ℕ) ^ ((packet.drop 16).take 4).length ≤ 256 ^ 4 :=
          Nat.pow_le_pow_right (by decide) (length_take_le _ _)
        have streamWidth : (256 : ℕ) ^ ((packet.drop 8).take 8).length ≤ 256 ^ 8 :=
          Nat.pow_le_pow_right (by decide) (length_take_le _ _)
        refine ⟨?_, ?_, hasStream⟩
        · simp only [length]
          omega
        · simp only
          omega

theorem TunnelFrameType.code_of_ofCode {code : UInt8} {type : TunnelFrameType}
    (valid : ofCode code = some type) : type.code = code := by
  unfold ofCode at valid
  repeat' split at valid
  case isFalse => cases valid
  all_goals
    cases valid
    symm
    assumption

section Codec

variable {packet : Bytes} {frame : TunnelFrame}

structure FrameFields (packet : Bytes) (frame : TunnelFrame) : Prop where
  preamble : packet.take 5 = tunnelFramePreamble
  type : packet.getD 5 0 = frame.type.code
  flags : (packet.drop 6).take 2 = BigEndian.store 2 0
  streamId : (packet.drop 8).take 8 = BigEndian.store 8 frame.streamId
  length : (packet.drop 16).take 4 = BigEndian.store 4 frame.payload.length
  payload : packet.drop tunnelFrameHeaderSize = frame.payload
  long : tunnelFrameHeaderSize ≤ packet.length

theorem fields_of_decodeTunnelFrame (decoded : decodeTunnelFrame packet = some frame) :
    FrameFields packet frame := by
  have stored (offset width : ℕ) (fits : offset + width ≤ packet.length) :
      BigEndian.store width (BigEndian.load ((packet.drop offset).take width)) =
        (packet.drop offset).take width := by
    have size : ((packet.drop offset).take width).length = width := by
      rw [length_take, length_drop]
      omega
    have whole := store_load ((packet.drop offset).take width)
    rwa [size] at whole
  unfold decodeTunnelFrame at decoded
  split at decoded
  · cases decoded
  · next sized =>
      simp only [not_or, not_lt, not_not, ne_eq] at sized
      have header : 20 ≤ packet.length := sized.1
      split at decoded
      · cases decoded
      · next type valid =>
          simp only [ne_eq, Option.ite_none_left_eq_some, not_or, not_not, Option.some.injEq]
            at decoded
          rcases decoded with ⟨⟨flags, length, _⟩, rfl⟩
          constructor
          · exact sized.2
          · exact (TunnelFrameType.code_of_ofCode valid).symm
          · rw [← flags, stored 6 2 (by omega)]
          · exact (stored 8 8 (by omega)).symm
          · rw [length, stored 16 4 (by omega)]
          · rfl
          · exact sized.1

theorem FrameFields.eq (fields : FrameFields packet frame) :
    packet = tunnelFramePreamble ++ [frame.type.code] ++ BigEndian.store 2 0 ++
      BigEndian.store 8 frame.streamId ++ BigEndian.store 4 frame.payload.length ++
      frame.payload := by
  have header : 20 ≤ packet.length := fields.long
  have inBounds : 5 < packet.length := by omega
  have cut {field : Bytes} (offset width : ℕ) (read : (packet.drop offset).take width = field) :
      packet.drop offset = field ++ packet.drop (offset + width) := by
    rw [← read, ← drop_drop, take_append_drop]
  have code : packet.drop 5 = [frame.type.code] ++ packet.drop 6 := by
    rw [← fields.type, drop_eq_getElem_cons inBounds]
    simp [List.getD, List.getElem?_eq_getElem inBounds]
  calc packet
      = tunnelFramePreamble ++ packet.drop 5 := cut 0 5 fields.preamble
    _ = tunnelFramePreamble ++ ([frame.type.code] ++ (BigEndian.store 2 0 ++
          (BigEndian.store 8 frame.streamId ++ (BigEndian.store 4 frame.payload.length ++
            packet.drop 20)))) := by
        rw [code, cut 6 2 fields.flags, cut 8 8 fields.streamId, cut 16 4 fields.length]
    _ = _ := by
        rw [show packet.drop 20 = frame.payload from fields.payload]
        simp only [append_assoc]

theorem encode_of_decodeTunnelFrame (decoded : decodeTunnelFrame packet = some frame) :
    packet = encodeTunnelFrame frame.type frame.streamId frame.payload := by
  have fits := (bounds_of_decodeTunnelFrame decoded).1
  rw [encodeTunnelFrame, encodeFrameBytes, if_neg (not_lt.mpr fits)]
  exact (fields_of_decodeTunnelFrame decoded).eq

theorem TunnelFrameType.exists_code_iff (code : UInt8) :
    (∃ type : TunnelFrameType, type.code = code) ↔ 1 ≤ code ∧ code ≤ 7 := by
  constructor
  · rintro ⟨type, rfl⟩
    cases type <;> decide
  · rintro ⟨lower, upper⟩
    have same : UInt8.ofNat code.toNat = code := UInt8.ofNat_toNat
    have atLeast : 1 ≤ code.toNat := lower
    have atMost : code.toNat ≤ 7 := upper
    interval_cases code.toNat
    · exact ⟨.open, same⟩
    · exact ⟨.data, same⟩
    · exact ⟨.close, same⟩
    · exact ⟨.control, same⟩
    · exact ⟨.finish, same⟩
    · exact ⟨.replicate, same⟩
    · exact ⟨.kafkaBroadcast, same⟩

/-- The decoder reads exactly the packets that the encoder makes of valid frames, and no two of
them as the same frame. -/
theorem decodeTunnelFrame_iff_encoded (packet : Bytes) (code : UInt8) (streamId : ℕ)
    (payload : Bytes) :
    ((∃ frame, decodeTunnelFrame packet = some frame ∧ frame.type.code = code ∧
        frame.streamId = streamId ∧ frame.payload = payload) ↔
      packet = encodeFrameBytes code streamId payload ∧ (1 ≤ code ∧ code ≤ 7) ∧
        (code ≠ TunnelFrameType.control.code → streamId ≠ 0) ∧
        payload.length ≤ 2 ^ 32 - 1 ∧ streamId < 2 ^ 64) ∧
    ∀ other, decodeTunnelFrame other = decodeTunnelFrame packet →
      (decodeTunnelFrame packet).isSome = true → other = packet := by
  refine ⟨⟨?_, ?_⟩, ?_⟩
  · rintro ⟨frame, decoded, rfl, rfl, rfl⟩
    rcases bounds_of_decodeTunnelFrame decoded with ⟨fits, inRange, hasStream⟩
    refine ⟨encode_of_decodeTunnelFrame decoded, ?_, ?_, fits, inRange⟩
    · exact (TunnelFrameType.exists_code_iff _).mp ⟨frame.type, rfl⟩
    · intro notControl
      apply hasStream
      rintro isControl
      exact notControl (congrArg TunnelFrameType.code isControl)
  · rintro ⟨rfl, valid, hasStream, fits, inRange⟩
    rcases (TunnelFrameType.exists_code_iff code).mpr valid with ⟨type, rfl⟩
    refine ⟨_, decode_encodeTunnelFrame fits inRange fun notControl => ?_, rfl, rfl, rfl⟩
    apply hasStream
    intro same
    have read := TunnelFrameType.ofCode_code type
    rw [same, TunnelFrameType.ofCode_code] at read
    exact notControl (Option.some.inj read).symm
  · intro other same accepted
    rcases Option.isSome_iff_exists.mp accepted with ⟨frame, decoded⟩
    calc other = encodeTunnelFrame frame.type frame.streamId frame.payload :=
          encode_of_decodeTunnelFrame (same.trans decoded)
      _ = packet := (encode_of_decodeTunnelFrame decoded).symm

end Codec

end IotProxy.Proxy
