import IotProxy.Proxy.EdgeData
import IotProxy.Storage.Message

/-!
# Edge data in storage

A device frame is stored by two programs. The proxy writes the JSON of a message, with the MAC
address and the payload as text; the storage service makes a row of it.
-/

namespace IotProxy.Storage

open Proxy Option List

section MacAddress

variable {digits : Text}

theorem macHexToAddr_eq_joinPairs (digits : Text) : macHexToAddr digits = joinPairs digits := by
  fun_induction macHexToAddr digits with
  | case1 first second third rest ih => rw [joinPairs, ih]
  | case2 digits short =>
    unfold joinPairs
    split
    · next first second third rest => exact absurd rfl (short first second third rest)
    · rfl

theorem isEmpty_macHexToAddr {mac : Bytes} (size : mac.length = 6) :
    (macHexToAddr (Hex.encode mac)).isEmpty = false := by
  have length := Hex.length_encode mac
  cases digits : Hex.encode mac with
  | nil =>
    rw [digits, size] at length
    cases length
  | cons first rest =>
    unfold macHexToAddr
    split <;> rfl

theorem mem_of_mem_joinPairs {char : Char} (mem : char ∈ joinPairs digits) :
    char = ':' ∨ char ∈ digits := by
  fun_induction joinPairs digits with
  | case1 first second third rest ih =>
    simp only [mem_cons] at mem ih ⊢
    tauto
  | case2 digits short => exact .inr mem

theorem filter_joinPairs (noSeparator : ∀ char ∈ digits, char ≠ ':' ∧ char ≠ '-') :
    (joinPairs digits).filter (fun char => char != ':' && char != '-') = digits := by
  fun_induction joinPairs digits with
  | case1 first second third rest ih =>
    have later := ih fun char mem => noSeparator char
      (mem_cons_of_mem _ (mem_cons_of_mem _ mem))
    have one := noSeparator first (by simp)
    have two := noSeparator second (by simp)
    simp [one.1, one.2, two.1, two.2, later]
  | case2 digits short =>
    rw [filter_eq_self]
    intro char mem
    simp [noSeparator char mem]

theorem normalizeMacAddr_macHexToAddr (letterCase : Text.LetterCase) {mac : Bytes}
    (size : mac.length = 6) :
    normalizeMacAddr letterCase (macHexToAddr (Hex.encode mac)) =
      macHexToAddr (Hex.encode mac) := by
  have inAddress : ∀ char ∈ macHexToAddr (Hex.encode mac),
      char ∈ ':' :: "0123456789abcdef".toList := by
    intro char mem
    rw [macHexToAddr_eq_joinPairs] at mem
    rcases mem_of_mem_joinPairs mem with rfl | mem
    · exact mem_cons_self
    · exact mem_cons_of_mem _ (Hex.mem_of_mem_encode mem)
  have noSpace : ∀ char ∈ ':' :: "0123456789abcdef".toList, Text.isSpace char = false :=
    all_iff_forall_prop.mp (by decide)
  have lower : ∀ char ∈ ':' :: "0123456789abcdef".toList,
      char.toNat < 128 ∧ char.toLower = char :=
    all_iff_forall_prop.mp (by decide)
  have noSeparator : ∀ char ∈ "0123456789abcdef".toList, char ≠ ':' ∧ char ≠ '-' :=
    all_iff_forall_prop.mp (by decide)
  have trimmed := Text.trimSpace_eq_self fun char mem => noSpace char (inAddress char mem)
  have lowered : (macHexToAddr (Hex.encode mac)).map letterCase.lower =
      macHexToAddr (Hex.encode mac) := by
    refine (map_congr_left fun char mem => ?_).trans (map_id _)
    rcases lower char (inAddress char mem) with ⟨ascii, same⟩
    rw [letterCase.lower_ascii char ascii, same, id]
  have compact : (joinPairs (Hex.encode mac)).filter (fun char => char != ':' && char != '-') =
      Hex.encode mac :=
    filter_joinPairs fun char mem => noSeparator char (Hex.mem_of_mem_encode mem)
  have pattern : macHexPattern (Hex.encode mac) = true := by
    simp only [macHexPattern, Hex.length_encode, size, Bool.and_eq_true, List.all_eq_true]
    exact ⟨rfl, fun char mem => Hex.isSome_hexDigit_of_mem_encode mem⟩
  rw [normalizeMacAddr, trimmed, lowered, isEmpty_macHexToAddr size, macHexToAddr_eq_joinPairs]
  simp only [compact, pattern, if_true]
  rfl

end MacAddress

section Envelope

def messageMembers (message : EdgeDataMessage) : List (Text × (Text ⊕ ℤ)) :=
  [ ("mac_addr".toList, .inl message.macAddr),
    ("mac_hex".toList, .inl message.macHex),
    ("message_id".toList, .inl message.messageId),
    ("origin".toList, .inl message.origin),
    ("payload_base64".toList, .inl message.payloadBase64),
    ("payload_len".toList, .inr message.payloadLen),
    ("received_at_ms".toList, .inr message.receivedAtMs),
    ("schema".toList, .inl edgeKafkaSchema),
    ("stream_id".toList, .inr message.streamId),
    ("timestamp_ms".toList, .inr message.timestampMs) ]

/-- The texts of a message need no escapes. -/
structure PlainTexts (message : EdgeDataMessage) : Prop where
  macAddr : ∀ char ∈ message.macAddr, Json.IsPlain char
  macHex : ∀ char ∈ message.macHex, Json.IsPlain char
  messageId : ∀ char ∈ message.messageId, Json.IsPlain char
  origin : ∀ char ∈ message.origin, Json.IsPlain char
  payloadBase64 : ∀ char ∈ message.payloadBase64, Json.IsPlain char

variable {message : EdgeDataMessage}

theorem readable_messageMembers (plain : PlainTexts message) :
    ∀ member ∈ messageMembers message, Json.Readable encodingJson member := by
  intro member mem
  simp only [messageMembers, mem_cons, not_mem_nil, or_false] at mem
  rcases mem with rfl | rfl | rfl | rfl | rfl | rfl | rfl | rfl | rfl | rfl
  all_goals refine ⟨all_iff_forall_prop.mp (by decide), ?_⟩
  · exact plain.macAddr
  · exact plain.macHex
  · exact plain.messageId
  · exact plain.origin
  · exact plain.payloadBase64
  · rfl
  · rfl
  · exact all_iff_forall_prop.mp (by decide)
  · rfl
  · rfl

section StoreMember

variable (envelope : EdgeKafkaMessage) (content literal : Text)

theorem storeMember_schema : storeMember envelope ("schema".toList, .string content) =
    some { envelope with schema := content } :=
  rfl

theorem storeMember_macHex : storeMember envelope ("mac_hex".toList, .string content) =
    some { envelope with macHex := content } :=
  rfl

theorem storeMember_macAddr : storeMember envelope ("mac_addr".toList, .string content) =
    some { envelope with macAddr := content } :=
  rfl

theorem storeMember_payloadBase64 :
    storeMember envelope ("payload_base64".toList, .string content) =
      some { envelope with payloadBase64 := content } :=
  rfl

theorem storeMember_timestampMs : storeMember envelope ("timestamp_ms".toList, .number literal) =
    (storeUint64 envelope.timestampMS (.number literal)).map fun timestampMS =>
      { envelope with timestampMS } :=
  rfl

theorem storeMember_payloadLen : storeMember envelope ("payload_len".toList, .number literal) =
    (storeIntPointer (.number literal)).map fun payloadLen => { envelope with payloadLen } :=
  rfl

theorem storeMember_other {key : Text} (value : Json)
    (other : key ∈ ["message_id", "origin", "received_at_ms", "stream_id"].map String.toList) :
    storeMember envelope (key, value) = some envelope := by
  simp only [map_cons, map_nil, mem_cons, not_mem_nil, or_false] at other
  rcases other with rfl | rfl | rfl | rfl <;> rfl

end StoreMember

theorem unmarshalEnvelope_serialize (plain : PlainTexts message)
    (timestamp : message.timestampMs < 2 ^ 64) (length : message.payloadLen < 2 ^ 63) :
    unmarshalEnvelope (serializeEdgeDataMessageJson message) = some
      { schema := edgeKafkaSchema, macHex := message.macHex, macAddr := message.macAddr
        timestampMS := message.timestampMs, payloadBase64 := message.payloadBase64
        payloadLen := some message.payloadLen } := by
  have readable := readable_messageMembers plain
  have text : serializeEdgeDataMessageJson message =
      Utf8.encode (Json.dumpFlat (messageMembers message)) := rfl
  have decoded := Utf8.decodeLossy_encode (Json.dumpFlat (messageMembers message))
  have parsed : Json.parse encodingJson (Json.dumpFlat (messageMembers message)) =
      some (.object ((messageMembers message).map Json.memberValue)) :=
    Json.parse_dumpFlat (cons_ne_nil _ _) readable (by decide)
  have isTimestamp : storeUint64 0 (.number (Text.itoa message.timestampMs)) =
      some message.timestampMs := by
    have digits : Text.itoa message.timestampMs = Nat.toDigits 10 message.timestampMs := by
      simp [Text.itoa]
    rw [digits, storeUint64, Text.readDigits_toDigits, filter_some, if_pos (by simpa)]
  have isLength : storeIntPointer (.number (Text.itoa message.payloadLen)) =
      some (some (message.payloadLen : ℤ)) := by
    rw [storeIntPointer, Text.atoi_itoa (by omega) (by omega), map_some]
  rw [text, unmarshalEnvelope, decoded, parsed]
  simp (disch := decide) only [messageMembers, map_cons, map_nil, Json.memberValue,
    foldlM_cons, foldlM_nil, storeMember_schema, storeMember_macHex, storeMember_macAddr,
    storeMember_payloadBase64, storeMember_timestampMs, storeMember_payloadLen, storeMember_other,
    isTimestamp, isLength, map_some, bind_eq_bind, bind_some]
  rfl

end Envelope

section Rows

variable {frame : Bytes} {edge : EdgeDataFrame} {nowMs : ℤ} {streamId : ℕ}
  {metadata : BroadcastMetadata} {message : EdgeDataMessage}

theorem bounds_of_decodeEdgeDataFrame (decoded : decodeEdgeDataFrame frame = some edge) :
    edge.mac.length = 6 ∧ edge.timestampMs < 2 ^ 64 ∧ edge.payload.length < 2 ^ 32 := by
  have field (bytes : Bytes) (width : ℕ) : BigEndian.load (bytes.take width) < 256 ^ width :=
    (BigEndian.load_lt _).trans_le
      (Nat.pow_le_pow_right (by decide) (length_take_le width bytes))
  unfold decodeEdgeDataFrame edgeDataFramePayloadSize at decoded
  split at decoded
  · cases decoded
  · next payloadSize announced =>
      split at announced
      · cases announced
      · next complete =>
          cases announced
          rw [ite_none_left_eq_some, not_not, Option.some.injEq] at decoded
          rcases decoded with ⟨size, rfl⟩
          refine ⟨?_, field _ 8, ?_⟩
          · have header : edgeDataFrameHeaderSize = 18 := rfl
            have macSize : edgeMacSize = 6 := rfl
            simp only [length_take]
            omega
          · rw [length_drop, size]
            exact field _ 4

theorem plainTexts_makeEdgeDataMessage
    (made : makeEdgeDataMessage nowMs streamId frame metadata = some message) :
    PlainTexts message := by
  have hexPlain : ∀ char ∈ ':' :: "0123456789abcdef".toList, Json.IsPlain char :=
    all_iff_forall_prop.mp (by decide)
  have base64Plain : ∀ char ∈ '=' :: Base64.alphabet, Json.IsPlain char :=
    all_iff_forall_prop.mp (by decide)
  have ofHex (bytes : Bytes) : ∀ char ∈ Hex.encode bytes, Json.IsPlain char := fun char mem =>
    hexPlain char (mem_cons_of_mem _ (Hex.mem_of_mem_encode mem))
  have ofName (valid : Bool) (name : KcpConv) :
      ∀ char ∈ if valid then convidToHex name else [], Json.IsPlain char := by
    cases valid with
    | false => exact fun char mem => absurd mem (not_mem_nil)
    | true => exact ofHex name.bytes
  unfold makeEdgeDataMessage at made
  split at made
  · cases made
  · next edge _ =>
      cases made
      constructor
      · intro char mem
        rw [macHexToAddr_eq_joinPairs] at mem
        rcases mem_of_mem_joinPairs mem with rfl | mem
        · exact hexPlain _ mem_cons_self
        · exact ofHex edge.mac char mem
      · exact ofHex edge.mac
      · exact ofName metadata.valid metadata.messageId
      · exact ofName metadata.valid metadata.origin
      · rw [base64Encode_eq_encode]
        exact fun char mem => base64Plain char (Base64.mem_of_mem_encode mem)

theorem decodePayload_encode (payload : Bytes) :
    decodePayload (Base64.encode payload) = .ok payload := by
  have noSpace : ∀ char ∈ '=' :: Base64.alphabet, Text.isSpace char = false :=
    all_iff_forall_prop.mp (by decide)
  have trimmed : Text.trimSpace (Base64.encode payload) = Base64.encode payload :=
    Text.trimSpace_eq_self fun char mem => noSpace char (Base64.mem_of_mem_encode mem)
  simp only [decodePayload, trimmed, List.isEmpty_iff, Base64.encode_eq_nil_iff,
    Base64.decode_encode]
  split
  · next empty => rw [empty]
  · rfl

/-- The time stamp that is stored for a frame: zero stands for the time of the record. -/
def storedTimestamp (edge : EdgeDataFrame) (createdAt : Time) : ℕ :=
  if edge.timestampMs = 0 then (createdAt.unixMilli % 2 ^ 64).toNat else edge.timestampMs

theorem parseDeviceMessage_serialize (letterCase : Text.LetterCase) (now createdAt : Time)
    (decoded : decodeEdgeDataFrame frame = some edge)
    (made : makeEdgeDataMessage nowMs streamId frame metadata = some message) :
    parseDeviceMessage letterCase now (serializeEdgeDataMessageJson message) createdAt =
      let created := createdAtOrNow now createdAt
      let timestampMS := storedTimestamp edge created
      if timestampMS ≥ 2 ^ 63 then .error (.timestampOverflow timestampMS)
      else .ok
        { macAddr := macHexToAddr (Hex.encode edge.mac), timestampMS, payload := edge.payload
          createdAt := created, eventTime := Time.ofUnixMilli timestampMS } := by
  rcases bounds_of_decodeEdgeDataFrame decoded with ⟨size, timestamp, length⟩
  have plain := plainTexts_makeEdgeDataMessage made
  have fields : message.macAddr = macHexToAddr (Hex.encode edge.mac) ∧
      message.timestampMs = edge.timestampMs ∧
      message.payloadBase64 = Base64.encode edge.payload ∧
      message.payloadLen = edge.payload.length := by
    rw [makeEdgeDataMessage, decoded] at made
    cases made
    exact ⟨rfl, rfl, base64Encode_eq_encode _, rfl⟩
  rcases fields with ⟨macAddr, isTimestamp, payload, isLength⟩
  have envelope := unmarshalEnvelope_serialize plain (by omega) (by omega)
  have normal := normalizeMacAddr_macHexToAddr letterCase size
  have hasMac := isEmpty_macHexToAddr size
  rw [macAddr, isTimestamp, payload, isLength] at envelope
  have isMac (record : EdgeKafkaMessage)
      (same : record.macAddr = macHexToAddr (Hex.encode edge.mac)) :
      envelopeMac letterCase record = macHexToAddr (Hex.encode edge.mac) := by
    simp only [envelopeMac, same, normal, hasMac]
    rfl
  have isStored (record : EdgeKafkaMessage) (created : Time)
      (same : record.timestampMS = edge.timestampMs) (missing : record.timestamp = 0) :
      envelopeTimestamp record created = storedTimestamp edge created := by
    rw [envelopeTimestamp, same, missing]
    rfl
  have sameLength : checkPayloadLen (some (edge.payload.length : ℤ)) edge.payload = .ok () := by
    simp [checkPayloadLen]
  rw [parseDeviceMessage, envelope]
  simp [isMac, isStored, hasMac, decodePayload_encode, sameLength]

/-- The row has the address, the payload and the time stamp of the frame. -/
structure StoredAs (edge : EdgeDataFrame) (row : DeviceMessage) : Prop where
  macAddr : row.macAddr = macHexToAddr (Hex.encode edge.mac)
  payload : row.payload = edge.payload
  timestampMS : row.timestampMS = edge.timestampMs

/-- A frame is stored as it was sent if and only if its time stamp fits a signed number and is not
zero, unless the record itself was made at time zero. -/
theorem stored_unchanged_iff (decoded : decodeEdgeDataFrame frame = some edge)
    (letterCase : Text.LetterCase) (nowMs : ℤ) (streamId : ℕ) (metadata : BroadcastMetadata)
    (now createdAt : Time) :
    (∃ message row, makeEdgeDataMessage nowMs streamId frame metadata = some message ∧
      parseDeviceMessage letterCase now (serializeEdgeDataMessageJson message) createdAt = .ok row ∧
      StoredAs edge row) ↔
    edge.timestampMs < 2 ^ 63 ∧
      (edge.timestampMs = 0 → (createdAtOrNow now createdAt).unixMilli = 0) := by
  have made : ∃ message, makeEdgeDataMessage nowMs streamId frame metadata = some message := by
    rw [makeEdgeDataMessage, decoded]
    exact ⟨_, rfl⟩
  have range : -2 ^ 63 ≤ (createdAtOrNow now createdAt).unixMilli ∧
      (createdAtOrNow now createdAt).unixMilli < 2 ^ 63 := by
    simp only [Time.unixMilli, Text.wrapInt64]
    omega
  have stored : storedTimestamp edge (createdAtOrNow now createdAt) = edge.timestampMs ↔
      (edge.timestampMs = 0 → (createdAtOrNow now createdAt).unixMilli = 0) := by
    unfold storedTimestamp
    split
    · next zero =>
        rw [zero]
        omega
    · next notZero => simp [notZero]
  constructor
  · rintro ⟨message, row, made, parsed, same⟩
    rw [parseDeviceMessage_serialize letterCase now createdAt decoded made] at parsed
    simp only at parsed
    split at parsed
    · cases parsed
    · next fits =>
        cases parsed
        have isSame : storedTimestamp edge (createdAtOrNow now createdAt) = edge.timestampMs :=
          Int.natCast_inj.mp same.timestampMS
        rw [isSame] at fits
        exact ⟨not_le.mp fits, stored.mp isSame⟩
  · rintro ⟨fits, notMissing⟩
    rcases made with ⟨message, made⟩
    have isSame := stored.mpr notMissing
    have parsed := parseDeviceMessage_serialize letterCase now createdAt decoded made
    simp only [isSame, ge_iff_le, not_le.mpr fits, if_false] at parsed
    exact ⟨message, _, made, parsed, rfl, rfl, rfl⟩

end Rows

def stampedFrame (timestampMs : ℕ) : Bytes :=
  [0xAA, 0xBB, 0xCC, 0xDD, 0xEE, 0xFF] ++ BigEndian.store 8 timestampMs ++ BigEndian.store 4 2 ++
    [0x00, 0xFF]

def recordTime : Time where
  unixSec := 1700000000
  nsec := 0

/-- A frame with a time stamp of the year 2023. -/
theorem stamped_frame_stored :
    ∃ message row, makeEdgeDataMessage 0 1 (stampedFrame 1700000000123) {} = some message ∧
      parseDeviceMessage .ascii recordTime (serializeEdgeDataMessageJson message) recordTime =
        .ok row ∧
      StoredAs ⟨[0xAA, 0xBB, 0xCC, 0xDD, 0xEE, 0xFF], 1700000000123, [0x00, 0xFF]⟩ row := by
  have decoded : decodeEdgeDataFrame (stampedFrame 1700000000123) =
      some ⟨[0xAA, 0xBB, 0xCC, 0xDD, 0xEE, 0xFF], 1700000000123, [0x00, 0xFF]⟩ := by
    decide
  exact (stored_unchanged_iff decoded .ascii 0 1 {} recordTime recordTime).mpr
    ⟨by decide, fun zero => absurd zero (by decide)⟩

def rowOf (timestampMs : ℕ) : Option (Except ParseError DeviceMessage) :=
  (makeEdgeDataMessage 0 1 (stampedFrame timestampMs) {}).map fun message =>
    parseDeviceMessage .ascii recordTime (serializeEdgeDataMessageJson message) recordTime

/-- Zero becomes the time of the record, and the upper half of the range is refused. -/
theorem timestamps_not_stored :
    decodeEdgeDataFrame (stampedFrame 0) =
      some ⟨[0xAA, 0xBB, 0xCC, 0xDD, 0xEE, 0xFF], 0, [0x00, 0xFF]⟩ ∧
    rowOf 0 = some (.ok
      { macAddr := "aa:bb:cc:dd:ee:ff".toList, timestampMS := 1700000000000
        eventTime := recordTime, payload := [0x00, 0xFF], createdAt := recordTime }) ∧
    decodeEdgeDataFrame (stampedFrame (2 ^ 63)) =
      some ⟨[0xAA, 0xBB, 0xCC, 0xDD, 0xEE, 0xFF], 2 ^ 63, [0x00, 0xFF]⟩ ∧
    rowOf (2 ^ 63) = some (.error (.timestampOverflow (2 ^ 63))) := by
  decide +kernel

end IotProxy.Storage
