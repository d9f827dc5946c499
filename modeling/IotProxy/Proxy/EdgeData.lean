import IotProxy.Proxy.Nlohmann
import IotProxy.Proxy.TunnelFrame

/-!
# Edge data frames and messages

A device sends frames of a fixed header (MAC address, time stamp, payload length) and a payload. The
node turns a frame into an `EdgeDataMessage`, which it writes to Kafka as JSON, and reads such JSON
back from Kafka.
-/

namespace IotProxy.Proxy

section Frame

def edgeMacSize : ℕ := 6

def edgeTimestampSize : ℕ := 8

def edgePayloadLengthSize : ℕ := 4

def edgeDataFrameHeaderSize : ℕ :=
  edgeMacSize + edgeTimestampSize + edgePayloadLengthSize

structure EdgeDataFrame where
  mac : Bytes
  timestampMs : ℕ
  payload : Bytes
  deriving DecidableEq, Repr

def edgeDataFramePayloadSize (header : Bytes) : Option ℕ :=
  if header.length < edgeDataFrameHeaderSize then none
  else some (BigEndian.load
    ((header.drop (edgeMacSize + edgeTimestampSize)).take edgePayloadLengthSize))

def decodeEdgeDataFrame (frame : Bytes) : Option EdgeDataFrame :=
  match edgeDataFramePayloadSize frame with
  | none => none
  | some payloadSize =>
    if frame.length - edgeDataFrameHeaderSize ≠ payloadSize then none
    else some
      { mac := frame.take edgeMacSize
        timestampMs := BigEndian.load ((frame.drop edgeMacSize).take edgeTimestampSize)
        payload := frame.drop edgeDataFrameHeaderSize }

end Frame

section Encoder

open List Base64

/-- `kAlphabet[word & 0x3f]` -/
def alphabetAt (word : UInt32) : Char :=
  Base64.alphabet.getD (word &&& 0x3f).toNat '='

/-- One pass of the loop, for the bytes from the index `i` on. -/
def base64Group (data : Bytes) (i : ℕ) : Text :=
  let b0 := (data.getD i 0).toUInt32
  let b1 := if i + 1 < data.length then (data.getD (i + 1) 0).toUInt32 else 0
  let b2 := if i + 2 < data.length then (data.getD (i + 2) 0).toUInt32 else 0
  let chunk := b0 <<< 16 ||| b1 <<< 8 ||| b2
  [alphabetAt (chunk >>> 18), alphabetAt (chunk >>> 12),
    if i + 1 < data.length then alphabetAt (chunk >>> 6) else '=',
    if i + 2 < data.length then alphabetAt chunk else '=']

def base64Encode (data : Bytes) : Text :=
  (List.range' 0 ((data.length + 2) / 3) 3).flatMap (base64Group data)

theorem alphabetAt_eq_symbol (word : UInt32) : alphabetAt word = symbol word.toNat := by
  have low : (word &&& 0x3f).toNat = word.toNat % 64 := by
    rw [UInt32.toNat_and]
    exact Nat.and_two_pow_sub_one_eq_mod word.toNat 6
  rw [alphabetAt, symbol, low]

/-- The three bytes do not overlap in the word. -/
theorem toNat_chunk (b0 b1 b2 : UInt8) :
    (b0.toUInt32 <<< 16 ||| b1.toUInt32 <<< 8 ||| b2.toUInt32).toNat =
      b0.toNat * 65536 + b1.toNat * 256 + b2.toNat := by
  have first := b0.toNat_lt
  have second := b1.toNat_lt
  have third := b2.toNat_lt
  have upper : (b0.toUInt32 <<< 16).toNat = b0.toNat * 65536 := by
    simp only [UInt32.toNat_shiftLeft, UInt8.toNat_toUInt32, Nat.shiftLeft_eq, UInt32.reduceToNat,
      Nat.reduceMod, Nat.reducePow]
    omega
  have middle : (b1.toUInt32 <<< 8).toNat = b1.toNat * 256 := by
    simp only [UInt32.toNat_shiftLeft, UInt8.toNat_toUInt32, Nat.shiftLeft_eq, UInt32.reduceToNat,
      Nat.reduceMod, Nat.reducePow]
    omega
  have joinUpper : b0.toNat * 65536 ||| b1.toNat * 256 = b0.toNat * 65536 + b1.toNat * 256 := by
    have join := Nat.shiftLeft_add_eq_or_of_lt (show b1.toNat * 256 < 2 ^ 16 by omega) b0.toNat
    rw [Nat.shiftLeft_eq] at join
    exact join.symm
  have joinLower : b0.toNat * 65536 + b1.toNat * 256 ||| b2.toNat =
      b0.toNat * 65536 + b1.toNat * 256 + b2.toNat := by
    have join := Nat.shiftLeft_add_eq_or_of_lt (show b2.toNat < 2 ^ 8 by omega)
      (b0.toNat * 256 + b1.toNat)
    rw [Nat.shiftLeft_eq, Nat.add_mul, Nat.mul_assoc] at join
    exact join.symm
  rw [UInt32.toNat_or, UInt32.toNat_or, upper, middle, UInt8.toNat_toUInt32, joinUpper, joinLower]

theorem alphabetAt_shift (b0 b1 b2 : UInt8) :
    let chunk := b0.toUInt32 <<< 16 ||| b1.toUInt32 <<< 8 ||| b2.toUInt32
    let value := b0.toNat * 65536 + b1.toNat * 256 + b2.toNat
    alphabetAt (chunk >>> 18) = symbol (value / 262144) ∧
    alphabetAt (chunk >>> 12) = symbol (value / 4096) ∧
    alphabetAt (chunk >>> 6) = symbol (value / 64) ∧
    alphabetAt chunk = symbol value := by
  simp only [alphabetAt_eq_symbol, UInt32.toNat_shiftRight, toNat_chunk, Nat.shiftRight_eq_div_pow,
    UInt32.reduceToNat, Nat.reduceMod, Nat.reducePow, and_self]

theorem base64Group_add_three (first second third : UInt8) (rest : Bytes) (i : ℕ) :
    base64Group (first :: second :: third :: rest) (i + 3) = base64Group rest i := by
  have next : i + 3 + 1 < rest.length + 3 ↔ i + 1 < rest.length := by omega
  have last : i + 3 + 2 < rest.length + 3 ↔ i + 2 < rest.length := by omega
  simp only [base64Group, length_cons, Nat.add_assoc, Nat.reduceAdd] at next last ⊢
  simp only [next, last]
  rfl

theorem base64Encode_eq_encode (data : Bytes) : base64Encode data = encode data := by
  fun_induction encode data with
  | case1 => rfl
  | case2 first chunk =>
    rcases alphabetAt_shift first 0 0 with ⟨one, two, -, -⟩
    simp only [UInt8.toNat_zero, Nat.zero_mul, Nat.add_zero] at one two
    rw [← one, ← two]
    simp [base64Encode, base64Group]
  | case3 first second chunk =>
    rcases alphabetAt_shift first second 0 with ⟨one, two, three, -⟩
    simp only [UInt8.toNat_zero, Nat.add_zero] at one two three
    rw [← one, ← two, ← three]
    simp [base64Encode, base64Group]
  | case4 first second third rest chunk ih =>
    rcases alphabetAt_shift first second third with ⟨one, two, three, four⟩
    have passes : (rest.length + 3 + 2) / 3 = (rest.length + 2) / 3 + 1 := by omega
    have window : List.range' (0 + 3) ((rest.length + 2) / 3) 3 =
        (List.range' 0 ((rest.length + 2) / 3) 3).map (3 + ·) := by
      rw [map_add_range']
    have moved (i : ℕ) :
        base64Group (first :: second :: third :: rest) (3 + i) = base64Group rest i := by
      rw [Nat.add_comm, base64Group_add_three]
    have head : base64Group (first :: second :: third :: rest) 0 =
        [symbol (chunk / 262144), symbol (chunk / 4096), symbol (chunk / 64), symbol chunk] := by
      rw [← one, ← two, ← three, ← four]
      simp [base64Group]
    rw [base64Encode, length_cons, length_cons, length_cons, passes,
      List.range'_succ, flatMap_cons, window, flatMap_map, head, ← ih]
    simp only [moved]
    rfl

end Encoder

structure EdgeDataMessage where
  macHex : Text
  macAddr : Text
  timestampMs : ℕ := 0
  streamId : ℕ := 0
  payloadBase64 : Text
  payloadLen : ℕ := 0
  origin : Text := []
  messageId : Text := []
  receivedAtMs : ℤ := 0
  deriving DecidableEq

def macHexToAddr : Text → Text
  | first :: second :: third :: rest => first :: second :: ':' :: macHexToAddr (third :: rest)
  | text => text

/-- The message of a device frame. Without metadata it has neither origin nor id. -/
def makeEdgeDataMessage (nowMs : ℤ) (streamId : ℕ) (frame : Bytes)
    (metadata : BroadcastMetadata) : Option EdgeDataMessage :=
  match decodeEdgeDataFrame frame with
  | none => none
  | some edge =>
    let macHex := Hex.encode edge.mac
    some
      { macHex
        macAddr := macHexToAddr macHex
        timestampMs := edge.timestampMs
        streamId
        payloadBase64 := base64Encode edge.payload
        payloadLen := edge.payload.length
        receivedAtMs := nowMs
        origin := if metadata.valid then convidToHex metadata.origin else []
        messageId := if metadata.valid then convidToHex metadata.messageId else [] }

/-- The JSON of a message. The library keeps object members in the order of their keys. -/
def serializeEdgeDataMessageJson (message : EdgeDataMessage) : Bytes :=
  Utf8.encode <| Json.dumpFlat
    [ ("mac_addr".toList, .inl message.macAddr),
      ("mac_hex".toList, .inl message.macHex),
      ("message_id".toList, .inl message.messageId),
      ("origin".toList, .inl message.origin),
      ("payload_base64".toList, .inl message.payloadBase64),
      ("payload_len".toList, .inr message.payloadLen),
      ("received_at_ms".toList, .inr message.receivedAtMs),
      ("schema".toList, .inl "iota.edge.raw.v1".toList),
      ("stream_id".toList, .inr message.streamId),
      ("timestamp_ms".toList, .inr message.timestampMs) ]

section Parse

def jsonString (doc : List (Text × Json)) (key : String) : Text :=
  match findMember doc key with
  | some (.string content) => content
  | _ => []

def jsonU64 (doc : List (Text × Json)) (key : String) : ℕ :=
  match findMember doc key with
  | some (.number literal) => (Json.unsigned? literal).getD 0
  | _ => 0

def isBlankByte (char : Char) : Bool :=
  char == ' ' || (0x09 ≤ char.toNat && char.toNat ≤ 0x0d)

def compactMacHex (value : Text) : Text :=
  let compact := (value.filter fun char => !(char == ':' || char == '-' || isBlankByte char)).map
    Char.toLower
  if compact.length == 12 && compact.all fun char => (Text.hexDigit char).isSome then compact
  else []

def afterFirst (pattern : Text) : Text → Option Text
  | [] => none
  | char :: rest =>
    if pattern.isPrefixOf (char :: rest) then some ((char :: rest).drop pattern.length)
    else afterFirst pattern rest

/-- The segment between the first `/devices/` and a following `/telemetry`. -/
def macFromTopic (topic : Text) : Text :=
  match afterFirst "/devices/".toList topic with
  | none => []
  | some rest =>
    let (mac, tail) := rest.span (· != '/')
    if "/telemetry".toList.isPrefixOf tail then mac else []

def firstNonempty (first second third : Text) : Text :=
  if first.isEmpty then if second.isEmpty then third else second else first

/-- Read a Kafka message; `parse` is the JSON library. The metadata of the broadcast fills in a
missing origin or id. -/
def parseEdgeKafkaMessageJson (parse : Bytes → Option Json) (nowMs : ℤ) (payload : Bytes)
    (metadata : BroadcastMetadata) : Option EdgeDataMessage :=
  if payload.isEmpty then none
  else
    match parse payload with
    | some (.object doc) =>
      let schema := jsonString doc "schema"
      let macHex := firstNonempty (compactMacHex (jsonString doc "mac_hex"))
        (compactMacHex (jsonString doc "mac_addr"))
        (compactMacHex (macFromTopic (jsonString doc "topic")))
      if (!schema.isEmpty && schema != "iota.edge.raw.v1".toList) || macHex.isEmpty then none
      else
        let timestampMs := jsonU64 doc "timestamp_ms"
        some
          { macHex
            macAddr := macHexToAddr macHex
            timestampMs := if timestampMs = 0 then jsonU64 doc "timestamp" else timestampMs
            streamId := jsonU64 doc "stream_id"
            payloadBase64 := jsonString doc "payload_base64"
            payloadLen := jsonU64 doc "payload_len"
            origin := firstNonempty (jsonString doc "origin") []
              (if metadata.valid then convidToHex metadata.origin else [])
            messageId := firstNonempty (jsonString doc "message_id")
              (jsonString doc "mqtt_message_id")
              (if metadata.valid then convidToHex metadata.messageId else [])
            receivedAtMs := nowMs }
    | _ => none

end Parse

end IotProxy.Proxy
