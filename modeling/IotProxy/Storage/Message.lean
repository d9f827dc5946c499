import IotProxy.Lib.Json

/-!
# Device messages of the storage service

`ParseDeviceMessage` of `storage/message.go`: the JSON envelope of the edge topic, its schema check,
the choice of timestamp and MAC address, and the payload with its declared length.

`encoding/json` is modelled on the parsed value: malformed UTF-8 is replaced, at most 10000
containers nest, keys match field names up to letter case, a repeated key overwrites, `null` leaves
a scalar field alone, and any type mismatch fails the whole call.

Time enters twice: the caller passes a creation time, and a zero creation time is replaced by the
clock.
-/

namespace IotProxy.Storage

structure Time where
  unixSec : ℤ
  nsec : ℕ
deriving DecidableEq, Repr

namespace Time

/-- The zero `time.Time`, midnight of 1 January of year 1. -/
def isZero (time : Time) : Bool :=
  time.unixSec == -62135596800 && time.nsec == 0

def unixMilli (time : Time) : ℤ :=
  Text.wrapInt64 (time.unixSec * 1000 + time.nsec / 1000000)

def ofUnixMilli (milliseconds : ℤ) : Time where
  unixSec := milliseconds / 1000
  nsec := (milliseconds % 1000).toNat * 1000000

end Time

/-- `EdgeKafkaMessage`, with the zero values of its fields as defaults. -/
structure EdgeKafkaMessage where
  schema : Text := []
  macHex : Text := []
  macAddr : Text := []
  topic : Text := []
  timestampMS : ℕ := 0
  timestamp : ℕ := 0
  payloadBase64 : Text := []
  payloadLen : Option ℤ := none

structure DeviceMessage where
  macAddr : Text
  timestampMS : ℤ
  eventTime : Time
  payload : Bytes
  createdAt : Time
deriving DecidableEq, Repr

inductive ParseError where
  | invalidJson
  | unsupportedSchema (schema : Text)
  | timestampOverflow (timestampMS : ℕ)
  | missingMac
  | invalidPayload
  | negativePayloadLen (declared : ℤ)
  | payloadLenMismatch (declared : ℤ) (decoded : ℕ)
deriving DecidableEq, Repr

def edgeKafkaSchema : Text :=
  "iota.edge.raw.v1".toList

section Unmarshal

/-- `encoding/json`: 10000 nested containers, unpaired surrogates replaced. -/
def encodingJson : Json.Dialect where
  maxDepth := some 10000
  unpairedSurrogate := some '\ufffd'

/-- The representative of a character up to simple case folding, for comparison with an
ASCII name: besides letter case, the Kelvin sign folds to `K` and the long s to `S`. -/
def foldRune (char : Char) : Char :=
  if char = '\u212a' then 'K' else if char = '\u017f' then 'S' else char.toUpper

def selects (key : Text) (name : String) : Bool :=
  key.map foldRune == name.toList.map foldRune

def storeString (old : Text) : Json → Option Text
  | .null => some old
  | .string content => some content
  | _ => none

def storeUint64 (old : ℕ) : Json → Option ℕ
  | .null => some old
  | .number literal => (Text.readDigits literal).filter fun number => number < 2 ^ 64
  | _ => none

def storeIntPointer : Json → Option (Option ℤ)
  | .null => some none
  | .number literal => (Text.atoi literal).map some
  | _ => none

/-- Store a JSON member in the field that its key selects. -/
def storeMember (envelope : EdgeKafkaMessage) (member : Text × Json) : Option EdgeKafkaMessage :=
  let (key, value) := member
  if selects key "schema" then
    (storeString envelope.schema value).map fun schema => { envelope with schema }
  else if selects key "mac_hex" then
    (storeString envelope.macHex value).map fun macHex => { envelope with macHex }
  else if selects key "mac_addr" then
    (storeString envelope.macAddr value).map fun macAddr => { envelope with macAddr }
  else if selects key "topic" then
    (storeString envelope.topic value).map fun topic => { envelope with topic }
  else if selects key "timestamp_ms" then
    (storeUint64 envelope.timestampMS value).map fun timestampMS => { envelope with timestampMS }
  else if selects key "timestamp" then
    (storeUint64 envelope.timestamp value).map fun timestamp => { envelope with timestamp }
  else if selects key "payload_base64" then
    (storeString envelope.payloadBase64 value).map fun payloadBase64 =>
      { envelope with payloadBase64 }
  else if selects key "payload_len" then
    (storeIntPointer value).map fun payloadLen => { envelope with payloadLen }
  else some envelope

def unmarshalEnvelope (value : Bytes) : Option EdgeKafkaMessage :=
  match Json.parse encodingJson (Utf8.decodeLossy value) with
  | some .null => some {}
  | some (.object members) => members.foldlM storeMember {}
  | _ => none

end Unmarshal

section MacAddress

variable (letterCase : Text.LetterCase)

/-- The pattern `^[0-9a-fA-F]{12}$`. -/
def macHexPattern (text : Text) : Bool :=
  text.length == 12 && text.all fun char => (Text.hexDigit char).isSome

def joinPairs : Text → Text
  | first :: second :: third :: rest => first :: second :: ':' :: joinPairs (third :: rest)
  | text => text

def normalizeMacAddr (mac : Text) : Text :=
  let mac := (Text.trimSpace mac).map letterCase.lower
  if mac.isEmpty then []
  else
    let compact := mac.filter fun char => char != ':' && char != '-'
    if macHexPattern compact then joinPairs compact else mac

/-- The device name of `mqttDeviceTopicPattern`: the topic ends in the segments `devices`,
the nonempty name and `telemetry`. -/
def macFromMQTTTopic (topic : Text) : Text :=
  match (topic.splitOn '/').reverse with
  | last :: name :: devices :: _ =>
    if last = "telemetry".toList ∧ devices = "devices".toList then name else []
  | _ => []

def envelopeMac (envelope : EdgeKafkaMessage) : Text :=
  let macAddr := normalizeMacAddr letterCase envelope.macAddr
  if macAddr.isEmpty then
    let macHex := normalizeMacAddr letterCase envelope.macHex
    if macHex.isEmpty then normalizeMacAddr letterCase (macFromMQTTTopic envelope.topic)
    else macHex
  else macAddr

end MacAddress

def decodePayload (encoded : Text) : Except ParseError Bytes :=
  let encoded := Text.trimSpace encoded
  if encoded.isEmpty then .ok []
  else
    match Base64.decode encoded with
    | some payload => .ok payload
    | none => .error .invalidPayload

def createdAtOrNow (now createdAt : Time) : Time :=
  if createdAt.isZero then now else createdAt

def envelopeTimestamp (envelope : EdgeKafkaMessage) (createdAt : Time) : ℕ :=
  if envelope.timestampMS = 0 then
    if envelope.timestamp = 0 then (createdAt.unixMilli % 2 ^ 64).toNat else envelope.timestamp
  else envelope.timestampMS

def checkPayloadLen (payloadLen : Option ℤ) (payload : Bytes) : Except ParseError Unit :=
  match payloadLen with
  | none => .ok ()
  | some declared =>
    if declared < 0 then .error (.negativePayloadLen declared)
    else if declared ≠ payload.length then
      .error (.payloadLenMismatch declared payload.length)
    else .ok ()

/-- `ParseDeviceMessage`; `now` is the clock that replaces a zero creation time. -/
def parseDeviceMessage (letterCase : Text.LetterCase) (now : Time) (value : Bytes)
    (createdAt : Time) : Except ParseError DeviceMessage :=
  match unmarshalEnvelope value with
  | none => .error .invalidJson
  | some envelope =>
    let createdAt := createdAtOrNow now createdAt
    let timestampMS := envelopeTimestamp envelope createdAt
    let macAddr := envelopeMac letterCase envelope
    if ¬ envelope.schema.isEmpty ∧ envelope.schema ≠ edgeKafkaSchema then
      .error (.unsupportedSchema envelope.schema)
    else if timestampMS ≥ 2 ^ 63 then .error (.timestampOverflow timestampMS)
    else if macAddr.isEmpty then .error .missingMac
    else
      match decodePayload envelope.payloadBase64 with
      | .error error => .error error
      | .ok payload =>
        match checkPayloadLen envelope.payloadLen payload with
        | .error error => .error error
        | .ok () =>
          .ok { macAddr, timestampMS, payload, createdAt
                eventTime := Time.ofUnixMilli timestampMS }

section Acceptance

/-- A reading of the clock after 1970. -/
abbrev WallClock := { time : Time // 0 ≤ time.unixMilli }

theorem createdAtOrNow_wallClock (now : Time) (createdAt : WallClock) :
    createdAtOrNow now createdAt = createdAt := by
  have notZero : (createdAt : Time).isZero = false := by
    by_contra zero
    simp only [Time.isZero, Bool.not_eq_false, Bool.and_eq_true, beq_iff_eq] at zero
    have afterEpoch := createdAt.property
    simp [Time.unixMilli, Text.wrapInt64, zero.1, zero.2] at afterEpoch
  simp [createdAtOrNow, notZero]

theorem unixMilli_toNat_lt (time : WallClock) :
    ((time : Time).unixMilli % 2 ^ 64).toNat < 2 ^ 63 := by
  have afterEpoch := time.property
  have inRange : (time : Time).unixMilli < 2 ^ 63 := by
    simp only [Time.unixMilli, Text.wrapInt64]
    omega
  omega

theorem envelopeTimestamp_overflow_iff (envelope : EdgeKafkaMessage) (first second : WallClock) :
    envelopeTimestamp envelope first ≥ 2 ^ 63 ↔ envelopeTimestamp envelope second ≥ 2 ^ 63 := by
  have firstFits := unixMilli_toNat_lt first
  have secondFits := unixMilli_toNat_lt second
  simp only [envelopeTimestamp]
  split
  · split
    · omega
    · rfl
  · rfl

theorem parseDeviceMessage_isOk_iff (letterCase : Text.LetterCase) (value : Bytes)
    (firstNow secondNow : Time) (first second : WallClock) :
    (parseDeviceMessage letterCase firstNow value first).isOk ↔
      (parseDeviceMessage letterCase secondNow value second).isOk := by
  simp only [parseDeviceMessage, createdAtOrNow_wallClock]
  cases unmarshalEnvelope value with
  | none => rfl
  | some envelope =>
    have sameOverflow := envelopeTimestamp_overflow_iff envelope first second
    simp only [sameOverflow]
    split_ifs
    · rfl
    · rfl
    · rfl
    · cases decodePayload envelope.payloadBase64 with
      | error _ => rfl
      | ok payload =>
        dsimp only
        cases checkPayloadLen envelope.payloadLen payload with
        | error _ => rfl
        | ok _ => rfl

end Acceptance

end IotProxy.Storage
