import IotProxy.Storage.Message

/-!
# Device connections of the business service

`ParseKafkaDeviceConnection` of `service/kafka_message_service.go` picks the MAC address and the
time stamp of a message, and the address has to pass `normalizeMAC` of `DAO/message.go`.

The other fields of the envelope are not used, but a value of the wrong type under one fails the
call.
-/

namespace IotProxy.Business

open Storage (Time encodingJson selects storeString storeUint64 edgeKafkaSchema joinPairs)

/-- `EdgeKafkaMessage`, with the zero values of its fields as defaults. -/
structure EdgeKafkaMessage where
  schema : Text := []
  ingressProtocol : Text := []
  macHex : Text := []
  macAddr : Text := []
  topic : Text := []
  clientID : Text := []
  username : Text := []
  qos : ℤ := 0
  timestampMS : ℕ := 0
  timestamp : ℕ := 0
  streamID : ℕ := 0
  origin : Text := []
  messageID : Text := []
  mqttMessageID : Text := []
  receivedAtMS : ℤ := 0

structure DeviceConnection where
  macAddr : Text
  timestamp : ℤ
  deriving DecidableEq

inductive ConnectionError where
  | invalidJson
  | unsupportedSchema (schema : Text)
  | timestampOverflow (timestampMS : ℕ)
  | missingMac
  deriving DecidableEq

section Unmarshal

def storeInt (old : ℤ) : Json → Option ℤ
  | .null => some old
  | .number literal => Text.atoi literal
  | _ => none

def storeMember (envelope : EdgeKafkaMessage) (member : Text × Json) : Option EdgeKafkaMessage :=
  let (key, value) := member
  if selects key "schema" then
    (storeString envelope.schema value).map fun schema => { envelope with schema }
  else if selects key "ingress_protocol" then
    (storeString envelope.ingressProtocol value).map fun ingressProtocol =>
      { envelope with ingressProtocol }
  else if selects key "mac_hex" then
    (storeString envelope.macHex value).map fun macHex => { envelope with macHex }
  else if selects key "mac_addr" then
    (storeString envelope.macAddr value).map fun macAddr => { envelope with macAddr }
  else if selects key "topic" then
    (storeString envelope.topic value).map fun topic => { envelope with topic }
  else if selects key "clientid" then
    (storeString envelope.clientID value).map fun clientID => { envelope with clientID }
  else if selects key "username" then
    (storeString envelope.username value).map fun username => { envelope with username }
  else if selects key "qos" then
    (storeInt envelope.qos value).map fun qos => { envelope with qos }
  else if selects key "timestamp_ms" then
    (storeUint64 envelope.timestampMS value).map fun timestampMS => { envelope with timestampMS }
  else if selects key "timestamp" then
    (storeUint64 envelope.timestamp value).map fun timestamp => { envelope with timestamp }
  else if selects key "stream_id" then
    (storeUint64 envelope.streamID value).map fun streamID => { envelope with streamID }
  else if selects key "origin" then
    (storeString envelope.origin value).map fun origin => { envelope with origin }
  else if selects key "message_id" then
    (storeString envelope.messageID value).map fun messageID => { envelope with messageID }
  else if selects key "mqtt_message_id" then
    (storeString envelope.mqttMessageID value).map fun mqttMessageID =>
      { envelope with mqttMessageID }
  else if selects key "received_at_ms" then
    (storeInt envelope.receivedAtMS value).map fun receivedAtMS => { envelope with receivedAtMS }
  else some envelope

def unmarshalEnvelope (value : Bytes) : Option EdgeKafkaMessage :=
  match Json.parse encodingJson (Utf8.decodeLossy value) with
  | some .null => some {}
  | some (.object members) => members.foldlM storeMember {}
  | _ => none

end Unmarshal

def macFromMQTTTopic : Text → Text :=
  Storage.macFromMQTTTopic

def envelopeMac (envelope : EdgeKafkaMessage) : Text :=
  if envelope.macAddr.isEmpty then
    if envelope.macHex.isEmpty then macFromMQTTTopic envelope.topic else envelope.macHex
  else envelope.macAddr

def envelopeTimestamp (envelope : EdgeKafkaMessage) (now : Time) : ℕ :=
  if envelope.timestampMS = 0 then
    if envelope.timestamp = 0 then (now.unixMilli % 2 ^ 64).toNat else envelope.timestamp
  else envelope.timestampMS

def parseKafkaDeviceConnection (now : Time) (value : Bytes) :
    Except ConnectionError DeviceConnection :=
  match unmarshalEnvelope value with
  | none => .error .invalidJson
  | some envelope =>
    let timestampMS := envelopeTimestamp envelope now
    let macAddr := envelopeMac envelope
    if ¬ envelope.schema.isEmpty ∧ envelope.schema ≠ edgeKafkaSchema then
      .error (.unsupportedSchema envelope.schema)
    else if timestampMS ≥ 2 ^ 63 then .error (.timestampOverflow timestampMS)
    else if macAddr.isEmpty then .error .missingMac
    else .ok { macAddr, timestamp := timestampMS }

section NormalizeMAC

variable (letterCase : Text.LetterCase)

def isLowerHex (char : Char) : Bool :=
  ('0' ≤ char && char ≤ '9') || ('a' ≤ char && char ≤ 'f')

/-- Twelve digits, apart from separators, joined by colons. The length is counted in bytes. -/
def normalizeMAC (macAddr : Text) : Option Text :=
  let clean := (macAddr.filter fun char => char != ':' && char != '-' && char != '.').map
    letterCase.lower
  if (Utf8.encode clean).length ≠ 12 then none
  else if clean.all isLowerHex then some (joinPairs clean)
  else none

end NormalizeMAC

end IotProxy.Business
