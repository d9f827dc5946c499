import IotProxy.Proxy.RedisStateCache

/-!
# The edge data pipeline

`write_edge_data` takes a frame of a device to Kafka: it records the message in Redis and, unless
Redis knows its id already, hands it to the Kafka producer. `record_kafka_message` is the
other direction: it records a message that was read from Kafka.

What Redis, the producer and the clock answer is part of the call.
-/

namespace IotProxy.Proxy

structure KafkaSinkConfig where
  brokers : Text
  topic : Text

def KafkaSinkConfig.enabled (config : KafkaSinkConfig) : Bool :=
  !config.brokers.isEmpty && !config.topic.isEmpty

inductive ProduceError where
  | noError
  | queueFull
  | other
  deriving DecidableEq

/-- What the producer answers during one call: whether it could be started, and the result of
the first and of the second try. -/
structure SinkReplies where
  started : Bool
  first : ProduceError
  second : ProduceError
  deriving DecidableEq

/-- The outcome of `KafkaSink::produce`. A disabled sink drops the message and reports
success. -/
inductive Produced where
  | skipped
  | accepted (key : Text) (value : Bytes)
  | failed
  deriving DecidableEq

def Produced.returned : Produced → Bool
  | .skipped => true
  | .accepted _ _ => true
  | .failed => false

def Produced.isAccepted : Produced → Bool
  | .accepted _ _ => true
  | _ => false

/-- A full queue is polled once before the second try. -/
def produce (config : KafkaSinkConfig) (key : Text) (value : Bytes) (replies : SinkReplies) :
    Produced :=
  if !config.enabled then .skipped
  else if !replies.started then .failed
  else
    let error := match replies.first with
      | .queueFull => replies.second
      | error => error
    match error with
    | .noError => .accepted key value
    | _ => .failed

theorem produce_isAccepted_of_returned {config : KafkaSinkConfig} {key : Text} {value : Bytes}
    {replies : SinkReplies} (enabled : config.enabled = true)
    (returned : (produce config key value replies).returned = true) :
    (produce config key value replies).isAccepted = true := by
  cases outcome : produce config key value replies with
  | skipped =>
    simp only [produce, enabled] at outcome
    grind
  | accepted key value => rfl
  | failed => simp [outcome, Produced.returned] at returned

structure EdgeDataPipelineConfig where
  redis : RedisStateCacheConfig
  kafka : KafkaSinkConfig

structure WriteCall where
  streamId : ℕ
  payload : Bytes
  metadata : BroadcastMetadata
  nowMs : ℤ
  redis : RedisReplies
  kafka : SinkReplies

structure Written where
  redis : Redis
  produced : Option Produced
  returned : Bool

section

variable (config : EdgeDataPipelineConfig) (redis : Redis)

/-- Take the frame of a device to Redis and Kafka. -/
def writeEdgeData (call : WriteCall) : Written :=
  if call.payload.isEmpty then { redis, produced := none, returned := true }
  else
    match makeEdgeDataMessage call.nowMs call.streamId call.payload call.metadata with
    | none => { redis, produced := none, returned := false }
    | some message =>
      let serialized := serializeEdgeDataMessageJson message
      -- a failure to record the message is logged and otherwise ignored
      let recorded := recordEdgeMessage config.redis redis message serialized call.redis
      if recorded.duplicate then { redis := recorded.redis, produced := none, returned := true }
      else
        let produced := produce config.kafka message.macHex serialized call.kafka
        { redis := recorded.redis, produced := some produced, returned := produced.returned }

/-- Record a message that was read from Kafka. -/
def recordKafkaMessage (parse : Bytes → Option Json) (nowMs : ℤ) (payload : Bytes)
    (metadata : BroadcastMetadata) (replies : RedisReplies) : Recorded :=
  if payload.isEmpty then { redis, ok := true, duplicate := false }
  else
    match parseEdgeKafkaMessageJson parse nowMs payload metadata with
    | none => { redis, ok := false, duplicate := false }
    | some message => recordEdgeMessage config.redis redis message payload replies

end

end IotProxy.Proxy
