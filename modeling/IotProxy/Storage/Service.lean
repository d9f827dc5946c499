import IotProxy.Storage.Message

/-!
# The storage service loop

`Service.Run` of `storage/service.go` as a step function. One step is one round of the loop: the
fetch times out or returns the next message of a partition, and the round flushes the batch, skips
the message or adds it to the batch. The event says which partition delivers, what the clock reads,
and whether the Iceberg append and the offset commits succeed.

The consumer follows the reader of the Kafka client. A started process fetches from the committed
offsets on. A commit request moves each of its partitions to one past the highest offset it names,
whatever was committed before. Any error ends the loop, and a process may also stop between any two
calls: such a stop inside a flush is an outcome of that flush.

`appended` is not part of the program: it collects the batches for which `Append` returned `nil`.
-/

namespace IotProxy.Storage

structure Record where
  key : Bytes
  value : Bytes
deriving DecidableEq

/-- The log of a topic: what each partition holds at each offset. Offsets may be missing
after compaction. -/
abbrev TopicLog := ℕ → ℕ → Option Record

structure KafkaMessage where
  partition : ℕ
  offset : ℕ
  key : Bytes
  value : Bytes
deriving DecidableEq

/-- The batching thresholds; a threshold that is not positive is disabled. -/
structure WriterConfig where
  batchMaxMessages : ℤ
  batchMaxBytes : ℤ

structure MessageBatch where
  rows : List DeviceMessage := []
  messages : List KafkaMessage := []
  bytes : ℕ := 0
deriving DecidableEq

namespace MessageBatch

def add (batch : MessageBatch) (row : DeviceMessage) (message : KafkaMessage) : MessageBatch where
  rows := batch.rows ++ [row]
  messages := batch.messages ++ [message]
  bytes := batch.bytes + (message.key.length + message.value.length)

def shouldFlush (batch : MessageBatch) (config : WriterConfig) : Bool :=
  if batch.rows.isEmpty then false
  else if config.batchMaxMessages > 0 ∧ batch.rows.length ≥ config.batchMaxMessages then true
  else config.batchMaxBytes > 0 ∧ batch.bytes ≥ config.batchMaxBytes

def reset (_ : MessageBatch) : MessageBatch :=
  {}

end MessageBatch

/-- The outcome of an offset commit. A failed request may still have been applied to some
partitions. -/
inductive CommitOutcome where
  | ok
  | failed (applied : ℕ → Bool)

def CommitOutcome.applied : CommitOutcome → ℕ → Bool
  | ok => fun _ => true
  | failed applied => applied

inductive FlushOutcome where
  | appendFailed
  | appended (commit : CommitOutcome)

def commitOffsets (committed : ℕ → ℕ) (messages : List KafkaMessage) (applied : ℕ → Bool) :
    ℕ → ℕ := fun partition =>
  match ((messages.filter (·.partition = partition)).map (·.offset)).max? with
  | some highest => if applied partition then highest + 1 else committed partition
  | none => committed partition

structure State where
  committed : ℕ → ℕ
  position : ℕ → ℕ
  running : Bool
  batch : MessageBatch
  appended : List MessageBatch

namespace State

def initial : State where
  committed _ := 0
  position _ := 0
  running := false
  batch := {}
  appended := []

def start (state : State) : State :=
  { state with position := state.committed, running := true, batch := {} }

def stop (state : State) : State :=
  { state with running := false, batch := {} }

/-- `CommitMessages`; the loop returns on an error. -/
def commitMessages (state : State) (messages : List KafkaMessage) (outcome : CommitOutcome) :
    State :=
  let state := { state with
    committed := commitOffsets state.committed messages outcome.applied }
  match outcome with
  | .ok => state
  | .failed _ => state.stop

/-- `Service.flush`; the loop returns on an error. -/
def flush (state : State) (outcome : FlushOutcome) : State :=
  if state.batch.rows.isEmpty then state
  else
    match outcome with
    | .appendFailed => state.stop
    | .appended commit =>
      let state := { state with appended := state.appended ++ [state.batch] }
      let state := state.commitMessages state.batch.messages commit
      { state with batch := state.batch.reset }

/-- The next message of a partition: the first one at or after the position. -/
def fetchMessage (log : TopicLog) (state : State) (partition offset : ℕ) : Option KafkaMessage :=
  if state.position partition ≤ offset ∧
      ∀ earlier < offset, state.position partition ≤ earlier → log partition earlier = none then
    (log partition offset).map fun record =>
      { partition, offset, key := record.key, value := record.value }
  else none

def advance (state : State) (message : KafkaMessage) : State :=
  { state with position := Function.update state.position message.partition (message.offset + 1) }

end State

/-- One round of the loop, or the start or end of a process. -/
inductive Event where
  | start
  | stop
  | fetchTimeout (flush : FlushOutcome)
  | fetchMessage (partition offset : ℕ) (now : WallClock) (skip : CommitOutcome)
      (flush : FlushOutcome)

section Step

variable (letterCase : Text.LetterCase) (config : WriterConfig) (log : TopicLog)

def handleMessage (state : State) (message : KafkaMessage) (now : WallClock)
    (skip : CommitOutcome) (flush : FlushOutcome) : State :=
  match parseDeviceMessage letterCase now message.value now with
  -- the commit of a rejected message does not wait for the batch
  | .error _ => state.commitMessages [message] skip
  | .ok row =>
    let state := { state with batch := state.batch.add row message }
    if state.batch.shouldFlush config then state.flush flush else state

/-- One step of the loop of the service, or a restart. -/
def step (state : State) : Event → Option State
  | .start => if state.running then none else some state.start
  | .stop => if state.running then some state.stop else none
  | .fetchTimeout flush => if state.running then some (state.flush flush) else none
  | .fetchMessage partition offset now skip flush =>
    if state.running then
      (state.fetchMessage log partition offset).map fun message =>
        handleMessage letterCase config (state.advance message) message now skip flush
    else none

end Step

end IotProxy.Storage
