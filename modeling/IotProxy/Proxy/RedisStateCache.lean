import IotProxy.Lib.Remote
import IotProxy.Proxy.EdgeData

/-!
# The Redis state cache

For every message with an id the cache first sets the key `seen:` with the id, unless it exists; an
existing key means that the message is a duplicate. Otherwise it stores the state and the latest
message of the device. Each command is sent at most twice (`Remote.perform`): the second time after
the connection broke or an answer did not arrive in time.

The server is modelled by its keys. What the commands of a call meet on the way is given by
`RedisReplies`.
-/

namespace IotProxy.Proxy

open Remote (Attempt)

structure RedisStateCacheConfig where
  endpoint : Ipv4Endpoint
  deviceStateTtlSeconds : ℕ := 60
  deviceLatestTtlSeconds : ℕ := 24 * 60 * 60
  seenTtlSeconds : ℕ := 10 * 60

def RedisStateCacheConfig.enabled (config : RedisStateCacheConfig) : Bool :=
  !config.endpoint.host.isEmpty && config.endpoint.port != 0

/-- A stored value; a time to live of zero means that it does not expire. -/
structure RedisEntry where
  value : Bytes
  ttlSeconds : ℕ
  deriving DecidableEq

abbrev Redis := Text → Option RedisEntry

structure RedisCommand where
  key : Text
  value : Bytes
  ttlSeconds : ℕ
  onlyIfAbsent : Bool

def setCommand (key : Text) (value : Bytes) (ttlSeconds : ℕ) : RedisCommand where
  key := key
  value := value
  ttlSeconds := ttlSeconds
  onlyIfAbsent := false

def setNxCommand (key : Text) (value : Bytes) (ttlSeconds : ℕ) : RedisCommand where
  key := key
  value := value
  ttlSeconds := ttlSeconds
  onlyIfAbsent := true

/-- The part of a reply that the cache reads: `nil` says that the key was not set. -/
structure Reply where
  nil : Bool
  deriving DecidableEq

def RedisCommand.serve (command : RedisCommand) (redis : Redis) : Redis × Reply :=
  if command.onlyIfAbsent && (redis command.key).isSome then (redis, ⟨true⟩)
  else (Function.update redis command.key (some ⟨command.value, command.ttlSeconds⟩), ⟨false⟩)

structure Attempts where
  first : Attempt
  second : Attempt
  deriving DecidableEq

def Attempts.toList (attempts : Attempts) : List Attempt :=
  [attempts.first, attempts.second]

def executeLocked (redis : Redis) (command : RedisCommand) (attempts : Attempts) :
    Redis × Option Reply :=
  Remote.perform command.serve redis attempts.toList

structure RedisReplies where
  seen : Attempts
  state : Attempts
  latest : Attempts
  deriving DecidableEq

structure Recorded where
  redis : Redis
  ok : Bool
  duplicate : Bool

def seenKey (messageId : Text) : Text :=
  "seen:".toList ++ messageId

def deviceKey (macHex : Text) (field : String) : Text :=
  "device:".toList ++ macHex ++ ':' :: field.toList

section Commands

variable (config : RedisStateCacheConfig) (message : EdgeDataMessage)

def seenCommand : RedisCommand :=
  setNxCommand (seenKey message.messageId) (Text.toBytes "1".toList) config.seenTtlSeconds

def stateCommand : RedisCommand :=
  setCommand (deviceKey message.macHex "state") (Text.toBytes "online".toList)
    config.deviceStateTtlSeconds

def latestCommand (serialized : Bytes) : RedisCommand :=
  setCommand (deviceKey message.macHex "latest") serialized config.deviceLatestTtlSeconds

end Commands

def recordDevice (config : RedisStateCacheConfig) (redis : Redis) (message : EdgeDataMessage)
    (serialized : Bytes) (replies : RedisReplies) : Recorded :=
  let state := executeLocked redis (stateCommand config message) replies.state
  if state.2.isNone then { redis := state.1, ok := false, duplicate := false }
  else
    let latest := executeLocked state.1 (latestCommand config message serialized) replies.latest
    { redis := latest.1, ok := latest.2.isSome, duplicate := false }

/-- Mark a message as seen and store the state of its device, unless it is a duplicate. -/
def recordEdgeMessage (config : RedisStateCacheConfig) (redis : Redis)
    (message : EdgeDataMessage) (serialized : Bytes) (replies : RedisReplies) : Recorded :=
  if !config.enabled then { redis, ok := true, duplicate := false }
  else if message.messageId.isEmpty then recordDevice config redis message serialized replies
  else
    let seen := executeLocked redis (seenCommand config message) replies.seen
    match seen.2 with
    | none => { redis := seen.1, ok := false, duplicate := false }
    | some reply =>
      if reply.nil then { redis := seen.1, ok := true, duplicate := true }
      else recordDevice config seen.1 message serialized replies

namespace RedisCommand

theorem serve_idempotent (command : RedisCommand) (redis : Redis) :
    (command.serve (command.serve redis).1).1 = (command.serve redis).1 := by
  unfold serve
  split
  · rfl
  · split
    · rfl
    · exact Function.update_idem _ _ _

theorem serve_frame (command : RedisCommand) (redis : Redis) {key : Text}
    (other : key ≠ command.key) : (command.serve redis).1 key = redis key := by
  unfold serve
  split
  · rfl
  · exact Function.update_of_ne other _ _

end RedisCommand

section Execute

variable (redis : Redis) (attempts : Attempts)

theorem executeLocked_server (command : RedisCommand) :
    (executeLocked redis command attempts).1 =
      if Remote.executes attempts.toList then (command.serve redis).1 else redis :=
  Remote.perform_server command.serve_idempotent redis attempts.toList

theorem executeLocked_frame (command : RedisCommand) {key : Text} (other : key ≠ command.key) :
    (executeLocked redis command attempts).1 key = redis key := by
  rw [executeLocked_server]
  split
  · exact command.serve_frame redis other
  · rfl

theorem executeLocked_isSome (command : RedisCommand) :
    (executeLocked redis command attempts).2.isSome = Remote.delivers attempts.toList := by
  rw [executeLocked, Remote.perform_answer command.serve_idempotent]
  cases Remote.delivers attempts.toList <;> rfl

theorem executeLocked_setNx_key (key : Text) (value : Bytes) (ttlSeconds : ℕ) :
    (executeLocked redis (setNxCommand key value ttlSeconds) attempts).1 key =
      if redis key = none ∧ Remote.executes attempts.toList = true then some ⟨value, ttlSeconds⟩
      else redis key := by
  rw [executeLocked_server]
  cases present : redis key with
  | none =>
    by_cases executed : Remote.executes attempts.toList = true <;>
      simp [executed, setNxCommand, RedisCommand.serve, present]
  | some entry =>
    by_cases executed : Remote.executes attempts.toList = true <;>
      simp [executed, setNxCommand, RedisCommand.serve, present]

theorem executeLocked_setNx_reply (key : Text) (value : Bytes) (ttlSeconds : ℕ) :
    (executeLocked redis (setNxCommand key value ttlSeconds) attempts).2 =
      if Remote.delivers attempts.toList then
        some ⟨(redis key).isSome || Remote.repeats attempts.toList⟩
      else none := by
  have closed := Remote.perform_answer (setNxCommand key value ttlSeconds).serve_idempotent redis
    attempts.toList
  rw [executeLocked, closed]
  congr 2
  cases present : redis key with
  | none =>
    by_cases again : Remote.repeats attempts.toList = true <;>
      simp [again, setNxCommand, RedisCommand.serve, present]
  | some entry =>
    simp [setNxCommand, RedisCommand.serve, present]

end Execute

section Record

variable (config : RedisStateCacheConfig) (redis : Redis) (message : EdgeDataMessage)
  (serialized : Bytes) (replies : RedisReplies)

theorem seenKey_injective : Function.Injective seenKey := by
  intro left right same
  exact List.append_cancel_left same

theorem seenKey_ne_deviceKey (messageId macHex : Text) (field : String) :
    seenKey messageId ≠ deviceKey macHex field := by
  intro same
  exact absurd (List.head_eq_of_cons_eq same) (by decide)

theorem recordDevice_duplicate :
    (recordDevice config redis message serialized replies).duplicate = false := by
  simp only [recordDevice]
  split <;> rfl

theorem recordDevice_ok (state : Remote.delivers replies.state.toList = true)
    (latest : Remote.delivers replies.latest.toList = true) :
    (recordDevice config redis message serialized replies).ok = true := by
  have stateDone := executeLocked_isSome redis replies.state (stateCommand config message)
  simp only [recordDevice]
  split
  · next failed => simp [Option.isNone_iff_eq_none.mp failed, state] at stateDone
  · rw [executeLocked_isSome, latest]

theorem recordDevice_seen (messageId : Text) :
    (recordDevice config redis message serialized replies).redis (seenKey messageId) =
      redis (seenKey messageId) := by
  have stateKept := executeLocked_frame redis replies.state (stateCommand config message)
    (seenKey_ne_deviceKey messageId message.macHex "state")
  simp only [recordDevice]
  split
  · exact stateKept
  · exact (executeLocked_frame _ replies.latest (latestCommand config message serialized)
      (seenKey_ne_deviceKey messageId message.macHex "latest")).trans stateKept

/-- The call runs its conditional set on a key that does not exist: it is the one that marks the
message as seen. -/
def Marks : Prop :=
  config.enabled = true ∧ message.messageId ≠ [] ∧ redis (seenKey message.messageId) = none ∧
    Remote.executes replies.seen.toList = true

instance : Decidable (Marks config redis message replies) := by
  unfold Marks
  infer_instance

theorem recordEdgeMessage_duplicate_iff :
    (recordEdgeMessage config redis message serialized replies).duplicate = true ↔
      config.enabled = true ∧ message.messageId ≠ [] ∧
        Remote.delivers replies.seen.toList = true ∧
        ((redis (seenKey message.messageId)).isSome = true ∨
          Remote.repeats replies.seen.toList = true) := by
  have reply := executeLocked_setNx_reply redis replies.seen (seenKey message.messageId)
    (Text.toBytes "1".toList) config.seenTtlSeconds
  simp only [recordEdgeMessage, seenCommand, reply, List.isEmpty_iff]
  by_cases enabled : config.enabled = true
  · by_cases noId : message.messageId = []
    · simp [enabled, noId, recordDevice_duplicate]
    · by_cases delivered : Remote.delivers replies.seen.toList = true
      · simp only [enabled, noId, delivered, if_true, if_false, Bool.not_true,
          Bool.false_eq_true, Bool.or_eq_true, ne_eq, not_false_eq_true, true_and]
        split
        · next known => simp [known]
        · next unknown => simp [unknown, recordDevice_duplicate]
      · simp [enabled, noId, delivered]
  · simp [enabled]

theorem recordEdgeMessage_seen {messageId : Text}
    (present : (recordEdgeMessage config redis message serialized replies).redis
      (seenKey messageId) ≠ none) :
    redis (seenKey messageId) ≠ none ∨
      (Marks config redis message replies ∧ messageId = message.messageId) := by
  by_cases enabled : config.enabled = true
  · by_cases noId : message.messageId = []
    · left
      simpa [recordEdgeMessage, enabled, noId, recordDevice_seen] using present
    · have afterClaim : (executeLocked redis (seenCommand config message) replies.seen).1
          (seenKey messageId) ≠ none := by
        simp only [recordEdgeMessage, enabled, noId, List.isEmpty_iff, if_false, Bool.not_true,
          Bool.false_eq_true] at present
        split at present
        · exact present
        · split at present
          · exact present
          · rwa [recordDevice_seen] at present
      by_cases own : messageId = message.messageId
      · subst own
        rw [seenCommand, executeLocked_setNx_key] at afterClaim
        split at afterClaim
        · next marks => exact .inr ⟨⟨enabled, noId, marks⟩, rfl⟩
        · exact .inl afterClaim
      · left
        rwa [executeLocked_frame] at afterClaim
        exact fun same => own (seenKey_injective same)
  · left
    simpa [recordEdgeMessage, enabled] using present

theorem recordEdgeMessage_of_marks (marks : Marks config redis message replies)
    (seen : Remote.delivers replies.seen.toList = true)
    (notRepeated : Remote.repeats replies.seen.toList = false)
    (state : Remote.delivers replies.state.toList = true)
    (latest : Remote.delivers replies.latest.toList = true) :
    (recordEdgeMessage config redis message serialized replies).ok = true ∧
      (recordEdgeMessage config redis message serialized replies).duplicate = false := by
  rcases marks with ⟨enabled, hasId, absent, _⟩
  have reply := executeLocked_setNx_reply redis replies.seen (seenKey message.messageId)
    (Text.toBytes "1".toList) config.seenTtlSeconds
  rw [seen, if_pos rfl, absent, notRepeated] at reply
  simp only [recordEdgeMessage, seenCommand, reply, List.isEmpty_iff, enabled, hasId]
  exact ⟨recordDevice_ok config _ message serialized replies state latest,
    recordDevice_duplicate ..⟩

end Record

end IotProxy.Proxy
