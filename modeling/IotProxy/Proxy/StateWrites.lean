import IotProxy.Lib.Run
import IotProxy.Proxy.RedisStateCache

/-!
# What a duplicate stands for

A history of `record_edge_message` calls for messages with an id, against one Redis whose keys do
not expire. The history has the ids for which a call has run both `SET` commands and those reported
as duplicates.

The key that marks a message is set before the two commands run. As long as each call that sets a
mark goes on to run both commands, a mark stands for a written state (`CacheHistory.MarksWritten`).
-/

namespace IotProxy.Proxy

open Remote Function
open EventSystem (Run)

structure RecordCall where
  message : EdgeDataMessage
  serialized : Bytes
  replies : RedisReplies
  hasId : message.messageId ≠ []

/-- The server runs both `SET` commands of the call. -/
def RecordCall.writes (config : RedisStateCacheConfig) (redis : Redis) (call : RecordCall) : Bool :=
  config.enabled &&
    (executeLocked redis (seenCommand config call.message) call.replies.seen).2 == some ⟨false⟩ &&
    Remote.delivers call.replies.state.toList && Remote.executes call.replies.latest.toList

structure CacheHistory where
  redis : Redis := fun _ => none
  written : List Text := []
  duplicates : List Text := []

namespace CacheHistory

variable (config : RedisStateCacheConfig) (history : CacheHistory)

def record (call : RecordCall) : CacheHistory :=
  let recorded :=
    recordEdgeMessage config history.redis call.message call.serialized call.replies
  { redis := recorded.redis
    written :=
      if call.writes config history.redis then call.message.messageId :: history.written
      else history.written
    duplicates :=
      if recorded.duplicate then call.message.messageId :: history.duplicates
      else history.duplicates }

def step (call : RecordCall) : Option CacheHistory :=
  some (history.record config call)

/-- A call that sets the mark of its message gets the reply to the command that set it, and then
both `SET` commands run. -/
def MarkFollowed (call : RecordCall) : Prop :=
  Marks config history.redis call.message call.replies →
    Remote.delivers call.replies.seen.toList = true ∧
    Remote.repeats call.replies.seen.toList = false ∧
    Remote.delivers call.replies.state.toList = true ∧
    Remote.executes call.replies.latest.toList = true

instance (call : RecordCall) : Decidable (MarkFollowed config history call) := by
  unfold MarkFollowed
  infer_instance

def MarksWritten : Prop :=
  ∀ messageId, history.redis (seenKey messageId) ≠ none → messageId ∈ history.written

end CacheHistory

section Writes

variable {config : RedisStateCacheConfig} {redis : Redis} {call : RecordCall}

theorem executeLocked_set {attempts : Attempts} (executed : executes attempts.toList = true)
    (key : Text) (value : Bytes) (ttlSeconds : ℕ) :
    (executeLocked redis (setCommand key value ttlSeconds) attempts).1 =
      update redis key (some ⟨value, ttlSeconds⟩) := by
  rw [executeLocked_server, if_pos executed]
  rfl

/-- After such a call the server has the state and the message of the device. -/
theorem RecordCall.redis_of_writes (writes : call.writes config redis = true) :
    let after := (recordEdgeMessage config redis call.message call.serialized call.replies).redis
    after (deviceKey call.message.macHex "state") =
      some ⟨Text.toBytes "online".toList, config.deviceStateTtlSeconds⟩ ∧
    after (deviceKey call.message.macHex "latest") =
      some ⟨call.serialized, config.deviceLatestTtlSeconds⟩ := by
  have otherKey : deviceKey call.message.macHex "state" ≠ deviceKey call.message.macHex "latest" := by
    intro same
    exact absurd (List.append_cancel_left same) (by decide)
  have hasId : call.message.messageId.isEmpty = false := List.isEmpty_eq_false_iff.mpr call.hasId
  rw [RecordCall.writes, Bool.and_eq_true, Bool.and_eq_true, Bool.and_eq_true, beq_iff_eq] at writes
  rcases writes with ⟨⟨⟨enabled, claimed⟩, stateDelivered⟩, latestExecuted⟩
  have answered (server : Redis) :
      (executeLocked server (stateCommand config call.message) call.replies.state).2.isNone =
        false := by
    rw [Option.isNone_eq_false_iff, executeLocked_isSome, stateDelivered]
  have device : recordEdgeMessage config redis call.message call.serialized call.replies =
      recordDevice config (executeLocked redis (seenCommand config call.message)
        call.replies.seen).1 call.message call.serialized call.replies := by
    simp [recordEdgeMessage, enabled, hasId, claimed]
  simp only [device, recordDevice, answered, Bool.false_eq_true, if_false]
  simp only [latestCommand, stateCommand, executeLocked_set latestExecuted,
    executeLocked_set (executes_of_delivers stateDelivered)]
  exact ⟨by rw [update_of_ne otherKey, update_self], update_self ..⟩

theorem RecordCall.writes_of_marks (marks : Marks config redis call.message call.replies)
    (seen : delivers call.replies.seen.toList = true)
    (notRepeated : repeats call.replies.seen.toList = false)
    (state : delivers call.replies.state.toList = true)
    (latest : executes call.replies.latest.toList = true) :
    call.writes config redis = true := by
  rcases marks with ⟨enabled, -, absent, -⟩
  have reply : (executeLocked redis (seenCommand config call.message) call.replies.seen).2 =
      some ⟨false⟩ := by
    rw [seenCommand, executeLocked_setNx_reply, if_pos seen, absent, notRepeated]
    rfl
  rw [RecordCall.writes, enabled, reply, state, latest]
  rfl

end Writes

namespace CacheHistory

variable {config : RedisStateCacheConfig} {history : CacheHistory} {call : RecordCall}

theorem written_subset_record : history.written ⊆ (history.record config call).written := by
  intro messageId mem
  simp only [record]
  split
  · exact List.mem_cons_of_mem _ mem
  · exact mem

theorem mem_written_of_marks (followed : MarkFollowed config history call)
    (marks : Marks config history.redis call.message call.replies) :
    call.message.messageId ∈ (history.record config call).written := by
  rcases followed marks with ⟨seen, notRepeated, state, latest⟩
  simp only [record, RecordCall.writes_of_marks marks seen notRepeated state latest, if_true]
  exact List.mem_cons_self

theorem MarksWritten.record (kept : history.MarksWritten)
    (followed : MarkFollowed config history call) : (history.record config call).MarksWritten := by
  intro messageId present
  rcases recordEdgeMessage_seen config history.redis call.message call.serialized call.replies
    present with before | ⟨marks, rfl⟩
  · exact written_subset_record (kept messageId before)
  · exact mem_written_of_marks followed marks

theorem mem_written_of_duplicate (kept : history.MarksWritten)
    (followed : MarkFollowed config history call)
    (duplicate : (recordEdgeMessage config history.redis call.message call.serialized
      call.replies).duplicate = true) :
    call.message.messageId ∈ (history.record config call).written := by
  rcases (recordEdgeMessage_duplicate_iff ..).mp duplicate with ⟨enabled, hasId, delivered, -⟩
  by_cases absent : history.redis (seenKey call.message.messageId) = none
  · exact mem_written_of_marks followed
      ⟨enabled, hasId, absent, executes_of_delivers delivered⟩
  · exact written_subset_record (kept _ absent)

/-- When every call that sets a mark goes on to run both commands, then at any time every id that
was reported as a duplicate has been written. -/
theorem duplicates_subset_written {calls : List RecordCall} {finish : CacheHistory}
    (run : Run (step config) (MarkFollowed config) {} calls finish) :
    finish.duplicates ⊆ finish.written := by
  have kept : finish.MarksWritten ∧ finish.duplicates ⊆ finish.written := by
    refine @Run.invariant _ _ _ _ _ _ _ (fun history : CacheHistory =>
      history.MarksWritten ∧ history.duplicates ⊆ history.written) ?_ ?_ run
    · exact ⟨fun _ present => absurd rfl present, List.nil_subset _⟩
    · rintro before after call followed taken ⟨marks, reported⟩
      cases taken
      refine ⟨marks.record followed, ?_⟩
      have earlier := List.Subset.trans reported (@written_subset_record config before call)
      intro messageId mem
      simp only [CacheHistory.record] at mem
      split at mem
      · next duplicate =>
          rcases List.mem_cons.mp mem with rfl | mem
          · exact mem_written_of_duplicate marks followed duplicate
          · exact earlier mem
      · exact earlier mem
  exact kept.2

section Histories

def localCache : RedisStateCacheConfig where
  endpoint := { host := "127.0.0.1".toList, port := 6379 }

def recordCall (seen latest : Attempts) : RecordCall where
  message := { macHex := "aabbccddeeff".toList, macAddr := "aa:bb:cc:dd:ee:ff".toList
               payloadBase64 := [], messageId := "7".toList }
  serialized := []
  replies := { seen, state := ⟨.answered, .answered⟩, latest }
  hasId := by decide

/-- The last reply of the call is lost. -/
theorem lost_reply_recorded :
    let call := recordCall ⟨.answered, .answered⟩ ⟨.lost true, .unreachable⟩
    (recordEdgeMessage localCache (fun _ => none) call.message call.serialized call.replies).redis
      (deviceKey call.message.macHex "latest") = some ⟨call.serialized, 86400⟩ :=
  (@RecordCall.redis_of_writes localCache _ _ (by decide +kernel)).2

/-- A message that is recorded and comes again. -/
theorem repeated_call_written :
    ∃ finish, Run (step localCache) (MarkFollowed localCache) {}
        [recordCall ⟨.answered, .answered⟩ ⟨.answered, .answered⟩,
          recordCall ⟨.lost true, .answered⟩ ⟨.answered, .answered⟩] finish ∧
      finish.duplicates.length = 1 ∧ finish.duplicates ⊆ finish.written := by
  refine Run.exists_of_execute (fun finish : CacheHistory => finish.duplicates.length == 1)
    (by decide +kernel) ?_
  intro finish run reported
  exact ⟨beq_iff_eq.mp reported, duplicates_subset_written run⟩

/-- Without the condition: the connection breaks before the last command of the first call, or the
reply to the mark of the only call is lost. Nothing is written, and a duplicate is reported. -/
theorem duplicate_not_written :
    (∃ finish, Run (step localCache) (fun _ _ => True) {}
        [recordCall ⟨.answered, .answered⟩ ⟨.lost false, .unreachable⟩,
          recordCall ⟨.answered, .answered⟩ ⟨.answered, .answered⟩] finish ∧
      finish.duplicates = ["7".toList] ∧ finish.written = []) ∧
    ∃ finish, Run (step localCache) (fun _ _ => True) {}
        [recordCall ⟨.lost true, .answered⟩ ⟨.answered, .answered⟩] finish ∧
      finish.duplicates = ["7".toList] ∧ finish.written = [] := by
  have facts (finish : CacheHistory)
      (holds : (finish.duplicates == ["7".toList] && finish.written == []) = true) :
      finish.duplicates = ["7".toList] ∧ finish.written = [] := by
    rw [Bool.and_eq_true, beq_iff_eq, beq_iff_eq] at holds
    exact holds
  constructor
  · exact Run.exists_of_execute _ (by decide +kernel) fun finish _ => facts finish
  · exact Run.exists_of_execute _ (by decide +kernel) fun finish _ => facts finish

end Histories

end CacheHistory

end IotProxy.Proxy
