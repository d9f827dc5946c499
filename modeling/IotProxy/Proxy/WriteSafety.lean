import IotProxy.Lib.Run
import IotProxy.Proxy.EdgeDataPipeline

/-!
# Messages reported as written

A history of `write_edge_data` calls against one Redis, in which keys may expire at any time.

The mark of a message in Redis is set before the message is produced, and a call that finds a mark
reports success without producing.
-/

namespace IotProxy.Proxy

open EventSystem (Run)

structure PipelineState where
  redis : Redis := fun _ => none
  accepted : List Text := []
  reported : List Text := []

inductive PipelineEvent where
  | write (call : WriteCall)
  | expire (key : Text)

namespace WriteCall

def messageId (call : WriteCall) : Text :=
  convidToHex call.metadata.messageId

def isTracked (call : WriteCall) : Bool :=
  !call.payload.isEmpty && call.metadata.valid

end WriteCall

def SinkReplies.accepts (replies : SinkReplies) : Bool :=
  replies.started && (replies.first == .noError ||
    (replies.first == .queueFull && replies.second == .noError))

namespace PipelineState

def write (config : EdgeDataPipelineConfig) (state : PipelineState) (call : WriteCall) :
    PipelineState :=
  let written := writeEdgeData config state.redis call
  { redis := written.redis
    accepted :=
      if call.isTracked && written.produced.any Produced.isAccepted then
        call.messageId :: state.accepted
      else state.accepted
    reported :=
      if call.isTracked && written.returned then call.messageId :: state.reported
      else state.reported }

def step (config : EdgeDataPipelineConfig) (state : PipelineState) :
    PipelineEvent → Option PipelineState
  | .write call => some (state.write config call)
  | .expire key =>
    match state.redis key with
    | none => none
    | some entry =>
      if entry.ttlSeconds = 0 then none
      else some { state with redis := Function.update state.redis key none }

/-- A call that sets the mark of its message gets the answer to the command that set it, if it
gets one at all, and the producer accepts the message. -/
def MarkHonoured (state : PipelineState) : PipelineEvent → Prop
  | .expire _ => True
  | .write call =>
    call.metadata.valid = true → (decodeEdgeDataFrame call.payload).isSome = true →
      state.redis (seenKey call.messageId) = none →
      Remote.executes call.redis.seen.toList = true →
        Remote.repeats call.redis.seen.toList = false ∧ call.kafka.accepts = true

instance (state : PipelineState) (event : PipelineEvent) :
    Decidable (state.MarkHonoured event) := by
  cases event <;> unfold MarkHonoured <;> infer_instance

def MarksKept (state : PipelineState) : Prop :=
  ∀ messageId, state.redis (seenKey messageId) ≠ none → messageId ∈ state.accepted

def ReportsKept (state : PipelineState) : Prop :=
  ∀ messageId ∈ state.reported, messageId ∈ state.accepted

structure Faithful (state : PipelineState) : Prop where
  marks : state.MarksKept
  reports : state.ReportsKept

theorem faithful_initial : Faithful {} where
  marks _ present := absurd rfl present
  reports _ reported := absurd reported List.not_mem_nil

end PipelineState

theorem produce_isAccepted_of_accepts {config : KafkaSinkConfig} {key : Text} {value : Bytes}
    {replies : SinkReplies} (enabled : config.enabled = true) (accepts : replies.accepts = true) :
    (produce config key value replies).isAccepted = true := by
  rcases replies with ⟨started, first, second⟩
  cases started <;> cases first <;> cases second <;>
    simp_all [SinkReplies.accepts, produce, Produced.isAccepted]

section Message

variable {frame : Bytes} {metadata : BroadcastMetadata} {message : EdgeDataMessage}
  (made : makeEdgeDataMessage nowMs streamId frame metadata = some message)
include made

theorem isSome_decode_of_makeEdgeDataMessage : (decodeEdgeDataFrame frame).isSome = true := by
  unfold makeEdgeDataMessage at made
  split at made
  · cases made
  · next decoded => rw [decoded]; rfl

theorem messageId_of_makeEdgeDataMessage :
    message.messageId = if metadata.valid then convidToHex metadata.messageId else [] := by
  unfold makeEdgeDataMessage at made
  split at made
  · cases made
  · cases made
    rfl

end Message

namespace PipelineState

variable {config : EdgeDataPipelineConfig} {state : PipelineState} {call : WriteCall}

theorem write_of_not_made
    (notMade : call.payload = [] ∨
      makeEdgeDataMessage call.nowMs call.streamId call.payload call.metadata = none) :
    state.write config call = state := by
  by_cases isEmpty : call.payload = []
  · simp [write, writeEdgeData, WriteCall.isTracked, isEmpty]
  · have notMade := notMade.resolve_left isEmpty
    simp [write, writeEdgeData, isEmpty, notMade]

theorem write_of_made {message : EdgeDataMessage} (notEmpty : call.payload ≠ [])
    (made : makeEdgeDataMessage call.nowMs call.streamId call.payload call.metadata =
      some message) :
    let serialized := serializeEdgeDataMessageJson message
    let recorded := recordEdgeMessage config.redis state.redis message serialized call.redis
    let produced := produce config.kafka message.macHex serialized call.kafka
    state.write config call =
      { redis := recorded.redis
        accepted :=
          if call.metadata.valid && (!recorded.duplicate && produced.isAccepted) then
            call.messageId :: state.accepted
          else state.accepted
        reported :=
          if call.metadata.valid && (recorded.duplicate || produced.returned) then
            call.messageId :: state.reported
          else state.reported } := by
  intro serialized recorded produced
  cases duplicate : recorded.duplicate <;>
    simp [write, writeEdgeData, WriteCall.isTracked, notEmpty, made, duplicate, serialized,
      recorded, produced]

theorem accepted_subset_write : state.accepted ⊆ (state.write config call).accepted := by
  intro messageId accepted
  simp only [write]
  split
  · exact List.mem_cons_of_mem _ accepted
  · exact accepted

section Honoured

variable {message : EdgeDataMessage} (honoured : state.MarkHonoured (.write call))
  (made : makeEdgeDataMessage call.nowMs call.streamId call.payload call.metadata = some message)
include honoured made

theorem honoured_of_marks (marks : Marks config.redis state.redis message call.redis) :
    call.metadata.valid = true ∧ message.messageId = call.messageId ∧
      Remote.repeats call.redis.seen.toList = false ∧ call.kafka.accepts = true := by
  rcases marks with ⟨_, hasId, absent, executed⟩
  have sameId := messageId_of_makeEdgeDataMessage made
  have valid : call.metadata.valid = true := by
    by_contra invalid
    simp [invalid] at sameId
    exact hasId sameId
  rw [valid, if_pos rfl] at sameId
  rw [sameId] at absent
  exact ⟨valid, sameId, honoured valid (isSome_decode_of_makeEdgeDataMessage made) absent executed⟩

theorem mem_accepted_of_duplicate (kept : state.MarksKept) (valid : call.metadata.valid = true)
    {serialized : Bytes}
    (duplicate : (recordEdgeMessage config.redis state.redis message serialized
      call.redis).duplicate = true) :
    call.messageId ∈ state.accepted := by
  rcases (recordEdgeMessage_duplicate_iff ..).mp duplicate with
    ⟨enabled, hasId, delivered, known⟩
  have sameId := messageId_of_makeEdgeDataMessage made
  rw [valid, if_pos rfl] at sameId
  by_cases absent : state.redis (seenKey message.messageId) = none
  · -- then the call would have to answer to its own mark
    have marks : Marks config.redis state.redis message call.redis :=
      ⟨enabled, hasId, absent, Remote.executes_of_delivers delivered⟩
    have noRepeat := (honoured_of_marks honoured made marks).2.2.1
    simp [absent, noRepeat] at known
  · rw [sameId] at absent
    exact kept call.messageId absent

end Honoured

variable (kafkaEnabled : config.kafka.enabled = true)
  (honoured : state.MarkHonoured (.write call)) (kept : state.MarksKept)
include kafkaEnabled honoured kept

theorem write_marksKept : (state.write config call).MarksKept := by
  by_cases isEmpty : call.payload = []
  · rwa [write_of_not_made (.inl isEmpty)]
  · cases made : makeEdgeDataMessage call.nowMs call.streamId call.payload call.metadata with
    | none => rwa [write_of_not_made (.inr made)]
    | some message =>
      intro messageId present
      rw [write_of_made isEmpty made] at present
      rcases recordEdgeMessage_seen _ _ _ _ _ present with before | ⟨marks, same⟩
      · exact accepted_subset_write (kept messageId before)
      · rcases honoured_of_marks honoured made marks with ⟨valid, sameId, noRepeat, accepts⟩
        rw [same, sameId]
        by_cases duplicate : (recordEdgeMessage config.redis state.redis message
            (serializeEdgeDataMessageJson message) call.redis).duplicate = true
        · exact accepted_subset_write
            (mem_accepted_of_duplicate honoured made kept valid duplicate)
        · rw [write_of_made isEmpty made]
          simp [valid, duplicate, produce_isAccepted_of_accepts kafkaEnabled accepts]

theorem write_reportsKept (reports : state.ReportsKept) :
    (state.write config call).ReportsKept := by
  by_cases isEmpty : call.payload = []
  · rwa [write_of_not_made (.inl isEmpty)]
  · cases made : makeEdgeDataMessage call.nowMs call.streamId call.payload call.metadata with
    | none => rwa [write_of_not_made (.inr made)]
    | some message =>
      intro messageId reported
      by_cases earlier : messageId ∈ state.reported
      · exact accepted_subset_write (reports messageId earlier)
      · -- reported by this call: as a duplicate, or because the producer returned success
        rw [write_of_made isEmpty made] at reported ⊢
        simp only at reported ⊢
        split at reported
        · next returned =>
            rw [Bool.and_eq_true, Bool.or_eq_true] at returned
            have same := (List.mem_cons.mp reported).resolve_right earlier
            subst same
            by_cases duplicate : (recordEdgeMessage config.redis state.redis message
                (serializeEdgeDataMessageJson message) call.redis).duplicate = true
            · simp [duplicate, mem_accepted_of_duplicate honoured made kept returned.1 duplicate]
            · have accepted := produce_isAccepted_of_returned kafkaEnabled
                (returned.2.resolve_left duplicate)
              simp [returned.1, duplicate, accepted]
        · exact absurd reported earlier

end PipelineState

section Runs

variable {config : EdgeDataPipelineConfig}

theorem PipelineState.expire_faithful {state after : PipelineState} {key : Text}
    (taken : state.step config (.expire key) = some after) (faithful : state.Faithful) :
    after.Faithful := by
  simp only [step] at taken
  split at taken
  · cases taken
  · split at taken
    · cases taken
    · cases taken
      refine ⟨?_, faithful.reports⟩
      intro messageId present
      apply faithful.marks messageId
      by_cases same : seenKey messageId = key
      · simp [same] at present
      · simpa [Function.update_of_ne same] using present

/-- When every call that sets a mark has its message accepted and does not answer to its own
mark, every id that was reported as written was accepted by the producer. -/
theorem reported_subset_accepted (kafkaEnabled : config.kafka.enabled = true)
    {events : List PipelineEvent} {finish : PipelineState}
    (run : Run (PipelineState.step config) PipelineState.MarkHonoured {} events finish) :
    finish.reported ⊆ finish.accepted := by
  have faithful : finish.Faithful := by
    refine run.invariant PipelineState.faithful_initial ?_
    intro before after event honoured taken earlier
    cases event with
    | expire key => exact PipelineState.expire_faithful taken earlier
    | write call =>
      cases taken
      exact ⟨PipelineState.write_marksKept kafkaEnabled honoured earlier.marks,
        PipelineState.write_reportsKept kafkaEnabled honoured earlier.marks earlier.reports⟩
  exact faithful.reports

end Runs

section LostReply

def localPipeline : EdgeDataPipelineConfig where
  redis := { endpoint := { host := "127.0.0.1".toList, port := 6379 } }
  kafka := { brokers := "127.0.0.1:9092".toList, topic := "edge".toList }

/-- A frame of the device `00:00:00:00:00:00` without payload, under the message id 1. -/
def emptyFrameCall (seen : Attempts) : WriteCall where
  streamId := 1
  payload := List.replicate 18 0
  metadata := { valid := true, origin := KcpConv.ofUint32 1, messageId := KcpConv.ofUint32 1 }
  nowMs := 0
  redis := { seen, state := ⟨.answered, .answered⟩, latest := ⟨.answered, .answered⟩ }
  kafka := { started := true, first := .noError, second := .noError }

/-- A call that is answered at once and a repetition of it whose first attempt is lost: the id
is reported twice and was accepted. -/
theorem repeated_write_accepted :
    ∃ finish, Run (PipelineState.step localPipeline) PipelineState.MarkHonoured {}
        [.write (emptyFrameCall ⟨.answered, .answered⟩),
          .write (emptyFrameCall ⟨.lost true, .answered⟩)] finish ∧
      finish.reported.length = 2 ∧ finish.reported ⊆ finish.accepted := by
  refine Run.exists_of_execute (fun finish : PipelineState => finish.reported.length == 2)
    (by decide +kernel) ?_
  intro finish run reported
  exact ⟨beq_iff_eq.mp reported, reported_subset_accepted (by decide) run⟩

/-- The answer to the first conditional set is lost and the resent one finds the key: the only
call of the history reports its message as written, and the producer has never seen it. -/
theorem resent_mark_hides_message :
    localPipeline.redis.enabled = true ∧ localPipeline.kafka.enabled = true ∧
    ∃ finish, Run (PipelineState.step localPipeline) (fun _ _ => True) {}
        [.write (emptyFrameCall ⟨.lost true, .answered⟩)] finish ∧
      (emptyFrameCall ⟨.lost true, .answered⟩).messageId ∈ finish.reported ∧
      finish.accepted = [] := by
  refine ⟨by decide, by decide, ?_⟩
  refine Run.exists_of_execute (fun finish : PipelineState =>
    decide ((emptyFrameCall ⟨.lost true, .answered⟩).messageId ∈ finish.reported)
      && finish.accepted == []) (by decide +kernel) ?_
  intro finish _ facts
  rw [Bool.and_eq_true, decide_eq_true_eq, beq_iff_eq] at facts
  exact facts

end LostReply

end IotProxy.Proxy
