import IotProxy.Proxy.EdgeDataPipeline
import IotProxy.Proxy.KafkaBroadcastSource
import IotProxy.Proxy.KcpTunnel

/-!
# Committed Kafka messages were broadcast

The sender that the runtime installs in the Kafka broadcast source records a message in Redis and
broadcasts it to the KCP peers, unless Redis knows it as a duplicate. Its result is the number of
peers, and 1 for a duplicate, so a duplicate is committed without being broadcast.

That is right only if a mark in Redis stands for a delivery of the same record that has reached a
peer. Redis is shared: `write_edge_data` and the frames of other nodes set the same marks.
-/

namespace IotProxy.Proxy

open EventSystem (Run)

/-- What the environment contributes to one call of the sender: the time, the keys of Redis that
other calls and processes have changed since the last call or that have expired, the answers of
Redis, and the tunnel with its answers. -/
structure KafkaAnswers where
  nowMs : ℤ := 0
  others : List (Text × Option RedisEntry) := []
  redis : RedisReplies
  tunnel : KcpTunnel
  kcp : TunnelAnswers

/-- What a call of the sender has done. The code does not compute `marked`: the call was the one that
marked its message as seen. -/
structure KafkaReport where
  result : ℕ
  sentTo : List SentCopy
  marked : Bool := false
  deriving DecidableEq

def Redis.changedBy (redis : Redis) (others : List (Text × Option RedisEntry)) : Redis :=
  others.foldl (fun redis change => Function.update redis change.1 change.2) redis

section Sender

variable (parse : Bytes → Option Json) (config : EdgeDataPipelineConfig)
  (tunnelConfig : KcpTunnelConfig)

def runtimeSender : Sender Redis KafkaAnswers KafkaReport where
  send redis answers payload :=
    let found := redis.changedBy answers.others
    let recorded := recordKafkaMessage config found parse answers.nowMs payload {} answers.redis
    let marked := (parseEdgeKafkaMessageJson parse answers.nowMs payload {}).any fun message =>
      Marks config.redis found message answers.redis
    if !recorded.ok then (recorded.redis, { result := 0, sentTo := [], marked })
    else if recorded.duplicate then (recorded.redis, { result := 1, sentTo := [], marked })
    else
      let sentTo := (answers.tunnel.broadcastFrame tunnelConfig answers.kcp .kafkaBroadcast 1
        payload none).2
      (recorded.redis, { result := sentTo.length, sentTo, marked })
  result := KafkaReport.result

end Sender

namespace Delivery

def Reached (delivery : Delivery KafkaReport) : Prop :=
  ∃ report ∈ delivery.report, report.sentTo ≠ []

def Marked (delivery : Delivery KafkaReport) : Prop :=
  ∃ report ∈ delivery.report, report.marked = true

instance (delivery : Delivery KafkaReport) : Decidable delivery.Reached := by
  unfold Reached
  infer_instance

instance (delivery : Delivery KafkaReport) : Decidable delivery.Marked := by
  unfold Marked
  infer_instance

end Delivery

def HandedOver (history : List (Delivery KafkaReport)) (partition offset : ℕ) : Prop :=
  ∃ delivery ∈ history, delivery.partition = partition ∧ delivery.offset = offset ∧
    delivery.Reached

instance (history : List (Delivery KafkaReport)) (partition offset : ℕ) :
    Decidable (HandedOver history partition offset) := by
  unfold HandedOver
  infer_instance

/-- Every message that was committed because the sender took it had been handed to a peer, in that
delivery or in an earlier one. -/
def CommittedHandedOver : List (Delivery KafkaReport) → Prop
  | [] => True
  | delivery :: earlier =>
    (delivery.committed = true → delivery.report.isSome = true →
      HandedOver (delivery :: earlier) delivery.partition delivery.offset) ∧
    CommittedHandedOver earlier

/-- A mark that a delivery finds was set by an earlier delivery of the same record, and a delivery
that marks its message as seen gets all its answers from Redis and reaches a peer, unless an earlier
delivery has reached one. -/
def MarksReach (parse : Bytes → Option Json) (config : EdgeDataPipelineConfig)
    (tunnelConfig : KcpTunnelConfig) (topic : BroadcastTopic)
    (state : SourceState Redis KafkaReport) : SourceEvent KafkaAnswers → Prop
  | .poll partition offset answers _ =>
    ∀ payload ∈ topic partition offset,
      ∀ message ∈ parseEdgeKafkaMessageJson parse answers.nowMs payload {},
        message.messageId ≠ [] →
        (state.sender.changedBy answers.others (seenKey message.messageId) ≠ none →
          ∃ delivery ∈ state.history, delivery.partition = partition ∧
            delivery.offset = offset ∧ delivery.Marked) ∧
        (Marks config.redis (state.sender.changedBy answers.others) message answers.redis →
          HandedOver state.history partition offset ∨
          (Remote.delivers answers.redis.seen.toList = true ∧
            Remote.repeats answers.redis.seen.toList = false ∧
            Remote.delivers answers.redis.state.toList = true ∧
            Remote.delivers answers.redis.latest.toList = true ∧
            KcpTunnel.Reaches tunnelConfig answers.tunnel answers.kcp payload))
  | _ => True

instance (parse : Bytes → Option Json) (config : EdgeDataPipelineConfig)
    (tunnelConfig : KcpTunnelConfig) (topic : BroadcastTopic)
    (state : SourceState Redis KafkaReport) (event : SourceEvent KafkaAnswers) :
    Decidable (MarksReach parse config tunnelConfig topic state event) := by
  cases event <;> unfold MarksReach <;> infer_instance

structure MarksKept (history : List (Delivery KafkaReport)) : Prop where
  marks : ∀ delivery ∈ history, delivery.Marked →
    HandedOver history delivery.partition delivery.offset
  committed : CommittedHandedOver history

section History

variable {history : List (Delivery KafkaReport)} {delivery : Delivery KafkaReport}

theorem HandedOver.cons {partition offset : ℕ} (handed : HandedOver history partition offset)
    (delivery : Delivery KafkaReport) : HandedOver (delivery :: history) partition offset := by
  rcases handed with ⟨earlier, mem, here⟩
  exact ⟨earlier, List.mem_cons_of_mem _ mem, here⟩

theorem MarksKept.cons (kept : MarksKept history)
    (marks : delivery.Marked →
      HandedOver (delivery :: history) delivery.partition delivery.offset)
    (handed : delivery.committed = true → delivery.report.isSome = true →
      HandedOver (delivery :: history) delivery.partition delivery.offset) :
    MarksKept (delivery :: history) where
  marks other mem marked := by
    rcases List.mem_cons.mp mem with rfl | earlier
    · exact marks marked
    · exact (kept.marks other earlier marked).cons delivery
  committed := ⟨handed, kept.committed⟩

end History

section Send

variable {parse : Bytes → Option Json} {config : EdgeDataPipelineConfig}
  {tunnelConfig : KcpTunnelConfig} {redis : Redis} {payload : Bytes} {answers : KafkaAnswers}

theorem send_of_not_parsed (notEmpty : payload ≠ [])
    (notParsed : parseEdgeKafkaMessageJson parse answers.nowMs payload {} = none) :
    (runtimeSender parse config tunnelConfig).send redis answers payload =
      (redis.changedBy answers.others, { result := 0, sentTo := [] }) := by
  simp [runtimeSender, recordKafkaMessage, notEmpty, notParsed]

theorem send_of_parsed {message : EdgeDataMessage} (notEmpty : payload ≠ [])
    (parsed : parseEdgeKafkaMessageJson parse answers.nowMs payload {} = some message) :
    let found := redis.changedBy answers.others
    let recorded := recordEdgeMessage config.redis found message payload answers.redis
    let marked := decide (Marks config.redis found message answers.redis)
    let sentTo := (answers.tunnel.broadcastFrame tunnelConfig answers.kcp .kafkaBroadcast 1
      payload none).2
    (runtimeSender parse config tunnelConfig).send redis answers payload =
      (recorded.redis,
        if !recorded.ok then { result := 0, sentTo := [], marked }
        else if recorded.duplicate then { result := 1, sentTo := [], marked }
        else { result := sentTo.length, sentTo, marked }) := by
  intro found recorded marked sentTo
  simp only [runtimeSender, recordKafkaMessage, List.isEmpty_iff, notEmpty, parsed, if_false,
    Option.any_some]
  split
  · rfl
  · split <;> rfl

end Send

section Step

variable {parse : Bytes → Option Json} {config : EdgeDataPipelineConfig}
  {tunnelConfig : KcpTunnelConfig} {topic : BroadcastTopic}
  {state : SourceState Redis KafkaReport} {partition offset : ℕ} {payload : Bytes}
  {answers : KafkaAnswers} {applied : Bool} {message : EdgeDataMessage}

section Parsed

variable (kept : MarksKept state.history)
  (reach : MarksReach parse config tunnelConfig topic state
    (.poll partition offset answers applied))
  (present : topic partition offset = some payload)
  (parsed : parseEdgeKafkaMessageJson parse answers.nowMs payload {} = some message)
include reach present parsed

theorem handedOver_or_sent_of_marks
    (marks : Marks config.redis (state.sender.changedBy answers.others) message answers.redis) :
    HandedOver state.history partition offset ∨
      ((recordEdgeMessage config.redis (state.sender.changedBy answers.others) message payload
          answers.redis).ok = true ∧
        (recordEdgeMessage config.redis (state.sender.changedBy answers.others) message payload
          answers.redis).duplicate = false ∧
        (answers.tunnel.broadcastFrame tunnelConfig answers.kcp .kafkaBroadcast 1 payload
          none).2 ≠ []) := by
  rcases (reach payload present message parsed marks.2.1).2 marks with
    handed | ⟨seen, notRepeated, stateDone, latestDone, reaches⟩
  · exact .inl handed
  · right
    have recorded := recordEdgeMessage_of_marks config.redis _ message payload answers.redis marks
      seen notRepeated stateDone latestDone
    exact ⟨recorded.1, recorded.2, KcpTunnel.broadcastFrame_ne_nil reaches rfl (by decide)⟩

include kept in
theorem handedOver_of_duplicate
    (duplicate : (recordEdgeMessage config.redis (state.sender.changedBy answers.others) message
      payload answers.redis).duplicate = true) :
    HandedOver state.history partition offset := by
  rcases (recordEdgeMessage_duplicate_iff ..).mp duplicate with ⟨enabled, hasId, delivered, known⟩
  by_cases absent : state.sender.changedBy answers.others (seenKey message.messageId) = none
  · have marks : Marks config.redis (state.sender.changedBy answers.others) message
        answers.redis := ⟨enabled, hasId, absent, Remote.executes_of_delivers delivered⟩
    rcases handedOver_or_sent_of_marks reach present parsed marks with handed | ⟨_, isNew, _⟩
    · exact handed
    · rw [duplicate] at isNew
      cases isNew
  · -- the delivery that left the mark has reached a peer
    rcases (reach payload present message parsed hasId).1 absent with
      ⟨delivery, mem, rfl, rfl, marked⟩
    exact kept.marks delivery mem marked

include kept in
theorem marksKept_of_parsed (notEmpty : payload ≠ []) :
    MarksKept (state.handle (runtimeSender parse config tunnelConfig) partition offset payload
      answers applied).history := by
  rw [(SourceState.handle_of_send notEmpty (send_of_parsed notEmpty parsed)).2]
  refine kept.cons ?_ ?_
  · rintro ⟨report, isReport, marked⟩
    have marks : Marks config.redis (state.sender.changedBy answers.others) message
        answers.redis := by
      cases isReport
      split at marked
      · exact of_decide_eq_true marked
      · split at marked <;> exact of_decide_eq_true marked
    rcases handedOver_or_sent_of_marks reach present parsed marks with
      handed | ⟨ok, isNew, sent⟩
    · exact handed.cons _
    · refine ⟨_, List.mem_cons_self, rfl, rfl, ?_⟩
      simpa [Delivery.Reached, ok, isNew] using sent
  · intro committed _
    by_cases duplicate : (recordEdgeMessage config.redis
        (state.sender.changedBy answers.others) message payload answers.redis).duplicate = true
    · exact (handedOver_of_duplicate kept reach present parsed duplicate).cons _
    · -- otherwise the result is the number of peers
      cases ok : (recordEdgeMessage config.redis (state.sender.changedBy answers.others)
          message payload answers.redis).ok with
      | false => simp [ok, runtimeSender] at committed
      | true =>
        refine ⟨_, List.mem_cons_self, rfl, rfl, ?_⟩
        simp only [ok, duplicate, runtimeSender, Bool.not_true, Bool.false_eq_true,
          if_false, Bool.and_eq_true, bne_iff_ne, ne_eq, List.length_eq_zero_iff]
          at committed
        simpa [Delivery.Reached, ok, duplicate] using committed.1

end Parsed

theorem marksKept_handle (kept : MarksKept state.history)
    (reach : MarksReach parse config tunnelConfig topic state
      (.poll partition offset answers applied))
    (present : topic partition offset = some payload) :
    MarksKept (state.handle (runtimeSender parse config tunnelConfig) partition offset payload
      answers applied).history := by
  by_cases isEmpty : payload = []
  · -- the sender is not called
    simp only [SourceState.handle, SourceState.callSender, isEmpty, SourceState.processed]
    refine kept.cons ?_ ?_
    · rintro ⟨report, impossible, -⟩
      cases impossible
    · intro _ called
      cases called
  · cases parsed : parseEdgeKafkaMessageJson parse answers.nowMs payload {} with
    | none =>
      rw [(SourceState.handle_of_send isEmpty (send_of_not_parsed isEmpty parsed)).2]
      refine kept.cons ?_ ?_
      · rintro ⟨report, isReport, marked⟩
        cases isReport
        cases marked
      · intro committed _
        simp [runtimeSender] at committed
    | some message => exact marksKept_of_parsed kept reach present parsed isEmpty

theorem marksKept_step {event : SourceEvent KafkaAnswers}
    {after : SourceState Redis KafkaReport} {reset : AutoOffsetReset}
    (reach : MarksReach parse config tunnelConfig topic state event)
    (taken : state.step (runtimeSender parse config tunnelConfig) reset topic event = some after)
    (kept : MarksKept state.history) : MarksKept after.history := by
  cases event with
  | assign | revoke | pollNothing =>
    cases taken
    exact kept
  | poll partition offset answers applied =>
    rcases Option.map_eq_some_iff.mp taken with ⟨payload, polled, rfl⟩
    rcases SourceState.next_of_pollMessage polled with ⟨_, _, next⟩
    exact marksKept_handle kept reach next.present

end Step

def SourceState.initial : SourceState Redis KafkaReport :=
  { sender := fun _ => none }

/-- In every run in which a mark stands for an earlier delivery of the record and the messages that
are marked reach a peer, every message committed on the sender's word was handed to a peer. -/
theorem handedOver_of_marksReach {parse : Bytes → Option Json} {config : EdgeDataPipelineConfig}
    {tunnelConfig : KcpTunnelConfig} {reset : AutoOffsetReset} {topic : BroadcastTopic}
    {events : List (SourceEvent KafkaAnswers)} {finish : SourceState Redis KafkaReport}
    (run : Run (SourceState.step (runtimeSender parse config tunnelConfig) reset topic)
      (MarksReach parse config tunnelConfig topic) SourceState.initial events finish) :
    CommittedHandedOver finish.history := by
  have kept : MarksKept finish.history := by
    induction run with
    | nil => exact ⟨fun _ mem => absurd mem List.not_mem_nil, trivial⟩
    | snoc _ reach taken earlier => exact marksKept_step reach taken earlier
  exact kept.committed

section NoPeers

def redisOnly : EdgeDataPipelineConfig where
  redis := { endpoint := { host := "127.0.0.1".toList, port := 6379 } }
  kafka := { brokers := [], topic := [] }

def nodeNine : KcpTunnelConfig where
  identity := KcpConv.ofUint32 9
  peer := { endpoint := { host := [], port := 0 }, id := KcpConv.zero }

def oneMessage : BroadcastTopic := fun partition offset =>
  if partition = 0 ∧ offset = 0 then
    some (Text.toBytes
      "\x7b\"mac_hex\":\"000000000001\",\"message_id\":\"m\"\x7d".toList)
  else none

def linkToTwo : PeerLink where
  peer := { endpoint := { host := "10.0.0.2".toList, port := 9000 }, id := KcpConv.ofUint32 2 }
  conv := KcpConv.ofUint32 2
  addr := { addr := [10, 0, 0, 2], port := 9000 }

def answersWith (peerLinks : List PeerLink) : KafkaAnswers where
  redis :=
    { seen := ⟨.answered, .answered⟩
      state := ⟨.answered, .answered⟩
      latest := ⟨.answered, .answered⟩ }
  tunnel := { running := true, peerLinks }
  kcp :=
    { nowMs := 0, random := some (KcpConv.ofUint32 5), accepts := fun _ => true
      firstEntry := fun _ => 0 }

/-- With a peer at hand the message is broadcast and committed. -/
theorem sent_message_committed :
    ∃ finish, Run (SourceState.step (runtimeSender nlohmannParse redisOnly nodeNine) .earliest oneMessage)
        (MarksReach nlohmannParse redisOnly nodeNine oneMessage) SourceState.initial
        [.assign 0 0, .poll 0 0 (answersWith [linkToTwo]) true] finish ∧
      finish.committed 0 = some 1 ∧ CommittedHandedOver finish.history := by
  refine Run.exists_of_execute (fun finish => finish.committed 0 == some 1)
    (by decide +kernel) ?_
  intro finish run committed
  exact ⟨beq_iff_eq.mp committed, handedOver_of_marksReach run⟩

/-- The last delivery was committed, and no delivery has reached a peer. -/
def CommittedUnsent (history : List (Delivery KafkaReport)) : Bool :=
  !decide (HandedOver history 0 0) && history.head?.any fun delivery =>
    delivery.committed && delivery.report.isSome && delivery.partition == 0 && delivery.offset == 0

theorem not_committedHandedOver {history : List (Delivery KafkaReport)}
    (facts : CommittedUnsent history = true) : ¬ CommittedHandedOver history := by
  simp only [CommittedUnsent, Bool.and_eq_true, beq_iff_eq, Bool.not_eq_true',
    decide_eq_false_iff_not, Option.any_eq_true] at facts
  obtain ⟨notHanded, delivery, latest, ⟨⟨isCommitted, called⟩, samePartition⟩, sameOffset⟩ := facts
  obtain ⟨earlier, history⟩ := List.head?_eq_some_iff.mp latest
  rw [history] at notHanded ⊢
  intro handed
  have reached := handed.1 isCommitted called
  rw [samePartition, sameOffset] at reached
  exact notHanded reached

/-- Without a peer the first delivery fails, but it has marked the message: the second one, with a
peer at hand, is taken for a duplicate and committed. Or the message was marked when it was written
to the topic, and its first delivery is taken for a duplicate. No delivery has reached a peer. -/
theorem unsent_message_committed :
    redisOnly.redis.enabled = true ∧
    (∃ finish, Run (SourceState.step (runtimeSender nlohmannParse redisOnly nodeNine) .earliest
          oneMessage) (fun _ _ => True) SourceState.initial
        [.assign 0 0, .poll 0 0 (answersWith []) true, .assign 0 0,
          .poll 0 0 (answersWith [linkToTwo]) true] finish ∧
      finish.committed 0 = some 1 ∧ ¬ CommittedHandedOver finish.history) ∧
    ∃ finish, Run (SourceState.step (runtimeSender nlohmannParse redisOnly nodeNine) .earliest
          oneMessage) (fun _ _ => True) SourceState.initial
        [.assign 0 0, .poll 0 0 { answersWith [linkToTwo] with
          others := [(seenKey "m".toList, some ⟨Text.toBytes "1".toList, 600⟩)] } true] finish ∧
      finish.committed 0 = some 1 ∧ ¬ CommittedHandedOver finish.history := by
  refine ⟨by decide, ?_, ?_⟩
  all_goals
    refine Run.exists_of_execute (fun finish =>
      finish.committed 0 == some 1 && CommittedUnsent finish.history) (by decide +kernel) ?_
    intro finish _ facts
    rw [Bool.and_eq_true, beq_iff_eq] at facts
    exact ⟨facts.1, not_committedHandedOver facts.2⟩

end NoPeers

end IotProxy.Proxy
