import IotProxy.Proxy.StreamLifecycle

/-!
# What the handler sees of a stream

The events of the ingress streams over all interleavings.

The call that takes a connection out closes its socket before it looks for the stream, by the
descriptor. The first receive of a connection is queued before its stream is registered.
-/

namespace IotProxy.Proxy

open EventSystem Interleaving Shared Multiset Option Function
open IotProxy.Myring (ConnectionState TcpServer RecvResult)

def connected (streamId : ℕ) : TcpEvent := { type := .connected, streamId }

structure Unannounced (shared : Shared) (next : Shared × List Action) : Prop where
  streamOf : next.1.streamOf = shared.streamOf
  events : next.1.ingress.events = shared.ingress.events
  quiet : ∀ action ∈ next.2, ∀ event, action.task = .notify event →
    event.type = .data ∨ event = closed event.streamId

/-- A step that leaves the history alone, and leads to no action that will write it but for the ends
of streams. -/
structure Unwritten (shared : Shared) (next : Shared × List Action) : Prop
    extends Unannounced shared next where
  received : next.1.received = shared.received
  buffered : next.1.buffered = shared.buffered
  silent : ∀ action ∈ next.2, ∀ data, action.task ≠ .handleData data
  still : ∀ connection, next.1.server.connected connection = true →
    shared.server.connected connection = true

variable {next : Shared × List Action} {config : TcpIngressConfig} {streamId : ℕ}

section Unwritten

variable {shared : Shared} {connection : ℕ}

theorem Touched.connected (touches : Touched shared connection next)
    (other : ℕ) (live : next.1.server.connected other = true) :
    shared.server.connected other = true := by
  cases touches with
  | kept | updated | ended => exact live
  | taken =>
    simp only [TcpServer.erase, update_apply] at live
    split at live
    · cases live
    · exact live

theorem Touched.unannounced
    (touches : Touched shared connection next) : Unannounced shared next := by
  have quiet {more : List Action}
      (plain : ∀ action ∈ more, action.connection = connection ∧ action.task.plain = true) :
      ∀ action ∈ more, ∀ event, action.task = .notify event →
        event.type = .data ∨ event = closed event.streamId := by
    intro action mem event isNotify
    have isPlain := (plain action mem).2
    simp [isNotify, Task.plain] at isPlain
  cases touches with
  | kept _ _ plain => exact ⟨rfl, rfl, quiet plain⟩
  | updated _ _ _ plain => exact ⟨rfl, rfl, quiet plain⟩
  | ended => exact ⟨rfl, rfl, by simp⟩
  | taken => exact ⟨rfl, rfl, by simp [Shared.disconnect]⟩

theorem Touched.unwritten (touches : Touched shared connection next)
    (silent : ∀ action ∈ next.2, ∀ data, action.task ≠ .handleData data) :
    Unwritten shared next := by
  refine ⟨touches.unannounced, ?_, ?_, silent, touches.connected⟩
  · cases touches <;> rfl
  · cases touches <;> rfl

theorem unwritten_act {made : Bool} {task : Task}
    (own : ∀ state, shared.server.connections (shared.fdOf connection) = some state →
      state.connection = connection)
    (noStream : task ≠ .addStream) (noData : ∀ data, task ≠ .handleData data)
    (noEvent : ∀ event, task ≠ .notify event) :
    Unwritten shared (shared.act config made ⟨connection, task⟩) := by
  by_cases plain : task.plain = true
  · apply (touched_act own plain noData).unwritten
    cases task
    case handleData data => exact absurd rfl (noData data)
    all_goals
      simp only [Shared.act, Shared.finishWrite, Shared.disconnect]
      (repeat' split) <;> simp
  · cases task <;> simp only [Task.plain, not_true_eq_false] at plain
    case pushFirstRecv =>
      cases made <;>
        exact ⟨⟨rfl, rfl, by simp [Shared.act]⟩, rfl, rfl, by simp [Shared.act],
          by simp [Shared.act]⟩
    case acceptResult accepted =>
      simp only [Shared.act, TcpServer.acceptResult]
      cases shared.server.connections (shared.fdOf connection) with
      | none =>
        refine ⟨⟨rfl, rfl, ?_⟩, rfl, rfl, ?_, by simp⟩ <;> split <;> simp
      | some state =>
        cases accepted with
        | true => exact ⟨⟨rfl, rfl, by simp [closed]⟩, rfl, rfl, by simp, by simp⟩
        | false =>
          refine ⟨⟨rfl, rfl, by simp⟩, rfl, rfl, by simp, ?_⟩
          intro other live
          simp only [Bool.false_eq_true, if_false, TcpServer.erase, update_apply] at live
          split at live
          · cases live
          · exact live
    case handleConnection =>
      simp only [Shared.act]
      split <;> exact ⟨⟨rfl, rfl, by simp [closed]⟩, rfl, rfl, by simp, by simp⟩
    case addStream => exact absurd rfl noStream
    case removeStream =>
      simp only [Shared.act, TcpIngress.removeStream]
      cases shared.ingress.streamByFd (shared.fdOf connection) <;>
        exact ⟨⟨rfl, rfl, by simp [closed]⟩, rfl, rfl, by simp, by simp⟩
    case handleReadClosed =>
      simp only [Shared.act, TcpIngress.closeReading]
      cases shared.ingress.streamByFd (shared.fdOf connection) with
      | none => exact ⟨⟨rfl, rfl, by simp [closed]⟩, rfl, rfl, by simp, by simp⟩
      | some streamId =>
        by_cases ended : streamId ∈ shared.ingress.readClosedStreams <;>
          simp only [ended, if_true, if_false] <;>
          exact ⟨⟨rfl, rfl, by simp [closed]⟩, rfl, rfl, by simp, by simp⟩
    case notify event => exact absurd rfl (noEvent event)
    case closeSocket =>
      exact ⟨⟨rfl, rfl, by simp [Shared.act]⟩, rfl, rfl, by simp [Shared.act], by simp [Shared.act]⟩

theorem unwritten_operate (operation : StreamOperation) :
    Unwritten shared (shared, shared.operate streamId operation) := by
  refine ⟨⟨rfl, rfl, ?_⟩, rfl, rfl, ?_, fun _ => id⟩ <;> unfold Shared.operate <;>
    cases operation <;> (repeat' split) <;> simp [StreamOperation.task]

end Unwritten

variable {action : Action} {event : ThreadEvent}

namespace Threads

/-- A descriptor is given away when nothing of its connection is left, and a stream is registered
while its connection is in the table, with an id that was not used before. -/
def Separate (config : TcpIngressConfig) (state : Threads) : ThreadEvent → Prop
  | .accept fd =>
    (∀ connection ∈ state.shared.recvs, state.shared.fdOf connection ≠ fd) ∧
    (∀ connection ∈ state.shared.sends, state.shared.fdOf connection ≠ fd) ∧
    (∀ action ∈ state.pending, state.shared.fdOf action.connection ≠ fd) ∧
    state.shared.ingress.streamByFd fd = none
  | .proceed index _ =>
    ∀ action ∈ next? state.calls index, action.task = .addStream →
      state.shared.server.connected action.connection = true ∧
      ∀ other < state.shared.accepted,
        state.shared.streamOf other ≠ some (state.shared.ingress.newStreamId config)
  | _ => True

instance (config : TcpIngressConfig) (state : Threads) :
    (event : ThreadEvent) → Decidable (state.Separate config event)
  | .accept _ => inferInstanceAs (Decidable (_ ∧ _ ∧ _ ∧ _))
  | .recvCompleted .. | .sendCompleted .. | .operate .. => inferInstanceAs (Decidable True)
  | .proceed .. => inferInstanceAs (Decidable (∀ action ∈ _, _))

theorem Separate.fresh {state : Threads} {index : ℕ} {made : Bool} {pending : Multiset Action}
    (separate : state.Separate config (.proceed index made))
    (orderly : Orderly state.shared pending) (next : next? state.calls index = some action)
    (isStart : action.task = .addStream) :
    state.shared.server.connected action.connection = true ∧
      ∀ other, state.shared.streamOf other ≠ some (state.shared.ingress.newStreamId config) := by
  obtain ⟨connected, fresh⟩ := separate action next isStart
  refine ⟨connected, ?_⟩
  intro other hasStream
  exact fresh other (orderly.streams.known hasStream) hasStream

theorem orderly_steps {state : Threads} {shared : Shared} {pending : Multiset Action}
    (separate : state.Separate config event) (steps : Steps config state event shared pending)
    (orderly : Orderly state.shared state.pending) : Orderly shared pending := by
  cases steps with
  | accept free =>
    rcases separate with ⟨recvs, sends, unused, unregistered⟩
    exact orderly.accept free recvs sends unused unregistered
  | @recvCompleted connection result mem =>
    have current := orderly.recvs connection mem
    have completed := orderly.completeRecv connection result
    exact completed.touched current
      (touched_recvCompleted (completed.held.own current) result)
  | @sendCompleted connection succeeded mem =>
    have current := orderly.sends connection mem
    have completed := orderly.completeSend connection
    exact completed.touched current
      (touched_sendCompleted (completed.held.own current) succeeded)
  | operate streamId operation => exact orderly.operate operation
  | proceed next before =>
    rw [before] at orderly
    apply orderly.act
    intro isStart
    exact separate.fresh orderly next isStart

end Threads

/-- Every stream that the handler has seen, or is about to see, is the stream of a connection. -/
structure Announced (shared : Shared) (pending : Multiset Action) : Prop where
  delivered : ∀ ⦃streamId⦄, connected streamId ∈ shared.ingress.events →
    ∃ connection, shared.streamOf connection = some streamId
  announcing : ∀ ⦃connection event⦄, ⟨connection, .notify event⟩ ∈ pending →
    (event.type = .data ∨ event = closed event.streamId) ∨ event = connected event.streamId ∧
      ∃ connection, shared.streamOf connection = some event.streamId

section History

variable {shared : Shared} {connection : ℕ}

theorem update_streamOf {owner own : ℕ} (first : shared.streamOf connection = none)
    (hasStream : shared.streamOf owner = some streamId) :
    update shared.streamOf connection (some own) owner = some streamId := by
  have different : owner ≠ connection := by
    rintro rfl
    simp [first] at hasStream
  simpa [different] using hasStream

theorem mem_notify {event earlier : TcpEvent} (mem : earlier ∈ shared.ingress.events) :
    earlier ∈ (shared.ingress.notify event).events := by
  unfold TcpIngress.notify
  split
  · exact mem
  · exact List.mem_append_left _ mem

end History

variable {data : Bytes}

namespace Announced

variable {shared : Shared} {pending others : Multiset Action} {connection : ℕ}
  {config : TcpIngressConfig} {made : Bool}

theorem initial : Announced {} 0 where
  delivered := by simp
  announcing := by simp

theorem drop (announced : Announced shared (action ::ₘ others)) : Announced shared others :=
  ⟨announced.delivered, fun _ _ mem => announced.announcing (mem_cons_of_mem mem)⟩

theorem unannounced (announced : Announced shared pending)
    (unannounced : Unannounced shared next) : Announced next.1 (next.2 + pending) := by
  rcases unannounced with ⟨streamOf, events, quiet⟩
  constructor <;> simp only [streamOf, events]
  · exact announced.delivered
  · intro owner event mem
    rcases mem_add.mp mem with isNew | before
    · exact .inl (quiet _ isNew event rfl)
    · exact announced.announcing before

theorem notify {event : TcpEvent}
    (announced : Announced shared (⟨connection, .notify event⟩ ::ₘ others)) :
    Announced { shared with ingress := shared.ingress.notify event } others := by
  refine ⟨?_, announced.drop.announcing⟩
  intro streamId mem
  have isEvent : connected streamId ∈ shared.ingress.events ∨ connected streamId = event := by
    unfold TcpIngress.notify at mem
    split at mem
    · exact .inl mem
    · simpa using mem
  rcases isEvent with before | rfl
  · exact announced.delivered before
  · simpa [connected, closed] using announced.announcing (mem_cons_self _ _)

theorem addStream (announced : Announced shared others)
    (first : shared.streamOf connection = none) :
    let next := shared.act config made ⟨connection, .addStream⟩
    Announced next.1 (next.2 + others) := by
  intro next
  simp only [next, Shared.act, coe_cons_add, coe_nil_add]
  constructor
  · intro streamId mem
    rcases announced.delivered mem with ⟨owner, hasStream⟩
    exact ⟨owner, update_streamOf first hasStream⟩
  · intro owner event mem
    rcases mem_cons.mp mem with isNew | before
    · cases isNew
      exact .inr ⟨rfl, connection, by simp⟩
    · rcases announced.announcing before with isOther | ⟨isConnected, other, hasStream⟩
      · exact .inl isOther
      · exact .inr ⟨isConnected, other, update_streamOf first hasStream⟩

theorem handleData (announced : Announced shared others) :
    let next := shared.act config made ⟨connection, .handleData data⟩
    Announced next.1 (next.2 + others) := by
  apply announced.unannounced
  simp only [Shared.act, TcpIngress.bufferData]
  cases shared.ingress.streamByFd (shared.fdOf connection) with
  | none => exact ⟨rfl, rfl, by simp⟩
  | some streamId =>
    refine ⟨rfl, rfl, ?_⟩
    intro action mem
    rcases mem_delivery mem with ⟨_, isTask | ⟨frame, isTask⟩⟩ <;> simp [isTask]

theorem act (orderly : Orderly shared (action ::ₘ others))
    (announced : Announced shared (action ::ₘ others)) (beginning : action.task = .addStream →
      shared.server.connected action.connection = true) :
    Announced (shared.act config made action).1 ((shared.act config made action).2 + others) := by
  have current := orderly.held.current action (mem_cons_self _ _)
  rcases action with ⟨connection, task⟩
  by_cases isStart : task = .addStream
  · subst isStart
    exact announced.drop.addStream (orderly.noStream rfl (beginning rfl))
  · by_cases isData : ∃ data, task = .handleData data
    · rcases isData with ⟨data, rfl⟩
      exact announced.drop.handleData
    · by_cases isEvent : ∃ event, task = .notify event
      · rcases isEvent with ⟨event, rfl⟩
        simpa [Shared.act] using announced.notify
      · apply announced.drop.unannounced
        exact (unwritten_act (orderly.held.own current) isStart (by simpa using isData)
          (by simpa using isEvent)).toUnannounced

end Announced

structure Buffering (shared : Shared) (pending : Multiset Action) : Prop where
  handling : ∀ ⦃connection data⦄, ⟨connection, .handleData data⟩ ∈ pending →
    ∃ streamId, shared.streamOf connection = some streamId ∧
      connected streamId ∈ shared.ingress.events
  received : ∀ ⦃connection data⦄, (connection, data) ∈ shared.received →
    shared.streamOf connection ≠ none
  buffered : ∀ ⦃streamId data⦄, (streamId, data) ∈ shared.buffered →
    connected streamId ∈ shared.ingress.events
  complete : ∀ ⦃connection streamId⦄, shared.server.connected connection = true →
    shared.streamOf connection = some streamId → ∀ data,
      shared.received.count (connection, data) = shared.buffered.count (streamId, data) +
        pending.count ⟨connection, .handleData data⟩

namespace Buffering

variable {shared : Shared} {pending others : Multiset Action} {connection : ℕ}
  {config : TcpIngressConfig} {made : Bool}

theorem initial : Buffering {} 0 where
  handling := by simp
  received := by simp
  buffered := by simp
  complete := by simp

theorem drop (buffering : Buffering shared (action ::ₘ others))
    (noData : ∀ data, action.task ≠ .handleData data) : Buffering shared others := by
  refine ⟨?_, buffering.received, buffering.buffered, ?_⟩
  · intro owner data mem
    exact buffering.handling (mem_cons_of_mem mem)
  · intro owner streamId live hasStream data
    have different : (⟨owner, .handleData data⟩ : Action) ≠ action := by
      rintro rfl
      exact noData data rfl
    have counted := buffering.complete live hasStream data
    rwa [count_cons_of_ne different] at counted

theorem unwritten (buffering : Buffering shared pending)
    (unwritten : Unwritten shared next) : Buffering next.1 (next.2 + pending) := by
  rcases unwritten with ⟨⟨streamOf, events, _⟩, received, buffered, silent, still⟩
  constructor <;> simp only [received, streamOf, buffered, events]
  · intro owner data mem
    rcases mem_add.mp mem with isNew | before
    · exact absurd rfl (silent _ isNew data)
    · exact buffering.handling before
  · exact buffering.received
  · exact buffering.buffered
  · intro owner streamId live hasStream data
    have none : (next.2 : Multiset Action).count ⟨owner, .handleData data⟩ = 0 := by
      apply count_eq_zero.mpr
      intro mem
      exact silent _ mem data rfl
    rw [count_add, none, zero_add]
    exact buffering.complete (still owner live) hasStream data

theorem notify (buffering : Buffering shared pending) (event : TcpEvent) :
    Buffering { shared with ingress := shared.ingress.notify event } pending := by
  refine ⟨?_, buffering.received, ?_, buffering.complete⟩
  · intro owner data mem
    rcases buffering.handling mem with ⟨streamId, hasStream, isConnected⟩
    exact ⟨streamId, hasStream, mem_notify isConnected⟩
  · intro streamId data mem
    exact mem_notify (buffering.buffered mem)

theorem addStream (announced : Announced shared others) (buffering : Buffering shared others)
    (first : shared.streamOf connection = none)
    (fresh : ∀ other, shared.streamOf other ≠ some (shared.ingress.newStreamId config)) :
    let next := shared.act config made ⟨connection, .addStream⟩
    Buffering next.1 (next.2 + others) := by
  intro next
  simp only [next, Shared.act, coe_cons_add, coe_nil_add]
  constructor
  · intro owner data mem
    rcases buffering.handling (by simpa using mem) with ⟨streamId, hasStream, isConnected⟩
    exact ⟨streamId, update_streamOf first hasStream, isConnected⟩
  · intro owner data mem
    rcases ne_none_iff_exists'.mp (buffering.received mem) with ⟨streamId, hasStream⟩
    simp [update_streamOf first hasStream]
  · exact buffering.buffered
  · intro owner streamId live hasStream data
    rw [count_cons_of_ne (by simp)]
    by_cases isNew : owner = connection
    · subst isNew
      simp only [update_self, Option.some.injEq] at hasStream
      subst hasStream
      have noneReceived : shared.received.count (owner, data) = 0 := by
        apply List.count_eq_zero.mpr
        intro mem
        exact buffering.received mem first
      have noneBuffered : shared.buffered.count (shared.ingress.newStreamId config, data) = 0 := by
        apply List.count_eq_zero.mpr
        intro mem
        rcases announced.delivered (buffering.buffered mem) with ⟨other, otherHas⟩
        exact fresh other otherHas
      have nonePending : others.count ⟨owner, .handleData data⟩ = 0 := by
        apply count_eq_zero.mpr
        intro mem
        rcases buffering.handling mem with ⟨streamId, hasStream, _⟩
        simp [first] at hasStream
      simp [noneReceived, noneBuffered, nonePending]
    · simp only [update_of_ne isNew] at hasStream
      exact buffering.complete live hasStream data

theorem store {own : ℕ} (buffering : Buffering shared (⟨connection, .handleData data⟩ ::ₘ others))
    (buffer : Bytes) (streams : Streams shared) (ownStream : shared.streamOf connection = some own)
    (isConnected : connected own ∈ shared.ingress.events) :
    Buffering
      { shared with
        ingress := shared.ingress.setBuffer (shared.fdOf connection) buffer
        buffered := shared.buffered ++ [(own, data)] } others := by
  refine ⟨?_, buffering.received, ?_, ?_⟩
  · intro owner chunk mem
    exact buffering.handling (mem_cons_of_mem mem)
  · intro streamId chunk mem
    rcases List.mem_append.mp mem with before | isNew
    · exact buffering.buffered before
    · simp only [List.mem_singleton, Prod.mk.injEq] at isNew
      exact isNew.1 ▸ isConnected
  · intro owner streamId live hasStream chunk
    have counted := buffering.complete live hasStream chunk
    change shared.received.count _ = (shared.buffered ++ [(own, data)]).count _ + _
    rw [List.count_append]
    by_cases isNew : owner = connection ∧ chunk = data
    · rcases isNew with ⟨rfl, rfl⟩
      obtain rfl : streamId = own := Option.some.inj (hasStream.symm.trans ownStream)
      rw [count_cons_self] at counted
      rw [List.count_singleton_self]
      omega
    · have otherAction :
          (⟨owner, .handleData chunk⟩ : Action) ≠ ⟨connection, .handleData data⟩ := by
        simpa using isNew
      have otherChunk : (own, data) ≠ (streamId, chunk) := by
        rintro isSame
        cases isSame
        exact isNew ⟨streams.injective hasStream ownStream, rfl⟩
      rw [count_cons_of_ne otherAction] at counted
      rw [List.count_singleton, if_neg (by simpa using otherChunk), add_zero]
      exact counted

theorem handleData (orderly : Orderly shared (⟨connection, .handleData data⟩ ::ₘ others))
    (buffering : Buffering shared (⟨connection, .handleData data⟩ ::ₘ others)) :
    let next := shared.act config made ⟨connection, .handleData data⟩
    Buffering next.1 (next.2 + others) := by
  have current := orderly.held.current _ (mem_cons_self _ _)
  rcases buffering.handling (mem_cons_self _ _) with ⟨own, ownStream, isConnected⟩
  have handling ⦃owner : ℕ⦄ ⦃chunk : Bytes⦄ (mem : ⟨owner, .handleData chunk⟩ ∈ others) :=
    buffering.handling (mem_cons_of_mem mem)
  intro next
  simp only [next, Shared.act, TcpIngress.bufferData]
  cases found : shared.ingress.streamByFd (shared.fdOf connection) with
  | none =>
    -- the stream has been removed, so the connection is gone
    have gone : shared.server.connected connection = false := by
      rw [orderly.held.live, isSome_eq_false_iff, isNone_iff_eq_none]
      apply eq_none_iff_forall_ne_some.mpr
      intro entry isEntry
      have registered := orderly.life.registered isEntry ownStream
      simp [found] at registered
    simp only [coe_nil_add]
    refine ⟨handling, buffering.received, buffering.buffered, ?_⟩
    intro owner streamId live hasStream chunk
    have different : owner ≠ connection := by
      rintro rfl
      simp [gone] at live
    have counted := buffering.complete live hasStream chunk
    rwa [count_cons_of_ne (by simp [different])] at counted
  | some streamId =>
    have hasStream := orderly.streams.own current found
    obtain rfl : own = streamId := by
      simpa [hasStream] using ownStream.symm
    apply (buffering.store _ orderly.streams ownStream isConnected).unwritten
    refine ⟨⟨rfl, rfl, ?_⟩, rfl, rfl, ?_, fun _ => id⟩ <;> intro action mem <;>
      rcases mem_delivery mem with ⟨_, isTask | ⟨frame, isTask⟩⟩ <;>
      simp [isTask]

theorem act (orderly : Orderly shared (action ::ₘ others))
    (announced : Announced shared (action ::ₘ others))
    (buffering : Buffering shared (action ::ₘ others)) (beginning : action.task = .addStream →
      shared.server.connected action.connection = true ∧
      ∀ other, shared.streamOf other ≠ some (shared.ingress.newStreamId config)) :
    Buffering (shared.act config made action).1 ((shared.act config made action).2 + others) := by
  have current := orderly.held.current action (mem_cons_self _ _)
  rcases action with ⟨connection, task⟩
  by_cases isStart : task = .addStream
  · subst isStart
    obtain ⟨connected, fresh⟩ := beginning rfl
    exact (buffering.drop (by simp)).addStream announced.drop (orderly.noStream rfl connected) fresh
  · by_cases isData : ∃ data, task = .handleData data
    · rcases isData with ⟨data, rfl⟩
      exact buffering.handleData orderly
    · by_cases isEvent : ∃ event, task = .notify event
      · rcases isEvent with ⟨event, rfl⟩
        simpa [Shared.act] using (buffering.drop (by simp)).notify event
      · have noData : ∀ data, task ≠ .handleData data := by simpa using isData
        apply (buffering.drop noData).unwritten
        exact unwritten_act (orderly.held.own current) isStart noData (by simpa using isEvent)

theorem accept {fd : ℕ} (buffering : Buffering shared pending) (streams : Streams shared) :
    Buffering (shared.accept fd) (⟨shared.accepted, .pushFirstRecv⟩ ::ₘ pending) := by
  refine ⟨?_, buffering.received, buffering.buffered, ?_⟩
  · intro owner data mem
    exact buffering.handling (by simpa using mem)
  · intro owner streamId live hasStream data
    have isOld := (streams.known hasStream).ne
    rw [count_cons_of_ne (by simp)]
    apply buffering.complete _ hasStream
    simpa [Shared.accept, TcpServer.register, isOld] using live

theorem receive {bytes : Bytes} (held : Held shared pending)
    (buffering : Buffering shared pending) (current : shared.Current connection)
    (hasStream : shared.streamOf connection = some streamId)
    (isConnected : connected streamId ∈ shared.ingress.events) : let next :=
      (shared.completeRecv connection (.data bytes)).recvCompleted connection (.data bytes)
    Buffering next.1 (next.2 + pending) := by
  have received ⦃owner : ℕ⦄ ⦃data : Bytes⦄
      (mem : (owner, data) ∈ shared.received ++ [(connection, bytes)]) :
      shared.streamOf owner ≠ none := by
    rcases List.mem_append.mp mem with before | isNew
    · exact buffering.received before
    · simp only [List.mem_singleton, Prod.mk.injEq] at isNew
      simp [isNew.1, hasStream]
  have others ⦃owner : ℕ⦄ ⦃data : Bytes⦄ (different : ¬ (owner = connection ∧ data = bytes)) :
      (shared.received ++ [(connection, bytes)]).count (owner, data) =
        shared.received.count (owner, data) := by
    have otherChunk : (owner, data) ∉ [(connection, bytes)] := by
      simpa using different
    rw [List.count_append, List.count_eq_zero.mpr otherChunk, add_zero]
  intro next
  simp only [next, Shared.recvCompleted, Shared.completeRecv, TcpServer.handleRecv]
  cases found : shared.server.connections (shared.fdOf connection) with
  | none =>
    have gone : shared.server.connected connection = false := by
      simp [held.live, Shared.entry, found]
    simp only [coe_nil_add]
    refine ⟨buffering.handling, received, buffering.buffered, ?_⟩
    intro owner other live otherHas data
    have different : ¬ (owner = connection ∧ data = bytes) := by
      rintro ⟨rfl, _⟩
      simp [gone] at live
    rw [others different]
    exact buffering.complete live otherHas data
  | some state =>
    simp only [held.own current state found, coe_cons_add, coe_nil_add]
    refine ⟨?_, received, buffering.buffered, ?_⟩
    · intro owner data mem
      simp only [mem_cons, Action.mk.injEq, Task.handleData.injEq, reduceCtorEq,
        and_false, false_or] at mem
      rcases mem with ⟨rfl, _⟩ | before
      · exact ⟨streamId, hasStream, isConnected⟩
      · exact buffering.handling before
    · intro owner other live otherHas data
      have counted := buffering.complete live otherHas data
      by_cases isNew : owner = connection ∧ data = bytes
      · rcases isNew with ⟨rfl, rfl⟩
        rw [List.count_append, List.count_singleton_self, count_cons_self,
          count_cons_of_ne (by simp), counted, add_assoc]
      · rw [others isNew, count_cons_of_ne (by simpa using isNew),
          count_cons_of_ne (by simp)]
        exact counted

theorem finishRecv {result : RecvResult} (orderly : Orderly shared pending)
    (buffering : Buffering shared pending) (mem : connection ∈ shared.recvs)
    (noData : ∀ bytes, result ≠ .data bytes) :
    let next := (shared.completeRecv connection result).recvCompleted connection result
    Buffering next.1 (next.2 + pending) := by
  have isUnread : (shared.completeRecv connection result).received = shared.received := by
    cases result with
    | data bytes => exact absurd rfl (noData bytes)
    | ended | failed => rfl
  have same : Unwritten shared (shared.completeRecv connection result, []) :=
    ⟨⟨rfl, rfl, by simp⟩, isUnread, rfl, by simp, fun _ => id⟩
  have completed := buffering.unwritten same
  simp only [coe_nil_add] at completed
  apply completed.unwritten
  have held := (orderly.completeRecv connection result).held
  apply (touched_recvCompleted (held.own (orderly.recvs connection mem)) result).unwritten
  cases result with
  | data bytes => exact absurd rfl (noData bytes)
  | ended | failed =>
    simp only [Shared.recvCompleted, Shared.disconnect]
    (repeat' split) <;> simp

theorem sendCompleted {succeeded : Bool} (orderly : Orderly shared pending)
    (buffering : Buffering shared pending) (mem : connection ∈ shared.sends) :
    let next := (shared.completeSend connection).sendCompleted connection succeeded
    Buffering next.1 (next.2 + pending) := by
  have same : Unwritten shared (shared.completeSend connection, []) :=
    ⟨⟨rfl, rfl, by simp⟩, rfl, rfl, by simp, fun _ => id⟩
  have completed := buffering.unwritten same
  simp only [coe_nil_add] at completed
  apply completed.unwritten
  have held := (orderly.completeSend connection).held
  apply (touched_sendCompleted (held.own (orderly.sends connection mem)) succeeded).unwritten
  simp only [Shared.sendCompleted, Shared.finishWrite, Shared.disconnect]
  (repeat' split) <;> simp

theorem operate (buffering : Buffering shared pending) (operation : StreamOperation) :
    Buffering shared (shared.operate streamId operation + pending) := by
  exact buffering.unwritten (unwritten_operate operation)

end Buffering

namespace Threads

theorem announced_steps {state : Threads} {shared : Shared} {pending : Multiset Action}
    (separate : state.Separate config event) (steps : Steps config state event shared pending)
    (orderly : Orderly state.shared state.pending)
    (announced : Announced state.shared state.pending) : Announced shared pending := by
  cases steps with
  | @accept fd free =>
    have quiet : Unannounced state.shared (state.shared.accept fd,
        [⟨state.shared.accepted, .pushFirstRecv⟩]) := ⟨rfl, rfl, by simp⟩
    exact announced.unannounced quiet
  | @recvCompleted connection result mem =>
    have held := (orderly.completeRecv connection result).held
    have touches := touched_recvCompleted (held.own (orderly.recvs connection mem)) result
    obtain ⟨streamOf, events, quiet⟩ := touches.unannounced
    exact announced.unannounced ⟨streamOf, events, quiet⟩
  | @sendCompleted connection succeeded mem =>
    have held := (orderly.completeSend connection).held
    have touches :=
      touched_sendCompleted (held.own (orderly.sends connection mem)) succeeded
    obtain ⟨streamOf, events, quiet⟩ := touches.unannounced
    exact announced.unannounced ⟨streamOf, events, quiet⟩
  | operate streamId operation =>
    exact announced.unannounced (unwritten_operate operation).toUnannounced
  | proceed next before =>
    rw [before] at orderly announced
    apply announced.act orderly
    intro isStart
    exact (separate _ next isStart).1

/-- Descriptors are given away with care, and receives of a connection complete after the handler
has seen the connection. -/
def ConnectedFirst (config : TcpIngressConfig) (state : Threads) (event : ThreadEvent) : Prop :=
  state.Separate config event ∧
    match event with
    | .recvCompleted connection _ => ∃ streamId ∈ state.shared.streamOf connection,
        connected streamId ∈ state.shared.ingress.events
    | _ => True

instance (config : TcpIngressConfig) (state : Threads) :
    (event : ThreadEvent) → Decidable (state.ConnectedFirst config event)
  | .recvCompleted .. => inferInstanceAs (Decidable (_ ∧ ∃ streamId ∈ _, _))
  | .accept _ | .sendCompleted .. | .operate .. | .proceed .. =>
    inferInstanceAs (Decidable (_ ∧ True))

theorem buffering_steps {state : Threads} {shared : Shared} {pending : Multiset Action}
    (condition : state.ConnectedFirst config event)
    (steps : Steps config state event shared pending)
    (orderly : Orderly state.shared state.pending)
    (announced : Announced state.shared state.pending)
    (buffering : Buffering state.shared state.pending) : Buffering shared pending := by
  rcases condition with ⟨separate, seen⟩
  cases steps with
  | accept => exact buffering.accept orderly.streams
  | @recvCompleted connection result mem =>
    by_cases isData : ∃ bytes, result = .data bytes
    · rcases isData with ⟨bytes, rfl⟩
      rcases seen with ⟨streamId, hasStream, isConnected⟩
      exact buffering.receive orderly.held (orderly.recvs connection mem) hasStream isConnected
    · exact buffering.finishRecv orderly mem (by simpa using isData)
  | sendCompleted mem => exact buffering.sendCompleted orderly mem
  | operate streamId operation => exact buffering.operate operation
  | proceed next before =>
    rw [before] at orderly announced buffering
    apply buffering.act orderly announced
    intro isStart
    exact separate.fresh orderly next isStart

end Threads

/-- In every run in which descriptors are given away with care and receives complete after the
handler has seen the connection, every chunk that was received on a connection that is there was
handed to the buffer of its stream or is about to be, and a stream gets chunks after its `Connected`
event only. -/
theorem buffered_of_connectedFirst {config : TcpIngressConfig} {events : List ThreadEvent}
    {state : Threads}
    (run : Run (Threads.step config) (Threads.ConnectedFirst config) {} events state) :
    (∀ connection entry data, state.shared.entry connection = some entry →
      (connection, data) ∈ state.shared.received →
      ∃ streamId, state.shared.streamOf connection = some streamId ∧
        state.shared.received.count (connection, data) =
          state.shared.buffered.count (streamId, data) +
            state.pending.count ⟨connection, .handleData data⟩) ∧
      ∀ streamId data, (streamId, data) ∈ state.shared.buffered →
        connected streamId ∈ state.shared.ingress.events := by
  obtain ⟨orderly, _, buffering⟩ : Orderly state.shared state.pending ∧
      Announced state.shared state.pending ∧ Buffering state.shared state.pending := by
    apply run.invariant
    · exact ⟨Orderly.initial, Announced.initial, Buffering.initial⟩
    · intro before after event condition taken ⟨orderly, announced, buffering⟩
      have steps := Threads.steps_of_step taken
      exact ⟨Threads.orderly_steps condition.1 steps orderly,
        Threads.announced_steps condition.1 steps orderly announced,
        Threads.buffering_steps condition steps orderly announced buffering⟩
  refine ⟨?_, buffering.buffered⟩
  intro connection entry data isEntry mem
  rcases ne_none_iff_exists'.mp (buffering.received mem) with ⟨streamId, hasStream⟩
  have live : state.shared.server.connected connection = true := by
    simp [orderly.held.live, isEntry]
  exact ⟨streamId, hasStream, buffering.complete live hasStream data⟩

/-- The handler sees the connection, then its first chunk comes. -/
theorem first_chunk_buffered : ∃ state,
    Run (Threads.step {}) (Threads.ConnectedFirst {}) {}
      [.accept 5, .proceed 0 true, .proceed 0 true, .proceed 0 true, .proceed 0 true,
        .proceed 0 true, .recvCompleted 0 (.data [1]), .proceed 1 true] state ∧
    state.shared.buffered = [(4294967297, [1])] ∧
    connected 4294967297 ∈ state.shared.ingress.events := by
  apply Run.exists_of_execute fun state => state.shared.buffered == [(4294967297, [1])]
  · decide +kernel
  · intro state run facts
    rw [beq_iff_eq] at facts
    exact ⟨facts, (buffered_of_connectedFirst run).2 4294967297 [1] (by simp [facts])⟩

/-- The worker receives and handles the first chunk while the accepting thread has yet to register
the stream. The chunk is dropped, although the connection gets its stream and stays. -/
theorem first_chunk_lost : ∃ state,
    Run (Threads.step {}) (fun _ _ => True) {}
      [.accept 5, .proceed 0 true, .recvCompleted 0 (.data [1]), .proceed 1 true, .proceed 0 true,
        .proceed 0 true, .proceed 0 true, .proceed 0 true] state ∧
    state.shared.received = [(0, [1])] ∧ state.shared.buffered = [] ∧
    state.pending.count ⟨0, .handleData [1]⟩ = 0 ∧
    state.shared.entry 0 = some { connection := 0 } ∧
    state.shared.streamOf 0 = some 4294967297 ∧
    state.shared.ingress.events = [connected 4294967297] ∧
    state.shared.ingress.frameBufferByFd 5 = some [] := by
  apply Run.exists_of_execute fun state =>
    state.shared.received == [(0, [1])] && state.shared.buffered == [] &&
      state.calls.flatten == [⟨0, .checkConnected⟩] &&
      state.shared.entry 0 == some { connection := 0 } &&
      state.shared.streamOf 0 == some 4294967297 &&
      state.shared.ingress.events == [connected 4294967297] &&
      state.shared.ingress.frameBufferByFd 5 == some []
  · decide +kernel
  · intro state _ facts
    simp only [Bool.and_eq_true, beq_iff_eq, and_assoc] at facts
    rcases facts with ⟨received, buffered, calls, facts⟩
    have pending : state.pending = ([⟨0, .checkConnected⟩] : List Action) :=
      congrArg Multiset.ofList calls
    refine ⟨received, buffered, ?_, facts⟩
    rw [pending]
    rfl

/-- In every run in which descriptors are given away with care, a stream that the handler has seen
belongs to a connection. It is closed at most once; it has been closed when the connection is gone
and no call is in progress that is about the connection or reports the end of the stream; and while
the connection is there the stream is registered, and closed only if its peer has ended. -/
theorem closed_once_of_separate {config : TcpIngressConfig} {events : List ThreadEvent}
    {state : Threads} {streamId : ℕ}
    (run : Run (Threads.step config) (Threads.Separate config) {} events state)
    (isConnected : connected streamId ∈ state.shared.ingress.events) :
    ∃ connection, state.shared.streamOf connection = some streamId ∧
      state.shared.ingress.events.count (closed streamId) ≤ 1 ∧
      (state.shared.entry connection = none →
        (∀ action ∈ state.pending, action.connection ≠ connection ∧
          action.task ≠ .notify (closed streamId)) →
        state.shared.ingress.events.count (closed streamId) = 1) ∧
      ∀ entry, state.shared.entry connection = some entry →
        state.shared.ingress.streamByFd (state.shared.fdOf connection) = some streamId ∧
        state.shared.ingress.connectionByStream streamId = some connection ∧
        (closed streamId ∈ state.shared.ingress.events → entry.readClosed = true) := by
  obtain ⟨orderly, announced⟩ : Orderly state.shared state.pending ∧
      Announced state.shared state.pending := by
    apply run.invariant
    · exact ⟨Orderly.initial, Announced.initial⟩
    · intro before after event separate taken ⟨orderly, announced⟩
      have steps := Threads.steps_of_step taken
      exact ⟨Threads.orderly_steps separate steps orderly,
        Threads.announced_steps separate steps orderly announced⟩
  rcases announced.delivered isConnected with ⟨connection, hasStream⟩
  have reported := orderly.life.closedOnce hasStream
  refine ⟨connection, hasStream, ?_, ?_, ?_⟩
  · split at reported <;> omega
  · intro gone quiet
    have notPending (task : Task) : ⟨connection, task⟩ ∉ counted state.pending := fun mem =>
      (quiet _ (mem_of_mem_filter mem)).1 rfl
    have unregistered : ¬ state.shared.ingress.streamByFd (state.shared.fdOf connection) =
        some streamId := by
      intro registered
      rcases orderly.life.leaving gone hasStream registered with connecting | removing
      · exact notPending _ connecting
      · exact notPending _ removing
    have delivered : closing (counted state.pending) streamId = 0 := by
      apply countP_eq_zero.mpr
      intro action mem
      exact (quiet action (mem_of_mem_filter mem)).2
    simpa [unregistered, delivered] using reported
  · intro entry isEntry
    have registered := orderly.life.registered isEntry hasStream
    refine ⟨registered, (orderly.streams.listed hasStream).mpr registered, ?_⟩
    intro isClosed
    have positive := List.count_pos_iff.mpr isClosed
    have ended : streamId ∈ state.shared.ingress.readClosedStreams := by
      by_contra notEnded
      rw [if_pos ⟨registered, notEnded⟩] at reported
      omega
    exact orderly.life.ended isEntry hasStream ended

/-- A connection ends, its stream is closed, and the next connection gets its descriptor. -/
theorem descriptor_given_away : ∃ state,
    Run (Threads.step {}) (Threads.Separate {}) {}
      [.accept 5, .proceed 0 true, .proceed 0 true, .proceed 0 true, .proceed 0 true,
        .proceed 0 true, .recvCompleted 0 .failed, .proceed 1 true, .proceed 1 true,
        .proceed 1 true, .proceed 1 true, .accept 5, .proceed 2 true, .proceed 2 true,
        .proceed 2 true, .proceed 2 true, .proceed 2 true] state ∧
    state.shared.ingress.events =
      [connected 4294967297, closed 4294967297, connected 4294967298] ∧
    ∃ connection, state.shared.streamOf connection = some 4294967297 ∧
      state.shared.ingress.events.count (closed 4294967297) ≤ 1 := by
  apply Run.exists_of_execute fun state =>
    state.shared.ingress.events == [connected 4294967297, closed 4294967297, connected 4294967298]
  · decide +kernel
  · intro state run facts
    rw [beq_iff_eq] at facts
    rcases closed_once_of_separate run (show connected 4294967297 ∈ _ by simp [facts])
      with ⟨connection, hasStream, once, _⟩
    exact ⟨facts, connection, hasStream, once⟩

/-- The second connection gets the descriptor while the first one is on its way out. The stream of
the second is closed although the connection is there, and the stream of the first is not. -/
theorem other_stream_closed : ∃ state,
    Run (Threads.step {}) (fun _ _ => True) {}
      [.accept 5, .proceed 0 true, .proceed 0 true, .proceed 0 true, .proceed 0 true,
        .proceed 0 true, .recvCompleted 0 .failed, .proceed 1 true, .accept 5, .proceed 2 true,
        .proceed 2 true, .proceed 2 true, .proceed 2 true, .proceed 2 true, .proceed 1 true,
        .proceed 1 true, .proceed 1 true] state ∧
    state.pending = 0 ∧ state.shared.entry 0 = none ∧
    state.shared.entry 1 = some { connection := 1 } ∧
    state.shared.streamOf 0 = some 4294967297 ∧ state.shared.streamOf 1 = some 4294967298 ∧
    state.shared.ingress.events =
      [connected 4294967297, connected 4294967298, closed 4294967298] ∧
    state.shared.ingress.connectionByStream 4294967298 = none := by
  apply Run.exists_of_execute fun state =>
    state.calls.flatten == [] && state.shared.entry 0 == none &&
      state.shared.entry 1 == some { connection := 1 } &&
      state.shared.streamOf 0 == some 4294967297 && state.shared.streamOf 1 == some 4294967298 &&
      state.shared.ingress.events ==
        [connected 4294967297, connected 4294967298, closed 4294967298] &&
      state.shared.ingress.connectionByStream 4294967298 == none
  · decide +kernel
  · intro state _ facts
    simp only [Bool.and_eq_true, beq_iff_eq, and_assoc] at facts
    rcases facts with ⟨quiet, facts⟩
    exact ⟨congrArg Multiset.ofList quiet, facts⟩

end IotProxy.Proxy
