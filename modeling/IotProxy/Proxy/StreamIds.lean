import IotProxy.Proxy.StreamEvents

/-!
# The ids of ingress streams

A connection gets the next number of a 32-bit counter as the id of its stream, whether or not
another stream has it. The tables of the ingress have one connection for an id and one id for a
descriptor, so that a connection is found under its id only while no other one has got the id or the
descriptor.
-/

namespace IotProxy.Proxy

open EventSystem Interleaving Shared Multiset Option Function
open IotProxy.Myring (ConnectionState)

variable {config : TcpIngressConfig} {made : Bool} {shared : Shared}

theorem Shared.counter_act {action : Action} (noStart : action.task ≠ .addStream) :
    (shared.act config made action).1.ingress.nextStreamId = shared.ingress.nextStreamId ∧
      (shared.act config made action).1.streamOf = shared.streamOf := by
  rcases action with ⟨connection, task⟩
  cases task with
  | addStream => exact absurd rfl noStart
  | handleData data =>
    simp only [act, TcpIngress.bufferData]
    cases shared.ingress.streamByFd (shared.fdOf connection) <;> exact ⟨rfl, rfl⟩
  | _ =>
    simp only [act, finishWrite, TcpIngress.removeStream, TcpIngress.closeReading, TcpIngress.notify]
    (repeat' split) <;> simp_all

/-- The ids were drawn from the counter, which has not come to its end. -/
structure Drawn (config : TcpIngressConfig) (shared : Shared) : Prop where
  positive : 0 < shared.ingress.nextStreamId
  bounded : shared.ingress.nextStreamId ≤ 2 ^ 32
  below : ∀ ⦃connection streamId⦄, shared.streamOf connection = some streamId →
    streamId < config.nodeId * 2 ^ 32 + shared.ingress.nextStreamId

namespace Drawn

theorem same {after : Shared} (drawn : Drawn config shared)
    (counter : after.ingress.nextStreamId = shared.ingress.nextStreamId)
    (streamOf : after.streamOf = shared.streamOf) : Drawn config after := by
  refine ⟨counter ▸ drawn.positive, counter ▸ drawn.bounded, ?_⟩
  rw [counter, streamOf]
  exact drawn.below

theorem newStreamId_eq (drawn : Drawn config shared) (inRange : shared.ingress.nextStreamId < 2 ^ 32) :
    shared.ingress.newStreamId config = config.nodeId * 2 ^ 32 + shared.ingress.nextStreamId := by
  have positive := drawn.positive
  rw [TcpIngress.newStreamId, Nat.mod_eq_of_lt inRange, if_neg (by omega)]

theorem addStream {connection : ℕ} (drawn : Drawn config shared)
    (inRange : shared.ingress.nextStreamId < 2 ^ 32) :
    Drawn config (shared.act config made ⟨connection, .addStream⟩).1 := by
  have isNew := drawn.newStreamId_eq inRange
  have counter : shared.ingress.advance.nextStreamId = shared.ingress.nextStreamId + 1 := by
    have positive := drawn.positive
    simp only [TcpIngress.advance, Nat.mod_eq_of_lt inRange]
    rw [if_neg (by omega), Nat.mod_eq_of_lt (by omega)]
  refine ⟨by simp [Shared.act, TcpIngress.addStream, counter], ?_, ?_⟩
  · simpa [Shared.act, TcpIngress.addStream, counter] using inRange
  · intro other streamId hasStream
    simp only [Shared.act, TcpIngress.addStream, counter] at hasStream ⊢
    by_cases isSame : other = connection
    · rw [isSame, update_self, Option.some.injEq] at hasStream
      omega
    · rw [update_of_ne isSame] at hasStream
      exact (drawn.below hasStream).trans (by omega)

end Drawn

namespace Threads

/-- As `Separate`, with a counter that is in its range when a stream is registered. -/
def Unwrapped (config : TcpIngressConfig) (state : Threads) : ThreadEvent → Prop
  | .proceed index _ => ∀ action ∈ next? state.calls index, action.task = .addStream →
      state.shared.server.connected action.connection = true ∧
      state.shared.ingress.nextStreamId < 2 ^ 32
  | event => state.Separate config event

instance (config : TcpIngressConfig) (state : Threads) :
    (event : ThreadEvent) → Decidable (state.Unwrapped config event)
  | .proceed .. => inferInstanceAs (Decidable (∀ action ∈ _, _))
  | .accept fd => inferInstanceAs (Decidable (state.Separate config (.accept fd)))
  | .sendCompleted .. | .operate .. | .recvCompleted .. => .isTrue trivial

variable {state : Threads} {event : ThreadEvent}

theorem separate_of_unwrapped (unwrapped : state.Unwrapped config event)
    (drawn : Drawn config state.shared) : state.Separate config event := by
  cases event with
  | proceed index made =>
    intro action isNext isStart
    obtain ⟨connected, inRange⟩ := unwrapped action isNext isStart
    refine ⟨connected, ?_⟩
    intro other _ hasStream
    have below := drawn.below hasStream
    rw [drawn.newStreamId_eq inRange] at below
    omega
  | _ => exact unwrapped

theorem drawn_steps {pending : Multiset Action} (unwrapped : state.Unwrapped config event)
    (steps : Steps config state event shared pending) (drawn : Drawn config state.shared) :
    Drawn config shared := by
  cases steps with
  | accept | operate => exact drawn.same rfl rfl
  | recvCompleted | sendCompleted =>
    simp only [Shared.recvCompleted, Shared.sendCompleted, Shared.finishWrite]
    (repeat' split) <;> exact drawn.same rfl rfl
  | @proceed index made action others isNext before =>
    by_cases isStart : action.task = .addStream
    · rcases action with ⟨connection, task⟩
      cases isStart
      exact drawn.addStream (unwrapped _ isNext rfl).2
    · obtain ⟨counter, streamOf⟩ := Shared.counter_act isStart
      exact drawn.same counter streamOf

end Threads

/-- In every run in which descriptors are not used by two connections and the counter is in its range,
the connections that are there have different stream ids, and each is listed under its own. -/
theorem streams_mapped {events : List ThreadEvent} {state : Threads}
    (run : Run (Threads.step config) (Threads.Unwrapped config) {} events state)
    {connection streamId : ℕ} {entry : ConnectionState}
    (isEntry : state.shared.entry connection = some entry)
    (hasStream : state.shared.streamOf connection = some streamId) :
    state.shared.ingress.connectionByStream streamId = some connection ∧
      ∀ other otherEntry, state.shared.entry other = some otherEntry →
        state.shared.streamOf other = some streamId → other = connection := by
  obtain ⟨orderly, -⟩ : Orderly state.shared state.pending ∧ Drawn config state.shared := by
    apply run.invariant
    · exact ⟨Orderly.initial, ⟨by decide, by decide, by simp⟩⟩
    · rintro before after event unwrapped taken ⟨orderly, drawn⟩
      have steps := Threads.steps_of_step taken
      exact ⟨Threads.orderly_steps (Threads.separate_of_unwrapped unwrapped drawn) steps orderly,
        Threads.drawn_steps unwrapped steps drawn⟩
  refine ⟨(orderly.streams.listed hasStream).mpr (orderly.life.registered isEntry hasStream), ?_⟩
  intro other _ _ otherHas
  exact orderly.streams.injective otherHas hasStream

/-- Two connections are there, each under its own id. -/
theorem two_streams_mapped : ∃ state,
    Run (Threads.step {}) (Threads.Unwrapped {}) {}
      [.accept 5, .proceed 0 true, .proceed 0 true, .proceed 0 true, .proceed 0 true, .accept 6,
        .proceed 1 true, .proceed 1 true, .proceed 1 true, .proceed 1 true] state ∧
    state.shared.ingress.connectionByStream 4294967297 = some 0 ∧
    state.shared.ingress.connectionByStream 4294967298 = some 1 := by
  apply Run.exists_of_execute fun state =>
    state.shared.entry 0 == some { connection := 0 } &&
      state.shared.entry 1 == some { connection := 1 } &&
      state.shared.streamOf 0 == some 4294967297 && state.shared.streamOf 1 == some 4294967298
  · decide +kernel
  · intro state run facts
    simp only [Bool.and_eq_true, beq_iff_eq, and_assoc] at facts
    rcases facts with ⟨first, second, firstHas, secondHas⟩
    exact ⟨(streams_mapped run first firstHas).1, (streams_mapped run second secondHas).1⟩

/-- The first connection is on its way out when the second one gets its descriptor and its stream. The
stream that is removed is that of the second one, which is there and is not listed any more. -/
theorem open_stream_unlisted : ∃ state,
    Run (Threads.step {}) (fun _ _ => True) {}
      [.accept 5, .proceed 0 true, .proceed 0 true, .proceed 0 true, .proceed 0 true,
        .proceed 0 true, .recvCompleted 0 .failed, .proceed 1 true, .accept 5, .proceed 2 true,
        .proceed 2 true, .proceed 2 true, .proceed 2 true, .proceed 1 true, .proceed 1 true] state ∧
    state.shared.entry 1 = some { connection := 1 } ∧
    state.shared.streamOf 1 = some 4294967298 ∧
    state.shared.ingress.connectionByStream 4294967298 = none := by
  apply Run.exists_of_execute fun state =>
    state.shared.entry 1 == some { connection := 1 } &&
      state.shared.streamOf 1 == some 4294967298 &&
      state.shared.ingress.connectionByStream 4294967298 == none
  · decide +kernel
  · intro state _ facts
    simpa only [Bool.and_eq_true, beq_iff_eq, and_assoc] using facts

end IotProxy.Proxy
