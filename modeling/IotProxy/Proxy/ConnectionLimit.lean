import IotProxy.Proxy.IngressRuntime

/-!
# The limit of ingress connections

The admission control counts streams. A stream is counted when its connection is reported, and
forgotten when its end is reported. The ingress reports the end of a stream when its connection is
gone, and also when only the client's sending side has ended: the server then keeps the connection,
but it is not counted any more.

The stream of a refused frame is forgotten before its connection is shut down, so that a connection
that is admitted in between is one too many.
-/

namespace IotProxy.Proxy

open Function Option AdmissionControl Interleaving Shared Multiset
open EventSystem (Run)
open IotProxy.Myring (TcpServer)

section Admission

variable {double : DoubleArithmetic} {config : AdmissionControlConfig}
  {admission : AdmissionControl} {nowMs : ℤ} {streamId : ℕ}

@[simp] theorem ingressStreams_tryAcceptIngressBytes {bytes : ℕ} :
    (admission.tryAcceptIngressBytes double config nowMs bytes).1.ingressStreams =
      admission.ingressStreams := by
  unfold tryAcceptIngressBytes refillTokens
  simp only
  split_ifs <;> rfl

theorem mem_ingressStreams_release {other : ℕ} (counted : other ∈ admission.ingressStreams)
    (different : other ≠ streamId) :
    other ∈ (admission.releaseIngressStream streamId).ingressStreams := by
  unfold releaseIngressStream
  split_ifs
  · exact counted
  · simp [counted, different]

theorem length_ingressStreams_release_le :
    (admission.releaseIngressStream streamId).ingressStreams.length ≤
      admission.ingressStreams.length := by
  unfold releaseIngressStream
  split_ifs
  · exact le_rfl
  · exact List.length_filter_le _ _

theorem tryAcceptIngressStream_spec (limited : config.maxIngressStreams ≠ 0)
    (bound : admission.ingressStreams.length ≤ config.maxIngressStreams) :
    (admission.tryAcceptIngressStream config streamId).1.ingressStreams.length ≤
        config.maxIngressStreams ∧
      admission.ingressStreams ⊆
        (admission.tryAcceptIngressStream config streamId).1.ingressStreams ∧
      ((admission.tryAcceptIngressStream config streamId).2 = true →
        streamId ∈ (admission.tryAcceptIngressStream config streamId).1.ingressStreams) := by
  unfold tryAcceptIngressStream
  split_ifs with isZero already full
  · simp [bound]
  · simp [bound, already]
  · simp [bound]
  · have free : admission.ingressStreams.length < config.maxIngressStreams := by omega
    simp [free]

end Admission

section HalfClose

variable {config : TcpIngressConfig} {made : Bool}

theorem Touched.ingress {shared : Shared} {connection : ℕ} {next : Shared × List Action}
    (touches : Touched shared connection next) : next.1.ingress = shared.ingress := by
  cases touches <;> rfl

/-- No section finds a stream whose client has ended its sending side. -/
def Threads.NoHalfClose (threads : Threads) : ThreadEvent → Prop
  | .proceed index _ =>
    ∀ action ∈ next? threads.calls index, action.task = .handleReadClosed →
      threads.shared.ingress.streamByFd (threads.shared.fdOf action.connection) = none
  | _ => True

instance (threads : Threads) : (event : ThreadEvent) → Decidable (threads.NoHalfClose event)
  | .proceed .. => inferInstanceAs (Decidable (∀ action ∈ _, _))
  | .accept _ | .recvCompleted .. | .sendCompleted .. | .operate .. => .isTrue trivial

theorem readClosed_act {shared : Shared} {action : Action}
    (noHalfClose : action.task = .handleReadClosed →
      shared.ingress.streamByFd (shared.fdOf action.connection) = none)
    (noneClosed : shared.ingress.readClosedStreams = ∅) :
    (shared.act config made action).1.ingress.readClosedStreams = ∅ := by
  rcases action with ⟨connection, task⟩
  by_cases isEnd : task = .handleReadClosed
  · subst isEnd
    simp [Shared.act, TcpIngress.closeReading, noHalfClose rfl, noneClosed]
  by_cases isData : ∃ data, task = .handleData data
  · rcases isData with ⟨data, rfl⟩
    rcases act_handleData shared config made connection data with
      ⟨ingress, buffered, more, acted, -, -, readClosed, -⟩
    simp [acted, readClosed, noneClosed]
  · cases task <;> simp only [not_true_eq_false, reduceCtorEq] at isEnd <;>
      simp only [act, finishWrite, TcpIngress.addStream, TcpIngress.advance,
        TcpIngress.removeStream, TcpIngress.notify] <;> (repeat' split) <;> simp_all

theorem readClosed_steps {threads : Threads} {shared : Shared} {pending : Multiset Action}
    {event : ThreadEvent} (noHalfClose : threads.NoHalfClose event)
    (orderly : Orderly threads.shared threads.pending)
    (steps : Threads.Steps config threads event shared pending)
    (noneClosed : threads.shared.ingress.readClosedStreams = ∅) :
    shared.ingress.readClosedStreams = ∅ := by
  cases steps with
  | accept | operate => exact noneClosed
  | @recvCompleted connection result mem =>
    have touches := touched_recvCompleted ((orderly.completeRecv connection result).held.own
      (orderly.recvs connection mem)) result
    rw [touches.ingress]
    exact noneClosed
  | @sendCompleted connection succeeded mem =>
    have touches := touched_sendCompleted ((orderly.completeSend connection).held.own
      (orderly.sends connection mem)) succeeded
    rw [touches.ingress]
    exact noneClosed
  | proceed next before => exact readClosed_act (noHalfClose _ next) noneClosed

end HalfClose

/-- The handler asks whether the stream of a new connection is admitted. -/
def HandlerTask.asks : HandlerTask → Bool
  | .ask event => event.type = .connected
  | _ => false

/-- The stream that the handler is about to shut down. -/
def HandlerTask.shutting? : HandlerTask → Option ℕ
  | .shutdownStream streamId => some streamId
  | _ => none

namespace IngressRuntime

/-- No admitted stream is about to be shut down. -/
def Settled (state : IngressRuntime) : Prop :=
  (∀ index < state.threads.calls.length, ∀ task ∈ state.handlers index,
    ∀ streamId ∈ task.shutting?, streamId ∉ state.admitted) ∧
  ∀ action ∈ state.threads.pending, action.task = .shutdownConnection →
    ∀ streamId ∈ state.threads.shared.streamOf action.connection, streamId ∉ state.admitted

instance (state : IngressRuntime) : Decidable state.Settled :=
  inferInstanceAs (Decidable (_ ∧ _))

/-- Descriptors and stream ids are not used by two connections, no client ends its sending side
alone, and no connection is admitted while an admitted stream is about to be shut down. -/
def Limited (config : IngressRuntimeConfig) (state : IngressRuntime) : IngressRuntimeEvent → Prop
  | .thread event => state.threads.Separate config.ingress event ∧ state.threads.NoHalfClose event
  | .handle index => ∀ task ∈ state.handlers index, task.asks = true → state.Settled
  | _ => True

instance (config : IngressRuntimeConfig) (state : IngressRuntime) :
    (event : IngressRuntimeEvent) → Decidable (Limited config state event)
  | .thread _ => inferInstanceAs (Decidable (_ ∧ _))
  | .handle _ => inferInstanceAs (Decidable (∀ task ∈ _, _))
  | .clock _ | .tunnelFrame _ => .isTrue trivial

/-- The connection is in the server's table, and its stream was admitted. -/
def OpenAdmitted (state : IngressRuntime) (connection : ℕ) : Prop :=
  state.threads.shared.server.connected connection = true ∧
    ∃ streamId ∈ state.threads.shared.streamOf connection, streamId ∈ state.admitted

instance (state : IngressRuntime) (connection : ℕ) : Decidable (state.OpenAdmitted connection) :=
  inferInstanceAs (Decidable (_ ∧ ∃ streamId ∈ _, _))

structure Counted (limit : ℕ) (state : IngressRuntime) : Prop where
  serving : state.Serving
  noneClosed : state.threads.shared.ingress.readClosedStreams = ∅
  known : ∀ streamId ∈ state.admitted, ∃ connection,
    state.threads.shared.streamOf connection = some streamId
  bound : state.admission.ingressStreams.length ≤ limit
  /-- A stream is counted for as long as its connection is there, unless it is about to be shut
  down. -/
  counted : ∀ ⦃connection streamId⦄, state.threads.shared.server.connected connection = true →
    state.threads.shared.streamOf connection = some streamId → streamId ∈ state.admitted →
      streamId ∈ state.admission.ingressStreams ∨
        (∃ index, state.handlers index = some (.shutdownStream streamId)) ∨
        ⟨connection, .shutdownConnection⟩ ∈ state.threads.pending
  limited : ∀ ⦃connections : Finset ℕ⦄, (∀ connection ∈ connections,
    state.OpenAdmitted connection) → connections.card ≤ limit

namespace Counted

variable {config : IngressRuntimeConfig} {state : IngressRuntime} {limit index : ℕ}

theorem initial (startMs : ℤ) : Counted limit (IngressRuntime.initial config startMs) where
  serving := .initial startMs
  noneClosed := rfl
  known := by simp [IngressRuntime.initial]
  bound := Nat.zero_le _
  counted := by simp [IngressRuntime.initial]
  limited := by
    intro connections isOpen
    have none : connections = ∅ := by
      apply Finset.eq_empty_of_forall_notMem
      intro connection mem
      simpa [OpenAdmitted, IngressRuntime.initial] using isOpen connection mem
    simp [none]

/-- The connections that are open and admitted have different streams, which are all counted. -/
theorem card_le {shared : Shared} {streams admitted : List ℕ} (tables : Streams shared)
    (counted : ∀ ⦃connection streamId⦄, shared.server.connected connection = true →
      shared.streamOf connection = some streamId → streamId ∈ admitted → streamId ∈ streams)
    {connections : Finset ℕ} (isOpen : ∀ connection ∈ connections,
      shared.server.connected connection = true ∧
        ∃ streamId ∈ shared.streamOf connection, streamId ∈ admitted) :
    connections.card ≤ streams.length := by
  have hasStream : ∀ connection ∈ connections,
      shared.streamOf connection = some ((shared.streamOf connection).getD 0) := by
    intro connection mem
    obtain ⟨-, streamId, isStream, -⟩ := isOpen connection mem
    rw [mem_def.mp isStream]
    rfl
  calc connections.card
      ≤ streams.toFinset.card := by
        apply Finset.card_le_card_of_injOn fun connection =>
          (shared.streamOf connection).getD 0
        · intro connection mem
          obtain ⟨live, streamId, isStream, isAdmitted⟩ := isOpen connection mem
          have isCounted := counted live isStream isAdmitted
          simpa [mem_def.mp isStream] using isCounted
        · intro connection mem other isOther same
          have otherHas := hasStream other isOther
          simp only at same
          rw [← same] at otherHas
          exact tables.injective (hasStream connection mem) otherHas
    _ ≤ streams.length := List.toFinset_card_le _

/-- The threads take a step, and the call that takes it may get into a handler. -/
theorem thread {event : ThreadEvent} {threads : Threads} {handlers : ℕ → Option HandlerTask}
    {cut : List (ℕ × Bytes)} {ended : List ℕ} (counted : state.Counted limit)
    (separate : state.threads.Separate config.ingress event)
    (noHalfClose : state.threads.NoHalfClose event)
    (stepped : state.threads.step config.ingress event = some threads)
    (serving : Serving { state with threads, handlers, cut, ended })
    (keeps : ∀ ⦃index task⦄, state.handlers index = some task → handlers index = some task) :
    Counted limit { state with threads, handlers, cut, ended } := by
  have traced := counted.serving.traced separate stepped
  refine ⟨serving, readClosed_steps noHalfClose counted.serving.orderly
    (Threads.steps_of_step stepped) counted.noneClosed, ?_, counted.bound, ?_, ?_⟩
  · intro streamId isAdmitted
    obtain ⟨connection, hasStream⟩ := counted.known streamId isAdmitted
    exact ⟨connection, traced.kept hasStream⟩
  · intro connection streamId live hasStream isAdmitted
    obtain ⟨owner, ownerHas⟩ := counted.known streamId isAdmitted
    obtain ⟨wasLive, hadStream⟩ := traced.owned live hasStream ownerHas
    rcases counted.counted wasLive hadStream isAdmitted with isCounted | ⟨index, shuts⟩ | shuts
    · exact .inl isCounted
    · exact .inr (.inl ⟨index, keeps shuts⟩)
    · exact .inr (.inr (traced.shutting live shuts))
  · intro connections isOpen
    apply counted.limited
    intro connection mem
    obtain ⟨live, streamId, hasStream, isAdmitted⟩ := isOpen connection mem
    obtain ⟨owner, ownerHas⟩ := counted.known streamId isAdmitted
    obtain ⟨wasLive, hadStream⟩ := traced.owned live hasStream ownerHas
    exact ⟨wasLive, streamId, hadStream, isAdmitted⟩

/-- A handler takes a step that admits nothing. -/
theorem next {admission : AdmissionControl} {handed : List HandedFrame} {ended : List ℕ}
    {earlier : HandlerTask} {task : Option HandlerTask} (counted : state.Counted limit)
    (serving : Serving ({ state with admission, handed, ended }.next index task))
    (inHandler : state.handlers index = some earlier)
    (notShutting : ∀ streamId, earlier ≠ .shutdownStream streamId)
    (bound : admission.ingressStreams.length ≤ limit)
    (keeps : ∀ ⦃connection streamId⦄, state.threads.shared.server.connected connection = true →
      state.threads.shared.streamOf connection = some streamId →
      streamId ∈ state.admission.ingressStreams →
        streamId ∈ admission.ingressStreams ∨ task = some (.shutdownStream streamId)) :
    Counted limit ({ state with admission, handed, ended }.next index task) := by
  refine ⟨serving, counted.noneClosed, counted.known, bound, ?_, counted.limited⟩
  intro connection streamId live hasStream isAdmitted
  rcases counted.counted live hasStream isAdmitted with isCounted | ⟨position, shuts⟩ | shuts
  · rcases keeps live hasStream isCounted with still | isTask
    · exact .inl still
    · exact .inr (.inl ⟨index, by simp [IngressRuntime.next, isTask]⟩)
  · have different : position ≠ index := by
      rintro rfl
      exact notShutting streamId (Option.some.inj (inHandler.symm.trans shuts))
    exact .inr (.inl ⟨position, by simpa [IngressRuntime.next, different] using shuts⟩)
  · exact .inr (.inr shuts)

/-- The stream of a handler is shut down. -/
theorem shutdownStream {streamId : ℕ} (counted : state.Counted limit)
    (shuts : state.handlers index = some (.shutdownStream streamId)) :
    Counted limit (state.handle config index (.shutdownStream streamId)) := by
  have orderly := counted.serving.orderly
  refine ⟨counted.serving.shutdownStream shuts, counted.noneClosed, counted.known, counted.bound,
    ?_, counted.limited⟩
  intro connection own live hasStream isAdmitted
  rw [counted.serving.pending_shutdownStream shuts]
  rcases counted.counted live hasStream isAdmitted with isCounted | ⟨position, shutsOwn⟩ | pends
  · exact .inl isCounted
  · by_cases here : position = index
    · subst here
      cases shuts.symm.trans shutsOwn
      obtain ⟨entry, isEntry⟩ := Option.isSome_iff_exists.mp
        ((orderly.held.live connection).symm.trans live)
      have isListed := (orderly.streams.listed hasStream).mpr
        (orderly.life.registered isEntry hasStream)
      refine .inr (.inr (mem_add.mpr (.inl ?_)))
      simp [Shared.operate, orderly.streams.nonzero hasStream, isListed, StreamOperation.task]
    · exact .inr (.inl ⟨position, by
        simpa [IngressRuntime.handle, IngressRuntime.next, here] using shutsOwn⟩)
  · exact .inr (.inr (mem_add.mpr (.inr pends)))

theorem closed_notMem {connection streamId : ℕ} (counted : state.Counted limit)
    (live : state.threads.shared.server.connected connection = true)
    (hasStream : state.threads.shared.streamOf connection = some streamId) :
    closed streamId ∉ state.threads.shared.ingress.events := by
  obtain ⟨entry, isEntry⟩ := Option.isSome_iff_exists.mp
    ((counted.serving.orderly.held.live connection).symm.trans live)
  have closedOnce := counted.serving.orderly.life.closedOnce hasStream
  rw [if_pos ⟨counted.serving.orderly.life.registered isEntry hasStream, by simp [counted.noneClosed]⟩]
    at closedOnce
  exact List.count_eq_zero.mp (Nat.eq_zero_of_add_eq_zero_right closedOnce)

/-- A connection is admitted while no admitted one is about to be shut down: they are all counted. -/
theorem admitted {admission : AdmissionControl} {event : TcpEvent} (counted : state.Counted limit)
    (asked : state.handlers index = some (.ask event)) (isConnected : event.type = .connected)
    (settled : state.Settled) (bound : admission.ingressStreams.length ≤ limit)
    (kept : state.admission.ingressStreams ⊆ admission.ingressStreams)
    (isCounted : event.streamId ∈ admission.ingressStreams)
    (serving : Serving ({ state with
      admission, admitted := event.streamId :: state.admitted }.next index (some (.hand event)))) :
    Counted limit ({ state with admission, admitted := event.streamId :: state.admitted }.next index
      (some (.hand event))) := by
  have counts ⦃connection streamId : ℕ⦄
      (live : state.threads.shared.server.connected connection = true)
      (hasStream : state.threads.shared.streamOf connection = some streamId)
      (isAdmitted : streamId ∈ event.streamId :: state.admitted) :
      streamId ∈ admission.ingressStreams := by
    rcases List.mem_cons.mp isAdmitted with rfl | before
    · exact isCounted
    rcases counted.counted live hasStream before with still | ⟨position, shuts⟩ | shuts
    · exact kept still
    · exact absurd before (settled.1 position (counted.serving.inCall shuts) _ shuts streamId rfl)
    · exact absurd before (settled.2 _ shuts rfl streamId hasStream)
  refine ⟨serving, counted.noneClosed, ?_, bound,
    fun _ _ live hasStream isAdmitted => .inl (counts live hasStream isAdmitted), ?_⟩
  · intro streamId isAdmitted
    rcases List.mem_cons.mp isAdmitted with rfl | before
    · rcases (counted.serving.raised asked rfl).2 with (isData | isClosed) | ⟨-, hasStream⟩
      · simp [isConnected] at isData
      · cases isConnected.symm.trans (congrArg TcpEvent.type isClosed)
      · exact hasStream
    · exact counted.known streamId before
  · intro connections isOpen
    exact (card_le counted.serving.orderly.streams counts isOpen).trans bound

theorem ask {event : TcpEvent} (limited : config.admission.maxIngressStreams ≠ 0)
    (counted : state.Counted config.admission.maxIngressStreams)
    (asked : state.handlers index = some (.ask event))
    (settled : event.type = .connected → state.Settled) :
    Counted config.admission.maxIngressStreams (state.handle config index (.ask event)) := by
  have serving : Serving (state.handle config index (.ask event)) :=
    counted.serving.handle asked
  simp only [IngressRuntime.handle, IngressRuntime.ask] at serving ⊢
  cases isType : event.type <;> simp only [isType] at serving ⊢
  case connected =>
    obtain ⟨bound, kept, isCounted⟩ := @tryAcceptIngressStream_spec config.admission
      state.admission event.streamId limited counted.bound
    generalize state.admission.tryAcceptIngressStream config.admission event.streamId = outcome
      at bound kept isCounted serving ⊢
    obtain ⟨admission, accepted⟩ := outcome
    cases accepted with
    | true =>
      exact counted.admitted asked isType (settled isType) bound kept (isCounted rfl) serving
    | false =>
      exact counted.next serving asked (by simp) bound
        fun _ _ _ _ wasCounted => .inl (kept wasCounted)
  case closed =>
    apply counted.next serving asked (by simp)
      (length_ingressStreams_release_le.trans counted.bound)
    intro connection streamId live hasStream wasCounted
    left
    apply mem_ingressStreams_release wasCounted
    rintro rfl
    obtain ⟨mem, (isData | isClosed) | ⟨isConnected, -⟩⟩ := counted.serving.raised asked rfl
    · simp [isType] at isData
    · exact counted.closed_notMem live hasStream (isClosed ▸ mem)
    · cases isType.symm.trans (congrArg TcpEvent.type isConnected)
  case data =>
    have same := @ingressStreams_tryAcceptIngressBytes config.double config.admission
      state.admission state.steadyMs event.payload.length
    generalize state.admission.tryAcceptIngressBytes config.double config.admission state.steadyMs
      event.payload.length = outcome at same serving ⊢
    obtain ⟨admission, accepted⟩ := outcome
    have keeps ⦃streamId : ℕ⦄ (wasCounted : streamId ∈ state.admission.ingressStreams) :
        streamId ∈ admission.ingressStreams := same ▸ wasCounted
    cases accepted with
    | true =>
      exact counted.next serving asked (by simp) (same ▸ counted.bound)
        fun _ _ _ _ wasCounted => .inl (keeps wasCounted)
    | false =>
      exact counted.next serving asked (by simp) (same ▸ counted.bound)
        fun _ _ _ _ wasCounted => .inl (keeps wasCounted)

theorem handle {task : HandlerTask} (limited : config.admission.maxIngressStreams ≠ 0)
    (counted : state.Counted config.admission.maxIngressStreams)
    (inHandler : state.handlers index = some task) (settled : task.asks = true → state.Settled) :
    Counted config.admission.maxIngressStreams (state.handle config index task) := by
  cases task with
  | ask event =>
    exact counted.ask limited inHandler fun isConnected => settled (by simp [HandlerTask.asks,
      isConnected])
  | release streamId =>
    apply counted.next (@Serving.handle config _ _ _ counted.serving inHandler) inHandler (by simp)
      (length_ingressStreams_release_le.trans counted.bound)
    intro connection other live hasStream wasCounted
    by_cases isSame : other = streamId
    · exact .inr (by rw [isSame])
    · exact .inl (mem_ingressStreams_release wasCounted isSame)
  | shutdownStream streamId => exact counted.shutdownStream inHandler
  | hand event =>
    exact counted.next (@Serving.handle config _ _ _ counted.serving inHandler) inHandler (by simp)
      counted.bound
      fun _ _ _ _ wasCounted => .inl wasCounted

theorem proceed {made : Bool} {after : IngressRuntime} (counted : state.Counted limit)
    (separate : state.threads.Separate config.ingress (.proceed index made))
    (noHalfClose : state.threads.NoHalfClose (.proceed index made))
    (taken : state.proceed config index made = some after) : Counted limit after := by
  have serving := counted.serving.proceed separate taken
  simp only [IngressRuntime.proceed, bind_eq_bind, bind_eq_some_iff, ite_none_right_eq_some] at taken
  obtain ⟨action, -, threads, stepped, isFree, isAfter⟩ := taken
  cases isAfter
  apply counted.thread separate noHalfClose stepped serving
  intro position task isTask
  have different : position ≠ index := by
    rintro rfl
    simp [isFree] at isTask
  simpa [different] using isTask

theorem step {event : IngressRuntimeEvent} {after : IngressRuntime}
    (limited : config.admission.maxIngressStreams ≠ 0)
    (counted : state.Counted config.admission.maxIngressStreams)
    (condition : Limited config state event) (taken : state.step config event = some after) :
    Counted config.admission.maxIngressStreams after := by
  have serving : after.Serving := by
    apply counted.serving.step _ taken
    rintro own rfl
    exact condition.1
  cases event with
  | clock steadyMs =>
    cases taken
    exact ⟨serving, counted.noneClosed, counted.known, counted.bound, counted.counted,
      counted.limited⟩
  | tunnelFrame bytes =>
    cases taken
    exact ⟨serving, counted.noneClosed, counted.known, by simpa using counted.bound,
      by simpa using counted.counted, counted.limited⟩
  | thread event =>
    cases event with
    | proceed index made => exact counted.proceed condition.1 condition.2 taken
    | accept | recvCompleted | sendCompleted | operate =>
      simp only [IngressRuntime.step, map_eq_some_iff] at taken
      obtain ⟨threads, stepped, rfl⟩ := taken
      exact counted.thread condition.1 condition.2 stepped serving fun _ _ => id
  | handle index =>
    obtain ⟨task, inHandler, rfl⟩ := map_eq_some_iff.mp taken
    exact counted.handle limited inHandler (condition task inHandler)

end Counted

end IngressRuntime

end IotProxy.Proxy
