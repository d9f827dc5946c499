import IotProxy.Proxy.Runtime
import IotProxy.Proxy.StreamEvents

/-!
# The runtime over the ingress threads

The handler of a TCP event runs inside the call that raises the event, when no lock is held.
`ProxyRuntime::on_tcp_event` asks the admission control, releases a stream, shuts one down, or hands
a frame to the KCP sender. Each of these is a step of its own, and between two of them the other
threads go on. The call itself goes on when its handler has returned.

`admitted`, `cut` and `ended` record the streams that were admitted, the frames that were cut for the
streams, and the streams that have ended or of which something was refused.
-/

namespace IotProxy.Proxy

open Function Interleaving Multiset Option Shared
open IotProxy.Myring (TcpServer)

/-- A frame that is handed to the KCP sender. -/
structure HandedFrame where
  type : TunnelFrameType
  streamId : ℕ
  payload : Bytes
  deriving DecidableEq

/-- What `PassThroughBusiness::on_tcp_event` hands to the KCP sender for an event. -/
def TcpEvent.handed (event : TcpEvent) : List HandedFrame :=
  if event.streamId = 0 then []
  else
    match event.type with
    | .connected => [⟨.open, event.streamId, []⟩]
    | .data => [⟨.data, event.streamId, event.payload⟩]
    | .closed => [⟨.finish, event.streamId, []⟩]

/-- The steps of `ProxyRuntime::on_tcp_event`. -/
inductive HandlerTask where
  | ask (event : TcpEvent)
  | release (streamId : ℕ)
  | shutdownStream (streamId : ℕ)
  | hand (event : TcpEvent)
  deriving DecidableEq

/-- The event that is handled. -/
def HandlerTask.event? : HandlerTask → Option TcpEvent
  | .ask event | .hand event => some event
  | .release _ | .shutdownStream _ => none

/-- The handler that a section of the ingress calls, if any. -/
def Task.handler : Task → Option HandlerTask
  | .notify event => if event.streamId = 0 then none else some (.ask event)
  | _ => none

namespace Shared

variable (config : TcpIngressConfig) (shared : Shared) (action : Action)

/-- The stream and the frames that a section of `handle_data` cuts off the buffer. -/
def extracted? : Option (ℕ × TcpIngress.Extracted) :=
  match action.task with
  | .handleData data =>
    (shared.ingress.bufferData config (shared.fdOf action.connection) data).2
  | _ => none

/-- The frames that a section cuts, with their stream. -/
def framesCut : List (ℕ × Bytes) :=
  (shared.extracted? config action).toList.flatMap fun (streamId, extracted) =>
    extracted.frames.map (streamId, ·)

/-- The streams that a section ends, or of which it refuses a chunk. -/
def streamsEnded : List ℕ :=
  match action.task with
  | .removeStream | .handleReadClosed =>
    (shared.ingress.streamByFd (shared.fdOf action.connection)).toList
  | _ => ((shared.extracted? config action).filter (·.2.closeConnection)).toList.map Prod.fst

end Shared

structure IngressRuntimeConfig where
  double : DoubleArithmetic
  ingress : TcpIngressConfig := {}
  admission : AdmissionControlConfig := {}

structure IngressRuntime where
  threads : Threads := {}
  /-- What the handler does next that a call is in. -/
  handlers : ℕ → Option HandlerTask := fun _ => none
  admission : AdmissionControl
  steadyMs : ℤ := 0
  handed : List HandedFrame := []
  admitted : List ℕ := []
  cut : List (ℕ × Bytes) := []
  ended : List ℕ := []

inductive IngressRuntimeEvent where
  | clock (steadyMs : ℤ)
  /-- A frame of the tunnel takes its bytes from the same bucket. -/
  | tunnelFrame (bytes : ℕ)
  | thread (event : ThreadEvent)
  | handle (index : ℕ)

namespace IngressRuntime

variable (config : IngressRuntimeConfig) (state : IngressRuntime)

/-- The state before anything has been accepted. -/
def initial (startMs : ℤ) : IngressRuntime where
  admission := .new config.double config.admission startMs
  steadyMs := startMs

/-- The handler that a call is in goes on with another step, or returns. -/
def next (index : ℕ) (task : Option HandlerTask) : IngressRuntime :=
  { state with handlers := Function.update state.handlers index task }

/-- The admission control is asked about an event. The end of a stream is always admitted. -/
def ask (index : ℕ) (event : TcpEvent) : IngressRuntime :=
  match event.type with
  | .connected =>
    let (admission, accepted) :=
      state.admission.tryAcceptIngressStream config.admission event.streamId
    if accepted then
      { state with admission, admitted := event.streamId :: state.admitted }.next index
        (some (.hand event))
    else { state with admission }.next index (some (.shutdownStream event.streamId))
  | .closed =>
    { state with admission := state.admission.releaseIngressStream event.streamId }.next index
      (some (.hand event))
  | .data =>
    let (admission, accepted) := state.admission.tryAcceptIngressBytes config.double
      config.admission state.steadyMs event.payload.length
    if accepted then { state with admission }.next index (some (.hand event))
    else
      { state with admission, ended := event.streamId :: state.ended }.next index
        (some (.release event.streamId))

/-- One step of the handler that a call is in. A stream is shut down inside the call. -/
def handle (index : ℕ) : HandlerTask → IngressRuntime
  | .ask event => state.ask config index event
  | .release streamId =>
    { state with admission := state.admission.releaseIngressStream streamId }.next index
      (some (.shutdownStream streamId))
  | .shutdownStream streamId =>
    { state with
      threads.calls := prepend state.threads.calls index
        (state.threads.shared.operate streamId .shutdownStream) }.next index none
  | .hand event => { state with handed := state.handed ++ event.handed }.next index none

/-- A call that is not in a handler takes its next action. -/
def proceed (index : ℕ) (made : Bool) : Option IngressRuntime := do
  let action ← next? state.threads.calls index
  let threads ← state.threads.step config.ingress (.proceed index made)
  if state.handlers index = none then
    return { state with
      threads
      cut := state.cut ++ state.threads.shared.framesCut config.ingress action
      ended := state.threads.shared.streamsEnded config.ingress action ++ state.ended
      }.next index action.task.handler
  else none

/-- One step of the runtime: time passes, the tunnel takes bytes, a thread of the ingress or the
kernel takes a step, or the handler that a call is in does. -/
def step : IngressRuntimeEvent → Option IngressRuntime
  | .clock steadyMs => some { state with steadyMs }
  | .tunnelFrame bytes =>
    some { state with
      admission := (state.admission.tryAcceptIngressBytes config.double config.admission
        state.steadyMs bytes).1 }
  | .thread (.proceed index made) => state.proceed config index made
  | .thread event => (state.threads.step config.ingress event).map ({ state with threads := · })
  | .handle index => (state.handlers index).map (state.handle config index)

end IngressRuntime

section Steps

variable {config : TcpIngressConfig} {made : Bool}

/-- What a step of the threads leaves as it was. Whoever is there with a stream that was known
before was there with it, and whoever is about to be shut down is gone or still about to be. -/
structure Traced (threads : Threads) (shared : Shared) (pending : Multiset Action) : Prop where
  kept : ∀ ⦃connection streamId⦄, threads.shared.streamOf connection = some streamId →
    shared.streamOf connection = some streamId
  owned : ∀ ⦃connection owner streamId⦄, shared.server.connected connection = true →
    shared.streamOf connection = some streamId → threads.shared.streamOf owner = some streamId →
      threads.shared.server.connected connection = true ∧
        threads.shared.streamOf connection = some streamId
  events : threads.shared.ingress.events ⊆ shared.ingress.events
  shutting : ∀ ⦃connection⦄, shared.server.connected connection = true →
    ⟨connection, .shutdownConnection⟩ ∈ threads.pending →
      ⟨connection, .shutdownConnection⟩ ∈ pending

namespace Traced

variable {threads : Threads} {shared : Shared} {pending : Multiset Action}

theorem of_streamOf (streamOf : shared.streamOf = threads.shared.streamOf)
    (events : threads.shared.ingress.events ⊆ shared.ingress.events)
    (still : ∀ ⦃connection streamId⦄, shared.streamOf connection = some streamId →
      shared.server.connected connection = true → threads.shared.server.connected connection = true)
    (shutting : ∀ ⦃connection⦄, shared.server.connected connection = true →
      ⟨connection, .shutdownConnection⟩ ∈ threads.pending →
        ⟨connection, .shutdownConnection⟩ ∈ pending) : Traced threads shared pending where
  kept _ _ hasStream := streamOf ▸ hasStream
  owned _ _ _ live hasStream _ := ⟨still hasStream live, streamOf ▸ hasStream⟩
  events := events
  shutting := shutting

theorem act {action : Action} {others : Multiset Action}
    (orderly : Orderly threads.shared (action ::ₘ others))
    (pending : threads.pending = action ::ₘ others)
    (beginning : action.task = .addStream →
      threads.shared.server.connected action.connection = true ∧
      ∀ other, threads.shared.streamOf other ≠ some (threads.shared.ingress.newStreamId config)) :
    Traced threads (threads.shared.act config made action).1
      ((threads.shared.act config made action).2 + others) := by
  have own := (orderly.held.mono (le_cons_self others action)).own
    (orderly.held.current action (mem_cons_self _ _))
  have shutting ⦃connection : ℕ⦄
      (live : (threads.shared.act config made action).1.server.connected connection = true)
      (mem : ⟨connection, .shutdownConnection⟩ ∈ threads.pending) :
      ⟨connection, .shutdownConnection⟩ ∈
        ((threads.shared.act config made action).2 + others : Multiset Action) := by
    rw [pending, mem_cons] at mem
    rcases mem with rfl | before
    · exfalso
      simp only [Shared.act, TcpServer.shutdown] at live
      cases found : threads.shared.server.connections (threads.shared.fdOf connection) with
      | none =>
        simp only [found] at live
        rw [orderly.held.live, Shared.entry, found] at live
        cases live
      | some entry => simp [found, own entry found, TcpServer.erase] at live
    · exact mem_add.mpr (.inr before)
  rcases action with ⟨connection, task⟩
  by_cases isStart : task = .addStream
  · subst isStart
    obtain ⟨isConnected, fresh⟩ := beginning rfl
    refine ⟨?_, ?_, List.Subset.refl _, shutting⟩
    · intro owner streamId hasStream
      exact update_streamOf (orderly.noStream rfl isConnected) hasStream
    · intro other owner streamId live hasStream isKnown
      refine ⟨live, ?_⟩
      by_cases isSame : other = connection
      · simp only [Shared.act, isSame, update_self, Option.some.injEq] at hasStream
        exact absurd (hasStream ▸ isKnown) (fresh owner)
      · simpa [Shared.act, isSame] using hasStream
  by_cases isData : ∃ data, task = .handleData data
  · rcases isData with ⟨data, rfl⟩
    rcases act_handleData threads.shared config made connection data with
      ⟨ingress, buffered, more, acted, _, _, _, events, _⟩
    rw [acted] at shutting ⊢
    exact of_streamOf rfl (events ▸ List.Subset.refl _) (fun _ _ _ => id) shutting
  by_cases isEvent : ∃ event, task = .notify event
  · rcases isEvent with ⟨event, rfl⟩
    exact of_streamOf rfl (fun _ => mem_notify) (fun _ _ _ => id) shutting
  have unwritten : Unwritten threads.shared (threads.shared.act config made ⟨connection, task⟩) :=
    unwritten_act own isStart (by simpa using isData) (by simpa using isEvent)
  exact of_streamOf unwritten.streamOf (unwritten.events ▸ List.Subset.refl _)
    (fun _ _ _ => unwritten.still _) shutting

theorem of_steps {event : ThreadEvent} (separate : threads.Separate config event)
    (orderly : Orderly threads.shared threads.pending)
    (steps : Threads.Steps config threads event shared pending) : Traced threads shared pending := by
  have kept {more : List Action} {connection : ℕ}
      (mem : ⟨connection, .shutdownConnection⟩ ∈ threads.pending) :
      ⟨connection, .shutdownConnection⟩ ∈ (more + threads.pending : Multiset Action) :=
    mem_add.mpr (.inr mem)
  cases steps with
  | @accept fd free =>
    refine of_streamOf rfl (List.Subset.refl _) ?_ fun _ _ => mem_cons_of_mem
    intro connection streamId hasStream live
    have isOld := (orderly.streams.known hasStream).ne
    simpa [Shared.accept, TcpServer.register, isOld] using live
  | @recvCompleted connection result mem =>
    have touches := touched_recvCompleted ((orderly.completeRecv connection result).held.own
      (orderly.recvs connection mem)) result
    exact of_streamOf touches.unannounced.streamOf
      (touches.unannounced.events ▸ List.Subset.refl _) (fun _ _ _ => touches.connected _)
      fun _ _ => kept
  | @sendCompleted connection succeeded mem =>
    have touches := touched_sendCompleted ((orderly.completeSend connection).held.own
      (orderly.sends connection mem)) succeeded
    exact of_streamOf touches.unannounced.streamOf
      (touches.unannounced.events ▸ List.Subset.refl _) (fun _ _ _ => touches.connected _)
      fun _ _ => kept
  | operate streamId operation =>
    exact of_streamOf rfl (List.Subset.refl _) (fun _ _ _ => id) fun _ _ => kept
  | proceed next before =>
    rw [before] at orderly
    exact act orderly before fun isStart => separate.fresh orderly next isStart

end Traced

theorem Threads.length_le_of_step {threads after : Threads} {event : ThreadEvent}
    (taken : threads.step config event = some after) :
    threads.calls.length ≤ after.calls.length := by
  cases event with
  | accept =>
    simp only [Threads.step, ite_none_left_eq_some, Option.some.injEq] at taken
    simp [← taken.2, Threads.begin, start]
  | recvCompleted | sendCompleted =>
    simp only [Threads.step, ite_none_right_eq_some, Option.some.injEq] at taken
    simp [← taken.2, Threads.begin, start]
  | operate =>
    cases taken
    simp [Threads.begin, start]
  | proceed =>
    simp only [Threads.step, bind_eq_bind, bind_eq_some_iff] at taken
    obtain ⟨action, -, same⟩ := taken
    cases same
    simp [resume]

end Steps

/-- What a handler may rely on for its event. -/
def Raised (shared : Shared) (event : TcpEvent) : Prop :=
  event ∈ shared.ingress.events ∧
    ((event.type = .data ∨ event = closed event.streamId) ∨ event = connected event.streamId ∧
      ∃ connection, shared.streamOf connection = some event.streamId)

theorem Raised.mono {threads : Threads} {shared : Shared} {pending : Multiset Action}
    {event : TcpEvent} (traced : Traced threads shared pending)
    (mem : event ∈ shared.ingress.events)
    (isEvent : (event.type = .data ∨ event = closed event.streamId) ∨
      event = connected event.streamId ∧
        ∃ connection, threads.shared.streamOf connection = some event.streamId) :
    Raised shared event :=
  ⟨mem, isEvent.imp_right <| And.imp_right fun ⟨connection, hasStream⟩ =>
    ⟨connection, traced.kept hasStream⟩⟩

namespace IngressRuntime

/-- The calls and their handlers while descriptors and stream ids are not used by two
connections. -/
structure Serving (state : IngressRuntime) : Prop where
  orderly : Orderly state.threads.shared state.threads.pending
  announced : Announced state.threads.shared state.threads.pending
  inCall : ∀ ⦃index task⦄, state.handlers index = some task → index < state.threads.calls.length
  raised : ∀ ⦃index task event⦄, state.handlers index = some task → task.event? = some event →
    Raised state.threads.shared event

namespace Serving

variable {config : IngressRuntimeConfig} {state after : IngressRuntime} {index : ℕ}

theorem initial (startMs : ℤ) : Serving (.initial config startMs) where
  orderly := Orderly.initial
  announced := Announced.initial
  inCall := by simp [IngressRuntime.initial]
  raised := by simp [IngressRuntime.initial]

theorem traced {event : ThreadEvent} {threads : Threads} (serving : state.Serving)
    (separate : state.threads.Separate config.ingress event)
    (stepped : state.threads.step config.ingress event = some threads) :
    Traced state.threads threads.shared threads.pending :=
  .of_steps separate serving.orderly (Threads.steps_of_step stepped)

theorem thread {event : ThreadEvent} {threads : Threads} {handlers : ℕ → Option HandlerTask}
    {cut : List (ℕ × Bytes)} {ended : List ℕ} (serving : state.Serving)
    (separate : state.threads.Separate config.ingress event)
    (stepped : state.threads.step config.ingress event = some threads)
    (new : ∀ ⦃index task⦄, handlers index = some task → state.handlers index = some task ∨
      index < threads.calls.length ∧ ∀ event ∈ task.event?,
        event ∈ threads.shared.ingress.events ∧
          ∃ connection, ⟨connection, .notify event⟩ ∈ state.threads.pending) :
    Serving { state with threads, handlers, cut, ended } := by
  have steps := Threads.steps_of_step stepped
  have traced := serving.traced separate stepped
  refine ⟨Threads.orderly_steps separate steps serving.orderly,
    Threads.announced_steps separate steps serving.orderly serving.announced, ?_, ?_⟩
  · intro index task isTask
    rcases new isTask with before | ⟨inCall, -⟩
    · exact (serving.inCall before).trans_le (Threads.length_le_of_step stepped)
    · exact inCall
  · intro index task event isTask isEvent
    rcases new isTask with before | ⟨-, isNew⟩
    · obtain ⟨mem, wasRaised⟩ := serving.raised before isEvent
      exact .mono traced (traced.events mem) wasRaised
    · obtain ⟨mem, connection, isNotify⟩ := isNew event isEvent
      exact .mono traced mem (serving.announced.announcing isNotify)

theorem proceed {made : Bool} (serving : state.Serving)
    (separate : state.threads.Separate config.ingress (.proceed index made))
    (taken : state.proceed config index made = some after) : Serving after := by
  simp only [IngressRuntime.proceed, bind_eq_bind, bind_eq_some_iff, ite_none_right_eq_some] at taken
  obtain ⟨action, isNext, threads, stepped, isFree, isAfter⟩ := taken
  cases isAfter
  have inCall : index < state.threads.calls.length := by
    obtain ⟨call, isCall, -⟩ := bind_eq_some_iff.mp isNext
    exact (List.getElem?_eq_some_iff.mp isCall).1
  apply serving.thread separate stepped
  intro position task isTask
  by_cases here : position = index
  · subst here
    rw [update_self] at isTask
    rcases action with ⟨connection, own⟩
    cases own <;> simp only [Task.handler, reduceCtorEq, ite_none_left_eq_some, Option.some.injEq]
      at isTask
    case notify event =>
    obtain ⟨nonzero, rfl⟩ := isTask
    refine .inr ⟨inCall.trans_le (Threads.length_le_of_step stepped), ?_⟩
    rintro _ ⟨rfl⟩
    have acted : threads.shared = (state.threads.shared.act config.ingress made
        ⟨connection, .notify event⟩).1 := by
      simp only [Threads.step, isNext] at stepped
      cases stepped
      rfl
    exact ⟨by simp [acted, Shared.act, TcpIngress.notify, nonzero], connection,
      mem_pending_of_next isNext⟩
  · exact .inl (by simpa [here] using isTask)

theorem next {admission : AdmissionControl} {handed : List HandedFrame} {admitted ended : List ℕ}
    {earlier : HandlerTask} {task : Option HandlerTask} (serving : state.Serving)
    (inHandler : state.handlers index = some earlier)
    (same : ∀ ⦃own event⦄, task = some own → own.event? = some event →
      earlier.event? = some event) :
    Serving ({ state with admission, handed, admitted, ended }.next index task) := by
  refine ⟨serving.orderly, serving.announced, ?_, ?_⟩ <;> intro position own
  · intro isTask
    by_cases here : position = index
    · subst here
      exact serving.inCall inHandler
    · exact serving.inCall (by simpa [IngressRuntime.next, here] using isTask)
  · intro event isTask isEvent
    by_cases here : position = index
    · subst here
      simp only [IngressRuntime.next, update_self] at isTask
      exact serving.raised inHandler (same isTask isEvent)
    · exact serving.raised (by simpa [IngressRuntime.next, here] using isTask) isEvent

theorem pending_shutdownStream {streamId : ℕ} (serving : state.Serving)
    (shuts : state.handlers index = some (.shutdownStream streamId)) :
    (state.handle config index (.shutdownStream streamId)).threads.pending =
      state.threads.shared.operate streamId .shutdownStream + state.threads.pending :=
  pending_prepend (serving.inCall shuts) _

theorem shutdownStream {streamId : ℕ} (serving : state.Serving)
    (shuts : state.handlers index = some (.shutdownStream streamId)) :
    Serving (state.handle config index (.shutdownStream streamId)) := by
  have others := @next state index state.admission state.handed state.admitted state.ended _ none
    serving shuts (by simp)
  refine ⟨?_, ?_, ?_, others.raised⟩
  · rw [serving.pending_shutdownStream shuts]
    exact serving.orderly.operate .shutdownStream
  · rw [serving.pending_shutdownStream shuts]
    exact serving.announced.unannounced (unwritten_operate .shutdownStream).toUnannounced
  · intro position task isTask
    simpa [handle, IngressRuntime.next] using others.inCall isTask

theorem handle {task : HandlerTask} (serving : state.Serving)
    (inHandler : state.handlers index = some task) :
    Serving (state.handle config index task) := by
  cases task with
  | ask event =>
    simp only [IngressRuntime.handle, IngressRuntime.ask]
    repeat' split
    all_goals
      apply serving.next inHandler
      simp +contextual [HandlerTask.event?, eq_comm]
  | release | hand =>
    apply serving.next inHandler
    rintro _ _ ⟨⟩ ⟨⟩
  | shutdownStream streamId => exact serving.shutdownStream inHandler

theorem step {event : IngressRuntimeEvent} (serving : state.Serving)
    (separate : ∀ own, event = .thread own → state.threads.Separate config.ingress own)
    (taken : state.step config event = some after) : Serving after := by
  cases event with
  | clock | tunnelFrame =>
    cases taken
    exact ⟨serving.orderly, serving.announced, serving.inCall, serving.raised⟩
  | thread event =>
    cases event with
    | proceed index made => exact serving.proceed (separate _ rfl) taken
    | accept | recvCompleted | sendCompleted | operate =>
      simp only [IngressRuntime.step, map_eq_some_iff] at taken
      obtain ⟨threads, stepped, rfl⟩ := taken
      exact serving.thread (separate _ rfl) stepped fun _ _ => .inl
  | handle index =>
    obtain ⟨task, inHandler, rfl⟩ := map_eq_some_iff.mp taken
    exact serving.handle inHandler

end Serving

end IngressRuntime

end IotProxy.Proxy
