import IotProxy.Proxy.IngressRuntime

/-!
# The frames of an ingress stream

Every event of a stream that is admitted has a frame handed to the KCP sender. What is not admitted
has its stream shut down, inside the event, and the end of the stream is an event of its own.

A call of `handle_data` cuts its chunk into frames first and then delivers them one by one. When a
frame is refused, the stream is closed and its `Finish` is handed over, but the loop goes on with
the frames that are left, and the token bucket may well have room for them. And a stream is
registered before its connection is reported, so that another thread may handle a chunk or the end
of it before its `Open` is handed over.
-/

namespace IotProxy.Proxy

open Function Option Interleaving Shared List
open EventSystem (Run)

/-- The events of a stream that actions raise. -/
def eventsOf (streamId : ℕ) (actions : List Action) : List TcpEvent :=
  actions.filterMap fun action =>
    match action.task with
    | .notify event => if event.streamId = streamId then some event else none
    | _ => none

def dataEvent (streamId : ℕ) : Bytes → TcpEvent := .mk .data streamId

/-- The frames of a stream up to its end. -/
def opened (streamId : ℕ) (payloads : List Bytes) : List HandedFrame :=
  ⟨.open, streamId, []⟩ :: payloads.map fun payload => ⟨.data, streamId, payload⟩

/-- The frames are a prefix of `Open`, `Data` and `Finish`, and the data is a prefix of what was
received. -/
def InOrder (streamId : ℕ) (handed : List HandedFrame) (received : List Bytes) : Prop :=
  ∃ payloads, payloads <+: received ∧ handed <+: opened streamId payloads ++ [⟨.finish, streamId, []⟩]

namespace IngressRuntime

variable (config : IngressRuntimeConfig) (streamId : ℕ) (state : IngressRuntime)

/-- The frames of a stream that were handed to the KCP sender. -/
def handedOf : List HandedFrame :=
  state.handed.filter (·.streamId = streamId)

/-- The frames that were cut for a stream. -/
def cutOf : List Bytes :=
  (state.cut.filter (·.1 = streamId)).map Prod.snd

/-- The events of a stream that a call has still to get through: the one that its handler is at, and
those that it has still to raise. -/
def toHandle (index : ℕ) : List TcpEvent :=
  ((state.handlers index).bind HandlerTask.event?).toList.filter (·.streamId = streamId) ++
    eventsOf streamId (state.threads.calls[index]?.getD [])

/-- A section that raises an event of the stream or ends it finds every earlier event of the stream
handled and, unless it registers the stream, its `Open` handed over. It takes no chunk after the end
of the stream or a refused frame. -/
def InTurn (made : Bool) (action : Action) : Prop :=
  let raised := eventsOf streamId (state.threads.shared.act config.ingress made action).2
  raised ≠ [] ∨ streamId ∈ state.threads.shared.streamsEnded config.ingress action →
    (∀ index < state.threads.calls.length, state.toHandle streamId index = []) ∧
    (action.task ≠ .addStream → ⟨.open, streamId, []⟩ ∈ state.handed) ∧
    ((∃ event ∈ raised, event.type = .data) → streamId ∉ state.ended)

/-- The stream itself is not refused, and no frame of it is admitted after one was refused or the
stream has ended. -/
def Admissible : HandlerTask → Prop
  | .ask event => event.streamId = streamId →
    (event.type = .connected →
      (state.admission.tryAcceptIngressStream config.admission streamId).2 = true) ∧
    (event.type = .data → streamId ∈ state.ended → (state.admission.tryAcceptIngressBytes
      config.double config.admission state.steadyMs event.payload.length).2 = false)
  | _ => True

def Regular : IngressRuntimeEvent → Prop
  | .thread event => state.threads.Separate config.ingress event ∧
    match event with
    | .proceed index made =>
      ∀ action ∈ next? state.threads.calls index, state.InTurn config streamId made action
    | _ => True
  | .handle index => ∀ task ∈ state.handlers index, state.Admissible config streamId task
  | _ => True

instance (made : Bool) (action : Action) : Decidable (state.InTurn config streamId made action) :=
  inferInstanceAs (Decidable (_ ∨ _ → _ ∧ _ ∧ ((∃ event ∈ _, _) → _)))

instance : (task : HandlerTask) → Decidable (state.Admissible config streamId task)
  | .ask _ => inferInstanceAs (Decidable (_ → (_ → _) ∧ (_ → _ → _)))
  | .release _ | .shutdownStream _ | .hand _ => .isTrue trivial

instance : (event : IngressRuntimeEvent) → Decidable (state.Regular config streamId event)
  | .thread (.proceed ..) => inferInstanceAs (Decidable (_ ∧ ∀ action ∈ _, _))
  | .thread (.accept _) | .thread (.recvCompleted ..) | .thread (.sendCompleted ..)
  | .thread (.operate ..) => inferInstanceAs (Decidable (_ ∧ True))
  | .handle _ => inferInstanceAs (Decidable (∀ task ∈ _, _))
  | .clock _ | .tunnelFrame _ => .isTrue trivial

/-- What has become of the stream while one call has these events of it to get through. -/
inductive Phase (work : List TcpEvent) : Prop where
  | unopened (waiting : work = [] ∨ work = [connected streamId])
      (handed : state.handedOf streamId = []) (cut : state.cutOf streamId = [])
      (goesOn : streamId ∉ state.ended)
  | flowing (delivered rest : List Bytes) (frames : work = rest.map (dataEvent streamId))
      (handed : state.handedOf streamId = opened streamId delivered)
      (cut : delivered <+: state.cutOf streamId)
      (goesOn : streamId ∉ state.ended → state.cutOf streamId = delivered ++ rest)
      (refuses : streamId ∈ state.ended → ∀ index event,
        state.handlers index = some (.hand event) → event.streamId = streamId → event.type ≠ .data)
  | closing (delivered : List Bytes) (finish : work = [closed streamId])
      (handed : state.handedOf streamId = opened streamId delivered)
      (cut : delivered <+: state.cutOf streamId) (ends : streamId ∈ state.ended)
  | ended (delivered : List Bytes) (nothing : work = [])
      (handed : state.handedOf streamId =
        opened streamId delivered ++ [⟨.finish, streamId, []⟩])
      (cut : delivered <+: state.cutOf streamId) (ends : streamId ∈ state.ended)
      (seen : closed streamId ∈ state.threads.shared.ingress.events)

structure Sound : Prop where
  serving : state.Serving
  known : (∀ connection, state.threads.shared.streamOf connection ≠ some streamId) →
    state.handedOf streamId = [] ∧ state.cutOf streamId = [] ∧ streamId ∉ state.ended
  phase : ∃ index, (∀ other ≠ index, state.toHandle streamId other = []) ∧
    Phase streamId state (state.toHandle streamId index)

end IngressRuntime

section Events

variable {streamId : ℕ} {config : TcpIngressConfig} {made : Bool}

@[simp] theorem eventsOf_nil : eventsOf streamId [] = [] := rfl

@[simp] theorem eventsOf_append (first second : List Action) :
    eventsOf streamId (first ++ second) = eventsOf streamId first ++ eventsOf streamId second :=
  filterMap_append

theorem eventsOf_eq_nil {actions : List Action}
    (silent : ∀ action ∈ actions, ∀ event, action.task ≠ .notify event) :
    eventsOf streamId actions = [] := by
  apply filterMap_eq_nil_iff.mpr
  intro action mem
  split
  · next event isNotify => exact absurd isNotify (silent action mem event)
  · rfl

theorem eventsOf_operate (shared : Shared) (other : ℕ) (operation : StreamOperation) :
    eventsOf streamId (shared.operate other operation) = [] := by
  apply eventsOf_eq_nil
  unfold Shared.operate
  cases operation <;> (repeat' split) <;> simp [StreamOperation.task]

/-- The new call of a step that begins one raises nothing. -/
theorem eventsOf_begin {threads after : Threads} {event : ThreadEvent}
    (noProceed : ∀ index made, event ≠ .proceed index made)
    (stepped : threads.step config event = some after) :
    ∃ call, after.calls = start threads.calls call ∧ eventsOf streamId call = [] := by
  cases event with
  | proceed index made => exact absurd rfl (noProceed index made)
  | accept =>
    simp only [Threads.step, ite_none_left_eq_some, Option.some.injEq] at stepped
    exact ⟨_, by rw [← stepped.2]; rfl, rfl⟩
  | recvCompleted =>
    simp only [Threads.step, ite_none_right_eq_some, Option.some.injEq] at stepped
    refine ⟨_, by rw [← stepped.2]; rfl, eventsOf_eq_nil ?_⟩
    simp only [Shared.recvCompleted, Shared.disconnect]
    (repeat' split) <;> simp
  | sendCompleted =>
    simp only [Threads.step, ite_none_right_eq_some, Option.some.injEq] at stepped
    refine ⟨_, by rw [← stepped.2]; rfl, eventsOf_eq_nil ?_⟩
    simp only [Shared.sendCompleted, Shared.finishWrite, Shared.disconnect]
    (repeat' split) <;> simp
  | operate =>
    cases stepped
    exact ⟨_, rfl, eventsOf_operate _ _ _⟩

variable (streamId config made) in
/-- What a section raises of a stream, and what it cuts for it. -/
inductive Raises (shared : Shared) (action : Action) : List TcpEvent → List Bytes → Prop where
  | nothing {frames : List Bytes}
      (dropped : streamId ∉ shared.streamsEnded config action → frames = []) :
      Raises shared action [] frames
  | connected (isStart : action.task = .addStream) (drawn : shared.ingress.newStreamId config = streamId)
      (goesOn : streamId ∉ shared.streamsEnded config action) :
      Raises shared action [connected streamId] []
  | closed (notStart : action.task ≠ .addStream)
      (found : shared.ingress.streamByFd (shared.fdOf action.connection) = some streamId)
      (reading : streamId ∉ shared.ingress.readClosedStreams)
      (ends : streamId ∈ shared.streamsEnded config action) :
      Raises shared action [closed streamId] []
  | data {frames : List Bytes} (some : frames ≠ []) (notStart : action.task ≠ .addStream)
      (goesOn : streamId ∉ shared.streamsEnded config action) :
      Raises shared action (frames.map (dataEvent streamId)) frames

theorem Raises.dropped {shared : Shared} {action : Action} {raised : List TcpEvent}
    {frames : List Bytes} (raises : Raises streamId config shared action raised frames)
    (goesOn : streamId ∉ shared.streamsEnded config action)
    (quiet : action.task ≠ .addStream → raised = []) : frames = [] := by
  cases raises with
  | nothing dropped => exact dropped goesOn
  | connected | closed => rfl
  | data some notStart => exact absurd (map_eq_nil_iff.mp (quiet notStart)) some

theorem raises_act (nonzero : streamId ≠ 0) (shared : Shared) (action : Action) :
    Raises streamId config shared action (eventsOf streamId (shared.act config made action).2)
      (((shared.framesCut config action).filter (·.1 = streamId)).map Prod.snd) := by
  rcases action with ⟨connection, task⟩
  cases task with
  | addStream =>
    by_cases drawn : shared.ingress.newStreamId config = streamId
    · have isNew : Raises streamId config shared ⟨connection, .addStream⟩ [connected streamId] [] :=
        .connected rfl drawn (by simp [streamsEnded, extracted?])
      simpa [eventsOf, Shared.act, drawn, framesCut, extracted?, connected] using isNew
    · simpa [eventsOf, Shared.act, drawn, framesCut, extracted?] using .nothing fun _ => rfl
  | removeStream | handleReadClosed =>
    simp only [eventsOf, Shared.act, framesCut, extracted?, TcpIngress.removeStream,
      TcpIngress.closeReading]
    split
    · exact .nothing fun _ => rfl
    · next own found =>
      split_ifs with reading
      · simpa [Ne.symm nonzero] using .nothing fun _ => rfl
      · by_cases isOwn : own = streamId
        · subst isOwn
          simpa [closed] using .closed (by simp) found reading (by simp [streamsEnded, found])
        · simpa [isOwn] using .nothing fun _ => rfl
  | handleData data =>
    simp only [Shared.act, framesCut, extracted?]
    rcases cut : shared.ingress.bufferData config (shared.fdOf connection) data with
      ⟨ingress, _ | ⟨own, extracted⟩⟩
    · exact .nothing fun _ => rfl
    by_cases isOwn : own = streamId
    · subst isOwn
      simp only [delivery]
      split_ifs with closes
      · exact .nothing fun goesOn =>
          absurd (by simp [streamsEnded, extracted?, cut, closes]) goesOn
      · by_cases none : extracted.frames = []
        · simpa [none, eventsOf] using .nothing fun _ => rfl
        · have raised : Raises own config shared ⟨connection, .handleData data⟩ _ extracted.frames :=
            .data none (by simp) (by simp [streamsEnded, extracted?, cut, closes])
          simpa [eventsOf, List.filter_map, Function.comp_def, dataEvent] using raised
    · have silent : eventsOf streamId (delivery connection own extracted) = [] := by
        unfold delivery
        split_ifs <;> simp [eventsOf, isOwn]
      simpa [silent, isOwn, List.filter_map, Function.comp_def] using .nothing fun _ => rfl
  | _ =>
    rw [eventsOf_eq_nil]
    · exact .nothing fun _ => rfl
    · simp only [Shared.act, Shared.finishWrite, Shared.disconnect]
      (repeat' split) <;> simp

theorem handler_append (nonzero : streamId ≠ 0) {action : Action} {more : List TcpEvent}
    (quiet : ∀ event, action.task = .notify event → more = []) (rest : List Action) :
    (action.task.handler.bind HandlerTask.event?).toList.filter (·.streamId = streamId) ++
        (more ++ eventsOf streamId rest) = more ++ eventsOf streamId (action :: rest) := by
  rcases action with ⟨connection, task⟩
  cases task with
  | notify event =>
    rw [quiet event rfl]
    by_cases isOwn : event.streamId = streamId
    · simp [Task.handler, HandlerTask.event?, eventsOf, isOwn, nonzero]
    · simp only [Task.handler]
      split_ifs <;> simp [HandlerTask.event?, eventsOf, isOwn]
  | _ => rfl

end Events

namespace IngressRuntime

variable {config : IngressRuntimeConfig} {streamId : ℕ} {state after : IngressRuntime} {index : ℕ}

/-- The section that a call is at changes what it has to get through by what it raises. -/
theorem toHandle_proceed {made : Bool} {action : Action} {threads : Threads} {cut : List (ℕ × Bytes)}
    {ended : List ℕ} (nonzero : streamId ≠ 0)
    (isNext : next? state.threads.calls index = some action) (isFree : state.handlers index = none)
    (stepped : state.threads.step config.ingress (.proceed index made) = some threads) (other : ℕ) :
    ({ state with threads, cut, ended }.next index action.task.handler).toHandle streamId other =
      if other = index then
        eventsOf streamId (state.threads.shared.act config.ingress made action).2 ++
          state.toHandle streamId index
      else state.toHandle streamId other := by
  simp only [Threads.step, isNext] at stepped
  cases stepped
  split_ifs with here
  · subst here
    obtain ⟨call, isCall, first⟩ := bind_eq_some_iff.mp isNext
    obtain ⟨rest, rfl⟩ := head?_eq_some_iff.mp first
    have before : state.toHandle streamId other = eventsOf streamId (action :: rest) := by
      simp [toHandle, isFree, isCall]
    rw [before]
    rw [← handler_append nonzero (by rintro event isEvent; simp [Shared.act, isEvent, eventsOf])]
    simp [toHandle, next, resume, isCall]
  · simp [toHandle, next, here, resume, Ne.symm here]

theorem mem_toHandle {task : HandlerTask} {event : TcpEvent}
    (inHandler : state.handlers index = some task) (isEvent : task.event? = some event)
    (isOwn : event.streamId = streamId) : event ∈ state.toHandle streamId index := by
  simp [toHandle, inHandler, isEvent, isOwn]

/-- What a step leaves of a stream that it hands no frame of. -/
structure Continues (streamId : ℕ) (state after : IngressRuntime) : Prop where
  kept : ∀ connection, state.threads.shared.streamOf connection = some streamId →
    after.threads.shared.streamOf connection = some streamId
  events : state.threads.shared.ingress.events ⊆ after.threads.shared.ingress.events
  handed : after.handedOf streamId = state.handedOf streamId
  hands : ∀ index event, after.handlers index = some (.hand event) → event.streamId = streamId →
    event.type = .data → state.handlers index = some (.hand event) ∨ streamId ∉ state.ended

theorem Phase.mono {work : List TcpEvent} (continues : Continues streamId state after)
    (cut : after.cutOf streamId = state.cutOf streamId)
    (ended : streamId ∈ after.ended ↔ streamId ∈ state.ended) :
    Phase streamId state work → Phase streamId after work
  | .unopened waiting handed isCut goesOn =>
    .unopened waiting (continues.handed.trans handed) (cut.trans isCut) (mt ended.mp goesOn)
  | .flowing delivered rest frames handed isCut goesOn refuses =>
    .flowing delivered rest frames (continues.handed.trans handed) (cut ▸ isCut)
      (fun notEnded => cut.trans (goesOn (mt ended.mpr notEnded)))
      fun ends index event isHand isOwn isData =>
        (continues.hands index event isHand isOwn isData).elim
          (refuses (ended.mp ends) index event · isOwn isData) (· (ended.mp ends))
  | .closing delivered finish handed isCut ends =>
    .closing delivered finish (continues.handed.trans handed) (cut ▸ isCut) (ended.mpr ends)
  | .ended delivered nothing handed isCut ends seen =>
    .ended delivered nothing (continues.handed.trans handed) (cut ▸ isCut) (ended.mpr ends)
      (continues.events seen)

namespace Sound

theorem mono (sound : Sound streamId state) (serving : after.Serving)
    (continues : Continues streamId state after)
    (cut : after.cutOf streamId = state.cutOf streamId)
    (ended : streamId ∈ after.ended ↔ streamId ∈ state.ended)
    (work : ∀ index, after.toHandle streamId index = state.toHandle streamId index) :
    Sound streamId after := by
  refine ⟨serving, ?_, ?_⟩
  · intro unused
    rw [continues.handed, cut, ended]
    exact sound.known fun connection => mt (continues.kept connection) (unused connection)
  · obtain ⟨index, others, phase⟩ := sound.phase
    refine ⟨index, fun other isOther => (work other).trans (others other isOther), ?_⟩
    rw [work]
    exact phase.mono continues cut ended

end Sound

/-- A stream whose `Open` was handed over and that has no event to get through. -/
theorem Phase.idle (phase : Phase streamId state [])
    (isOpen : ⟨.open, streamId, []⟩ ∈ state.handed) :
    ∃ delivered, delivered <+: state.cutOf streamId ∧
      (streamId ∉ state.ended → state.cutOf streamId = delivered) ∧
      (state.handedOf streamId = opened streamId delivered ∨
        state.handedOf streamId = opened streamId delivered ++ [⟨.finish, streamId, []⟩] ∧
        streamId ∈ state.ended ∧ closed streamId ∈ state.threads.shared.ingress.events) := by
  cases phase with
  | unopened _ handed =>
    have mem : ⟨.open, streamId, []⟩ ∈ state.handedOf streamId := mem_filter.mpr ⟨isOpen, by simp⟩
    simp [handed] at mem
  | flowing delivered rest frames handed cut goesOn =>
    have none : rest = [] := by simpa using frames.symm
    exact ⟨delivered, cut, fun notEnded => by simpa [none] using goesOn notEnded, .inl handed⟩
  | closing _ finish => cases finish
  | ended delivered _ handed cut ends seen =>
    exact ⟨delivered, cut, fun notEnded => absurd ends notEnded, .inr ⟨handed, ends, seen⟩⟩

namespace Sound

theorem toHandle_eq_nil (sound : Sound streamId state)
    (idle : ∀ index < state.threads.calls.length, state.toHandle streamId index = []) (index : ℕ) :
    state.toHandle streamId index = [] := by
  by_cases inCall : index < state.threads.calls.length
  · exact idle index inCall
  · have noCall : state.threads.calls[index]? = none := getElem?_eq_none (by omega)
    have free : state.handlers index = none :=
      eq_none_iff_forall_ne_some.mpr fun task isTask => inCall (sound.serving.inCall isTask)
    simp [toHandle, noCall, free, eventsOf]

/-- A stream is not closed again after its end was raised. -/
theorem not_closed (sound : Sound streamId state) {fd : ℕ}
    (found : state.threads.shared.ingress.streamByFd fd = some streamId)
    (reading : streamId ∉ state.threads.shared.ingress.readClosedStreams) :
    closed streamId ∉ state.threads.shared.ingress.events := by
  obtain ⟨connection, -, rfl, isStream⟩ := sound.serving.orderly.streams.byFd found
  have none := sound.serving.orderly.life.closedOnce isStream
  rw [if_pos ⟨found, reading⟩] at none
  exact count_eq_zero.mp (by omega)

end Sound

/-- What the section that a call is at leaves of a stream: the events that it raises come first in the
call, and what it cuts and ends is recorded. -/
structure Leaves (config : IngressRuntimeConfig) (streamId : ℕ) (state : IngressRuntime) (index : ℕ)
    (action : Action) (raised : List TcpEvent) (frames : List Bytes) (after : IngressRuntime) :
    Prop where
  serving : after.Serving
  continues : Continues streamId state after
  raises : Raises streamId config.ingress state.threads.shared action raised frames
  hands : ∀ other event, after.handlers other = some (.hand event) →
    state.handlers other = some (.hand event)
  work : ∀ other, after.toHandle streamId other =
    if other = index then raised ++ state.toHandle streamId index else state.toHandle streamId other
  cut : after.cutOf streamId = state.cutOf streamId ++ frames
  ended : streamId ∈ after.ended ↔
    streamId ∈ state.threads.shared.streamsEnded config.ingress action ∨ streamId ∈ state.ended

theorem Sound.leaves {made : Bool} (nonzero : streamId ≠ 0) (sound : Sound streamId state)
    (separate : state.threads.Separate config.ingress (.proceed index made))
    (taken : state.proceed config index made = some after) :
    ∃ action frames, next? state.threads.calls index = some action ∧
      Leaves config streamId state index action
        (eventsOf streamId (state.threads.shared.act config.ingress made action).2) frames after := by
  have serving := sound.serving.proceed separate taken
  simp only [IngressRuntime.proceed, bind_eq_bind, bind_eq_some_iff, ite_none_right_eq_some] at taken
  obtain ⟨action, isNext, threads, stepped, isFree, isAfter⟩ := taken
  have traced := sound.serving.traced separate stepped
  cases isAfter
  have hands (other : ℕ) (event : TcpEvent) (isHand : Function.update state.handlers index
      action.task.handler other = some (.hand event)) :
      state.handlers other = some (.hand event) := by
    by_cases here : other = index
    · cases isTask : action.task <;> simp [here, isTask, Task.handler] at isHand
    · simpa [here] using isHand
  refine ⟨action, _, isNext, serving, ?_, raises_act nonzero _ _, hands,
    toHandle_proceed nonzero isNext isFree stepped, by simp [cutOf, next], by simp [next]⟩
  exact ⟨fun _ isStream => traced.kept isStream, traced.events, rfl,
    fun other event isHand _ _ => .inl (hands other event isHand)⟩

namespace Leaves

variable {action : Action} {raised : List TcpEvent} {frames : List Bytes}
  (leaves : Leaves config streamId state index action raised frames after)
  (sound : Sound streamId state)

include leaves sound

theorem sound_of_quiet (isQuiet : raised = [])
    (goesOn : streamId ∉ state.threads.shared.streamsEnded config.ingress action) :
    Sound streamId after := by
  have dropped : frames = [] := leaves.raises.dropped goesOn fun _ => isQuiet
  refine sound.mono leaves.serving leaves.continues (by simp [leaves.cut, dropped])
    (by simp [leaves.ended, goesOn]) ?_
  intro other
  rw [leaves.work]
  split_ifs with here <;> simp [here, isQuiet]

theorem phase
    (fresh : action.task = .addStream → ∀ connection, state.threads.shared.streamOf connection ≠
      some (state.threads.shared.ingress.newStreamId config.ingress))
    (loud : raised = [] → streamId ∈ state.threads.shared.streamsEnded config.ingress action)
    (nothing : ∀ index, state.toHandle streamId index = [])
    (isOpen : action.task ≠ .addStream → ⟨.open, streamId, []⟩ ∈ state.handed)
    (flows : (∃ event ∈ raised, event.type = .data) → streamId ∉ state.ended) :
    Phase streamId after raised := by
  obtain ⟨_, -, phase⟩ := sound.phase
  rw [nothing] at phase
  have handed := leaves.continues.handed
  have refuses (other : ℕ) (event : TcpEvent) (isHand : after.handlers other = some (.hand event))
      (isOwn : event.streamId = streamId) : event.type ≠ .data :=
    absurd (mem_toHandle (leaves.hands other event isHand) rfl isOwn) (by simp [nothing])
  cases leaves.raises with
  | nothing =>
    have ends := loud rfl
    have notStart : action.task ≠ .addStream := by
      intro isStart
      simp [streamsEnded, extracted?, isStart] at ends
    obtain ⟨delivered, isPrefix, -, isHanded | ⟨isHanded, -, seen⟩⟩ := phase.idle (isOpen notStart)
    · exact .flowing delivered [] rfl (handed.trans isHanded)
        (leaves.cut ▸ isPrefix.trans (prefix_append _ _)) (absurd (leaves.ended.mpr (.inl ends)) ·)
        fun _ => refuses
    · exact .ended delivered rfl (handed.trans isHanded)
        (leaves.cut ▸ isPrefix.trans (prefix_append _ _)) (leaves.ended.mpr (.inl ends))
        (leaves.continues.events seen)
  | connected isStart drawn goesOn =>
    obtain ⟨isHanded, isCut, notEnded⟩ := sound.known (drawn ▸ fresh isStart)
    exact .unopened (.inr rfl) (handed.trans isHanded) (by simp [leaves.cut, isCut])
      (by simp [leaves.ended, goesOn, notEnded])
  | closed notStart found reading ends =>
    obtain ⟨delivered, isPrefix, -, isHanded | ⟨-, -, seen⟩⟩ := phase.idle (isOpen notStart)
    · exact .closing delivered rfl (handed.trans isHanded) (by simpa [leaves.cut] using isPrefix)
        (leaves.ended.mpr (.inl ends))
    · exact absurd seen (sound.not_closed found reading)
  | data isSome notStart goesOn =>
    have notEnded : streamId ∉ state.ended := by
      obtain ⟨frame, mem⟩ := exists_mem_of_ne_nil _ isSome
      exact flows ⟨_, mem_map_of_mem mem, rfl⟩
    obtain ⟨delivered, isPrefix, isCut, isHanded | ⟨-, isEnd, -⟩⟩ := phase.idle (isOpen notStart)
    · exact .flowing delivered _ rfl (handed.trans isHanded)
        (leaves.cut ▸ isPrefix.trans (prefix_append _ _))
        (fun _ => by rw [leaves.cut, isCut notEnded]) fun _ => refuses
    · exact absurd isEnd notEnded

/-- A section other than the one that registers the stream finds it opened. -/
theorem known (isOpen : action.task ≠ .addStream → ⟨.open, streamId, []⟩ ∈ state.handed)
    (unused : ∀ connection, after.threads.shared.streamOf connection ≠ some streamId) :
    after.handedOf streamId = [] ∧ after.cutOf streamId = [] ∧ streamId ∉ after.ended := by
  obtain ⟨handed, isCut, notEnded⟩ :=
    sound.known fun connection => mt (leaves.continues.kept connection) (unused connection)
  have isStart : action.task = .addStream := by
    by_contra notStart
    have mem : ⟨.open, streamId, []⟩ ∈ state.handedOf streamId :=
      mem_filter.mpr ⟨isOpen notStart, by simp⟩
    simp [handed] at mem
  have goesOn : streamId ∉ state.threads.shared.streamsEnded config.ingress action := by
    simp [streamsEnded, extracted?, isStart]
  have dropped : frames = [] := leaves.raises.dropped goesOn (absurd isStart ·)
  simp [leaves.continues.handed, handed, leaves.cut, isCut, dropped, leaves.ended, notEnded, goesOn]

end Leaves

namespace Sound

theorem proceed {made : Bool} (nonzero : streamId ≠ 0) (sound : Sound streamId state)
    (separate : state.threads.Separate config.ingress (.proceed index made))
    (inTurn : ∀ action ∈ next? state.threads.calls index, state.InTurn config streamId made action)
    (taken : state.proceed config index made = some after) : Sound streamId after := by
  obtain ⟨action, frames, isNext, leaves⟩ := sound.leaves nonzero separate taken
  have turn := inTurn action isNext
  rw [InTurn] at turn
  generalize eventsOf streamId (state.threads.shared.act config.ingress made action).2 = raised
    at turn leaves
  by_cases quiet : raised = [] ∧ streamId ∉ state.threads.shared.streamsEnded config.ingress action
  · exact leaves.sound_of_quiet sound quiet.1 quiet.2
  · obtain ⟨idle, isOpen, flows⟩ := turn (by tauto)
    have nothing := sound.toHandle_eq_nil idle
    have phase := leaves.phase sound
      (fun isStart => (separate.fresh sound.serving.orderly isNext isStart).2) (by tauto) nothing
      isOpen flows
    refine ⟨leaves.serving, leaves.known sound isOpen, index, ?_, ?_⟩
    · intro other isOther
      rw [leaves.work, if_neg isOther, nothing]
    · rwa [leaves.work, if_pos rfl, nothing, append_nil]

theorem begin {event : ThreadEvent} {threads : Threads} (sound : Sound streamId state)
    (noProceed : ∀ index made, event ≠ .proceed index made)
    (separate : state.threads.Separate config.ingress event)
    (stepped : state.threads.step config.ingress event = some threads) :
    Sound streamId { state with threads } := by
  have traced := sound.serving.traced separate stepped
  refine sound.mono (sound.serving.thread separate stepped fun _ _ => .inl)
    ⟨fun _ isStream => traced.kept isStream, traced.events, rfl, fun _ _ isHand _ _ => .inl isHand⟩
    rfl Iff.rfl ?_
  intro index
  obtain ⟨call, isCalls, silent⟩ : ∃ call, threads.calls = start state.threads.calls call ∧
    eventsOf streamId call = [] := eventsOf_begin noProceed stepped
  rcases lt_trichotomy index state.threads.calls.length with inCall | rfl | later
  · simp [toHandle, isCalls, start, getElem?_append_left inCall]
  · simp [toHandle, isCalls, start, silent]
  · simp [toHandle, isCalls, start, getElem?_eq_none, later.le, Nat.succ_le_of_lt later]

/-- The events that are left when a call is in the handler of one of the stream. -/
theorem own {task : HandlerTask} {event : TcpEvent} (sound : Sound streamId state)
    (inHandler : state.handlers index = some task) (isEvent : task.event? = some event)
    (isOwn : event.streamId = streamId) :
    (∀ other ≠ index, state.toHandle streamId other = []) ∧
      Phase streamId state
        (event :: eventsOf streamId (state.threads.calls[index]?.getD [])) ∧
      ∃ connection, state.threads.shared.streamOf connection = some streamId := by
  have mem := mem_toHandle inHandler isEvent isOwn
  obtain ⟨busy, others, phase⟩ := sound.phase
  obtain rfl : busy = index := by
    by_contra isOther
    simp [others index (Ne.symm isOther)] at mem
  have left : state.toHandle streamId busy =
      event :: eventsOf streamId (state.threads.calls[busy]?.getD []) := by
    simp [toHandle, inHandler, isEvent, isOwn]
  refine ⟨others, left ▸ phase, ?_⟩
  by_contra unused
  have unopened := (sound.known (by simpa using unused)).1
  obtain ⟨-, isRaised⟩ := sound.serving.raised inHandler isEvent
  rw [left] at phase
  cases phase with
  | unopened waiting =>
    obtain ⟨rfl, -⟩ : event = connected streamId ∧ _ := by simpa using waiting
    rcases isRaised with (isData | isClosed) | ⟨-, isStream⟩
    · cases isData
    · cases isClosed
    · exact unused isStream
  | flowing _ _ _ handed | closing _ _ handed | ended _ _ handed =>
    simp [handed, opened] at unopened

theorem toHandle_next {admission : AdmissionControl} {handed : List HandedFrame}
    {admitted ended : List ℕ} (task : Option HandlerTask) (other : ℕ) :
    ({ state with admission, handed, admitted, ended }.next index task).toHandle streamId other =
      if other = index then (task.bind HandlerTask.event?).toList.filter (·.streamId = streamId) ++
        eventsOf streamId (state.threads.calls[index]?.getD [])
      else state.toHandle streamId other := by
  split_ifs with here
  · simp [toHandle, next, here]
  · simp [toHandle, next, here]

/-- The handler of an event goes on, and no frame of the stream is refused or handed over. -/
theorem next {admission : AdmissionControl} {handed : List HandedFrame} {admitted ended : List ℕ}
    {task : HandlerTask} {later : Option HandlerTask} (sound : Sound streamId state)
    (inHandler : state.handlers index = some task)
    (serving : ({ state with admission, handed, admitted, ended }.next index later).Serving)
    (isHanded : handed.filter (·.streamId = streamId) = state.handedOf streamId)
    (isEnded : streamId ∈ ended ↔ streamId ∈ state.ended)
    (same : (later.bind HandlerTask.event?).toList.filter (·.streamId = streamId) =
      task.event?.toList.filter (·.streamId = streamId))
    (hands : ∀ event, later = some (.hand event) → event.streamId = streamId → event.type = .data →
      streamId ∉ state.ended) :
    Sound streamId ({ state with admission, handed, admitted, ended }.next index later) := by
  refine sound.mono serving ⟨fun _ => id, fun _ => id, isHanded, ?_⟩ rfl isEnded ?_
  · intro other event isHand isOwn isData
    by_cases here : other = index
    · exact .inr (hands event (by simpa [IngressRuntime.next, here] using isHand) isOwn isData)
    · exact .inl (by simpa [IngressRuntime.next, here] using isHand)
  · intro other
    rw [toHandle_next]
    split_ifs with here
    · simp [toHandle, here, inHandler, same]
    · rfl

theorem refuse {admission : AdmissionControl} {event : TcpEvent} (sound : Sound streamId state)
    (inHandler : state.handlers index = some (.ask event)) (isOwn : event.streamId = streamId)
    (isData : event.type = .data)
    (serving : ({ state with admission, ended := event.streamId :: state.ended }.next index
      (some (.release event.streamId))).Serving) :
    Sound streamId ({ state with admission, ended := event.streamId :: state.ended }.next index
      (some (.release event.streamId))) := by
  obtain ⟨others, phase, connection, isStream⟩ := sound.own inHandler rfl isOwn
  refine ⟨serving, fun unused => absurd isStream (unused connection), index, ?_, ?_⟩
  · intro other isOther
    simp [toHandle_next, isOther, others]
  rw [toHandle_next, if_pos rfl]
  cases phase with
  | unopened waiting =>
    obtain ⟨rfl, -⟩ : event = connected streamId ∧ _ := by simpa using waiting
    cases isData
  | flowing delivered frames isFrames handed cut =>
    cases frames with
    | nil => cases isFrames
    | cons frame rest =>
      refine .flowing delivered rest (List.cons.inj isFrames).2 handed cut
        (absurd (by simp [IngressRuntime.next, isOwn]) ·) ?_
      intro _ other event isHand isSame
      by_cases here : other = index
      · simp [IngressRuntime.next, here] at isHand
      · have mem := mem_toHandle (by simpa [IngressRuntime.next, here] using isHand) rfl isSame
        simp [others other here] at mem
  | closing _ finish =>
    obtain ⟨rfl, -⟩ : event = closed streamId ∧ _ := by simpa using finish
    cases isData
  | ended _ nothing => cases nothing

theorem hand {event : TcpEvent} (sound : Sound streamId state)
    (inHandler : state.handlers index = some (.hand event)) (isOwn : event.streamId = streamId)
    (serving : (state.handle config index (.hand event)).Serving) :
    Sound streamId (state.handle config index (.hand event)) := by
  obtain ⟨others, phase, connection, isStream⟩ := sound.own inHandler rfl isOwn
  refine ⟨serving, fun unused => absurd isStream (unused connection), index, ?_, ?_⟩
  · intro other isOther
    simp [IngressRuntime.handle, toHandle_next, isOther, others]
  have handed : (state.handle config index (.hand event)).handedOf streamId =
      state.handedOf streamId ++ event.handed.filter (·.streamId = streamId) := by
    simp [IngressRuntime.handle, IngressRuntime.next, handedOf]
  have nonzero := sound.serving.orderly.streams.nonzero isStream
  rw [IngressRuntime.handle, toHandle_next, if_pos rfl]
  rw [IngressRuntime.handle] at handed
  cases phase with
  | unopened waiting isHanded isCut goesOn =>
    obtain ⟨rfl, none⟩ : event = connected streamId ∧ _ := by simpa using waiting
    refine .flowing [] [] none ?_ nil_prefix (fun _ => isCut) fun ends => absurd ends goesOn
    rw [handed, isHanded]
    simp [TcpEvent.handed, connected, nonzero, opened]
  | flowing delivered frames isFrames isHanded cut goesOn refuses =>
    cases frames with
    | nil => cases isFrames
    | cons frame rest =>
      obtain ⟨rfl, isRest⟩ := List.cons.inj isFrames
      have notEnded : streamId ∉ state.ended := fun ends => refuses ends index _ inHandler rfl rfl
      have isCut : state.cutOf streamId = (delivered ++ [frame]) ++ rest := by
        simpa using goesOn notEnded
      refine .flowing (delivered ++ [frame]) rest isRest ?_ ⟨rest, isCut.symm⟩ (fun _ => isCut)
        fun ends => absurd ends notEnded
      rw [handed, isHanded]
      simp [TcpEvent.handed, dataEvent, nonzero, opened]
  | closing delivered finish isHanded cut ends =>
    have seen := (sound.serving.raised inHandler rfl).1
    obtain ⟨rfl, none⟩ : event = closed streamId ∧ _ := by simpa using finish
    refine .ended delivered none ?_ cut ends seen
    rw [handed, isHanded]
    simp [TcpEvent.handed, closed, nonzero]
  | ended _ nothing => cases nothing

theorem handle {task : HandlerTask} (sound : Sound streamId state)
    (inHandler : state.handlers index = some task)
    (admissible : state.Admissible config streamId task) :
    Sound streamId (state.handle config index task) := by
  have serving : (state.handle config index task).Serving := sound.serving.handle inHandler
  cases task with
  | ask event =>
    cases isType : event.type with
    | connected =>
      simp only [IngressRuntime.handle, IngressRuntime.ask, isType] at serving ⊢
      split_ifs at serving ⊢ with accepted
      · refine sound.next inHandler serving rfl Iff.rfl rfl ?_
        simp +contextual [isType]
      · refine sound.next inHandler serving rfl Iff.rfl ?_ (by simp)
        have isOther : event.streamId ≠ streamId := fun isOwn =>
          accepted (isOwn ▸ (admissible isOwn).1 isType)
        simp [HandlerTask.event?, isOther]
    | closed =>
      simp only [IngressRuntime.handle, IngressRuntime.ask, isType] at serving ⊢
      refine sound.next inHandler serving rfl Iff.rfl rfl ?_
      simp +contextual [isType]
    | data =>
      simp only [IngressRuntime.handle, IngressRuntime.ask, isType] at serving ⊢
      split_ifs at serving ⊢ with accepted
      · refine sound.next inHandler serving rfl Iff.rfl rfl ?_
        rintro _ ⟨⟩ isOwn - ends
        exact absurd accepted (by simp [(admissible isOwn).2 isType ends])
      · by_cases isOwn : event.streamId = streamId
        · exact sound.refuse inHandler isOwn isType serving
        · refine sound.next inHandler serving rfl (by simp [Ne.symm isOwn]) ?_ (by simp)
          simp [HandlerTask.event?, isOwn]
  | release own => exact sound.next inHandler serving rfl Iff.rfl rfl (by simp)
  | shutdownStream own =>
    refine sound.mono serving ⟨fun _ => id, fun _ => id, rfl, ?_⟩ rfl Iff.rfl ?_
    · intro other event isHand _ _
      by_cases here : other = index
      · simp [IngressRuntime.handle, IngressRuntime.next, here] at isHand
      · exact .inl (by simpa [IngressRuntime.handle, IngressRuntime.next, here] using isHand)
    · intro other
      by_cases here : other = index
      · subst here
        have isCall := getElem?_eq_getElem (sound.serving.inCall inHandler)
        simp [toHandle, IngressRuntime.handle, IngressRuntime.next, inHandler, HandlerTask.event?,
          prepend, isCall, eventsOf_operate]
      · simp [toHandle, IngressRuntime.handle, IngressRuntime.next, here, prepend, Ne.symm here]
  | hand event =>
    by_cases isOwn : event.streamId = streamId
    · exact sound.hand inHandler isOwn serving
    · refine sound.next inHandler serving ?_ Iff.rfl (by simp [HandlerTask.event?, isOwn]) (by simp)
      have other : event.handed.filter (·.streamId = streamId) = [] := by
        unfold TcpEvent.handed
        split_ifs
        · rfl
        · split <;> simp [isOwn]
      simp [handedOf, other]

theorem step {event : IngressRuntimeEvent} (nonzero : streamId ≠ 0) (sound : Sound streamId state)
    (regular : state.Regular config streamId event) (taken : state.step config event = some after) :
    Sound streamId after := by
  cases event with
  | clock | tunnelFrame =>
    cases taken
    exact sound.mono ⟨sound.serving.orderly, sound.serving.announced, sound.serving.inCall,
      sound.serving.raised⟩ ⟨fun _ => id, fun _ => id, rfl, fun _ _ isHand _ _ => .inl isHand⟩ rfl
      Iff.rfl fun _ => rfl
  | thread event =>
    cases event with
    | proceed index made => exact sound.proceed nonzero regular.1 regular.2 taken
    | accept | recvCompleted | sendCompleted | operate =>
      simp only [IngressRuntime.step, map_eq_some_iff] at taken
      obtain ⟨threads, stepped, rfl⟩ := taken
      exact sound.begin (by simp) regular.1 stepped
  | handle index =>
    obtain ⟨task, inHandler, rfl⟩ := map_eq_some_iff.mp taken
    exact sound.handle inHandler (regular task inHandler)

theorem initial (startMs : ℤ) : Sound streamId (.initial config startMs) where
  serving := .initial startMs
  known _ := ⟨rfl, rfl, not_mem_nil⟩
  phase := ⟨0, fun _ _ => rfl, .unopened (.inl rfl) rfl rfl not_mem_nil⟩

theorem inOrder (sound : Sound streamId state) :
    InOrder streamId (state.handedOf streamId) (state.cutOf streamId) := by
  obtain ⟨_, -, phase⟩ := sound.phase
  cases phase with
  | unopened _ handed => exact ⟨[], nil_prefix, handed ▸ nil_prefix⟩
  | flowing delivered _ _ handed cut | closing delivered _ handed cut =>
    exact ⟨delivered, cut, handed ▸ prefix_append _ _⟩
  | ended delivered _ handed cut => exact ⟨delivered, cut, handed ▸ prefix_rfl⟩

end Sound

end IngressRuntime

end IotProxy.Proxy
