import IotProxy.Lib.Interleaving
import IotProxy.Lib.Run
import IotProxy.Lib.Table
import IotProxy.Proxy.TcpEgress

/-!
# TCP egress with threads

Every stream has a thread that reads from it (`read_loop`), and other threads open streams, close
them and write to them. The table of streams has a mutex that is held for short sections only;
`open` and `stopping` are atomic variables. Calls are lists of actions that interleave: one locked
section, one access to an atomic variable or one call of the kernel.

A stream object is named by its id and by the number of streams that were opened before it. The
thread of a stream, when it ends, removes from the table whatever its id stands for, and reports
that the stream with this id has been closed.

The bytes that are read and written do not matter here, and closing a socket has no effect. The
mutex that orders the writes to one stream is left out, which allows more interleavings.
-/

namespace IotProxy.Proxy

open EventSystem (Run)
open Interleaving List

namespace EgressThreads

/-- A stream object. The serial number is not part of the code's object; it tells objects apart. -/
structure StreamRef where
  id : ℕ
  serial : ℕ
  deriving DecidableEq

/-- Where the thread of a stream is in `read_loop`. -/
inductive ReaderPhase where
  | loadStopping
  | loadOpen
  | receive
  /-- The loop has ended. -/
  | exchangeOpen
  /-- The stream was open: it will be reported unless the egress is stopping. -/
  | decideNotify
  | removeStream (notify : Bool)
  | notifyClosed
  deriving DecidableEq

inductive CallStep where
  | beginOpen (streamId : ℕ)
  | checkRoom (streamId : ℕ)
  | connect (streamId : ℕ)
  | register (streamId : ℕ)
  /-- The thread could not be created. -/
  | dropStream (streamId : ℕ)
  /-- `close_stream` -/
  | removeStream (streamId : ℕ)
  | closeFd (stream : StreamRef)
  | beginSend (streamId : ℕ) (payload : Bytes)
  | findStream (streamId : ℕ)
  | checkOpen (stream : StreamRef)
  | checkOpenLocked (stream : StreamRef)
  | writeAll (stream : StreamRef)
  /-- `stop` -/
  | exchangeStopping
  | collectStreams
  deriving DecidableEq

inductive Action where
  | reader (stream : StreamRef) (phase : ReaderPhase)
  | call (step : CallStep)
  deriving DecidableEq

structure Removal where
  reader : StreamRef
  removed : StreamRef
  deriving DecidableEq

/-- The end of a thread has reported its id, and whether a newer stream with this id had been opened
by then. -/
structure ClosedEvent where
  reader : StreamRef
  newerOpened : Bool
  deriving DecidableEq

inductive RecvOutcome where
  | data
  | interrupted
  | ended
  deriving DecidableEq

structure Answer where
  /-- A connection, a thread or a write. -/
  succeeds : Bool := true
  received : RecvOutcome := .data
  deriving DecidableEq

end EgressThreads

open EgressThreads

structure EgressThreads where
  stopping : Bool := false
  streams : List StreamRef := []
  opened : List StreamRef := []
  isOpen : ℕ → Bool := fun _ => true
  calls : List (List Action) := []
  removals : List Removal := []
  closedEvents : List ClosedEvent := []

namespace EgressThreads

section Actions

variable (config : TcpEgressConfig) (egress : EgressThreads)

def lookup (streamId : ℕ) : Option StreamRef :=
  Table.find (·.id) egress.streams streamId

/-- The section of `remove_stream`. -/
def erase (streamId : ℕ) : EgressThreads :=
  { egress with streams := egress.streams.filter fun stream => stream.id ≠ streamId }

/-- `stream->open.exchange(false)` -/
def shut (stream : StreamRef) : EgressThreads :=
  { egress with isOpen := Function.update egress.isOpen stream.serial false }

def hasRoomFor (streamId : ℕ) : Bool :=
  (egress.lookup streamId).isNone && egress.streams.length < config.maxStreams

def read (stream : StreamRef) (phase : ReaderPhase) (answer : Answer) :
    EgressThreads × Option ReaderPhase :=
  match phase with
  | .loadStopping => (egress, some (if egress.stopping then .exchangeOpen else .loadOpen))
  | .loadOpen => (egress, some (if egress.isOpen stream.serial then .receive else .exchangeOpen))
  | .receive =>
    (egress, some (match answer.received with
      | .data => .loadStopping
      | .interrupted => .loadStopping
      | .ended => .exchangeOpen))
  | .exchangeOpen =>
    (egress.shut stream,
      some (if egress.isOpen stream.serial then .decideNotify else .removeStream false))
  | .decideNotify => (egress, some (.removeStream !egress.stopping))
  | .removeStream notify =>
    let removed := match egress.lookup stream.id with
      | some found => { egress.erase stream.id with
          removals := egress.removals ++ [{ reader := stream, removed := found }] }
      | none => egress
    (removed, if notify then some .notifyClosed else none)
  | .notifyClosed =>
    let newerOpened := egress.opened.any fun other =>
      other.id = stream.id && stream.serial < other.serial
    ({ egress with
        closedEvents := egress.closedEvents ++ [{ reader := stream, newerOpened }] }, none)

def fresh (streamId : ℕ) : StreamRef where
  id := streamId
  serial := egress.opened.length

/-- One locked section, or one system call, of a thread. -/
def act (answer : Answer) : CallStep → EgressThreads × List CallStep
  | .beginOpen streamId =>
    (egress, if streamId = 0 ∨ config.target.host = [] ∨ config.target.port = 0 ∨ egress.stopping
      then [] else [.checkRoom streamId])
  | .checkRoom streamId =>
    (egress, if egress.hasRoomFor config streamId then [.connect streamId] else [])
  | .connect streamId => (egress, if answer.succeeds then [.register streamId] else [])
  | .register streamId =>
    if egress.stopping || !egress.hasRoomFor config streamId then (egress, [])
    else
      let stream := egress.fresh streamId
      let registered := { egress with
        streams := stream :: egress.streams
        opened := egress.opened ++ [stream] }
      if answer.succeeds then
        ({ registered with calls := start egress.calls [.reader stream .loadStopping] }, [])
      else (registered, [.dropStream streamId])
  | .dropStream streamId => (egress.erase streamId, [])
  | .removeStream streamId =>
    match egress.lookup streamId with
    | some stream => (egress.erase streamId, [.closeFd stream])
    | none => (egress, [])
  | .closeFd stream => (egress.shut stream, [])
  | .beginSend streamId payload =>
    (egress, if streamId = 0 ∨ payload = [] ∨ egress.stopping then [] else [.findStream streamId])
  | .findStream streamId =>
    (egress, match egress.lookup streamId with
      | some stream => [.checkOpen stream]
      | none => [])
  | .checkOpen stream =>
    (egress, if egress.isOpen stream.serial then [.checkOpenLocked stream] else [])
  | .checkOpenLocked stream =>
    (egress, if egress.isOpen stream.serial then [.writeAll stream] else [])
  | .writeAll stream => (egress, if answer.succeeds then [] else [.removeStream stream.id])
  | .exchangeStopping =>
    ({ egress with stopping := true }, if egress.stopping then [] else [.collectStreams])
  | .collectStreams => ({ egress with streams := [] }, egress.streams.map .closeFd)

end Actions

inductive Event where
  | openStream (streamId : ℕ)
  | sendToStream (streamId : ℕ) (payload : Bytes)
  | closeStream (streamId : ℕ)
  | stop
  | advance (index : ℕ) (answer : Answer)

section Step

variable (config : TcpEgressConfig) (egress : EgressThreads)

def begin (step : CallStep) : EgressThreads :=
  { egress with calls := start egress.calls [.call step] }

def take (index : ℕ) (answer : Answer) : Action → EgressThreads
  | .reader stream phase =>
    let (after, next) := egress.read stream phase answer
    { after with calls := resume after.calls index (next.map (.reader stream)).toList }
  | .call step =>
    let (after, more) := egress.act config answer step
    { after with calls := resume after.calls index (more.map .call) }

def step : Event → Option EgressThreads
  | .openStream streamId => some (egress.begin (.beginOpen streamId))
  | .sendToStream streamId payload => some (egress.begin (.beginSend streamId payload))
  | .closeStream streamId => some (egress.begin (.removeStream streamId))
  | .stop => some (egress.begin .exchangeStopping)
  | .advance index answer => (next? egress.calls index).map (egress.take config index answer)

def Action.readerId : Action → Option ℕ
  | .reader stream _ => some stream.id
  | .call _ => none

def Action.registers : Action → Option ℕ
  | .call (.register streamId) => some streamId
  | _ => none

/-- A stream is registered only when the threads of all earlier streams with its id have ended. -/
def ReadersEnded (egress : EgressThreads) : Event → Prop
  | .advance index _ => ∀ streamId ∈ (next? egress.calls index).bind Action.registers,
      ∀ action ∈ pending egress.calls, action.readerId ≠ some streamId
  | _ => True

end Step

section Separation

variable {config : TcpEgressConfig} {egress : EgressThreads} {stream : StreamRef}
  {phase : ReaderPhase} {answer : Answer} {index : ℕ}

/-- No stream with the same id was opened later. -/
def Newest (opened : List StreamRef) (stream : StreamRef) : Prop :=
  ∀ other ∈ opened, other.id = stream.id → other.serial ≤ stream.serial

/-- The action does not belong to the thread of a stream that has a successor. -/
def Action.Current (opened : List StreamRef) : Action → Prop
  | .reader stream _ => Newest opened stream
  | .call _ => True

structure Recorded (egress : EgressThreads) : Prop where
  listed : ∀ stream ∈ egress.streams, stream ∈ egress.opened
  serial : ∀ stream ∈ egress.opened, stream.serial < egress.opened.length
  removals : ∀ removal ∈ egress.removals, ¬removal.reader.serial < removal.removed.serial
  closedEvents : ∀ event ∈ egress.closedEvents, event.newerOpened = false

structure Separate (egress : EgressThreads) : Prop extends Recorded egress where
  current : ∀ action ∈ pending egress.calls, action.Current egress.opened

theorem mem_of_lookup {streamId : ℕ} (found : egress.lookup streamId = some stream) :
    stream ∈ egress.streams ∧ stream.id = streamId :=
  ⟨Table.mem_of_find found, Table.key_of_find found⟩

theorem Recorded.erase (recorded : egress.Recorded) (streamId : ℕ) :
    (egress.erase streamId).Recorded :=
  { recorded with
    listed := fun stream mem => recorded.listed stream (mem_of_mem_filter mem) }

theorem Recorded.withCalls (recorded : egress.Recorded) (calls : List (List Action)) :
    Recorded { egress with calls } :=
  { recorded with }

theorem Recorded.read (recorded : egress.Recorded) (newest : Newest egress.opened stream) :
    (egress.read stream phase answer).1.Recorded := by
  cases phase with
  | removeStream notify =>
    simp only [EgressThreads.read]
    cases found : egress.lookup stream.id with
    | none => exact recorded
    | some other =>
      obtain ⟨mem, same⟩ := mem_of_lookup found
      have older := newest other (recorded.listed other mem) same
      refine { recorded.erase stream.id with removals := ?_ }
      intro removal isRemoval
      rcases mem_append.mp isRemoval with earlier | last
      · exact recorded.removals removal earlier
      · rw [mem_singleton.mp last]
        exact not_lt.mpr older
  | notifyClosed =>
    refine { recorded with closedEvents := ?_ }
    intro event isEvent
    rcases mem_append.mp isEvent with earlier | last
    · exact recorded.closedEvents event earlier
    · rw [mem_singleton.mp last]
      simp only [any_eq_false, Bool.and_eq_true, decide_eq_true_eq, not_and, not_lt]
      exact newest
  | _ => exact { recorded with }

theorem read_frame : (egress.read stream phase answer).1.opened = egress.opened ∧
    (egress.read stream phase answer).1.calls = egress.calls := by
  cases phase with
  | removeStream notify =>
    simp only [EgressThreads.read]
    cases egress.lookup stream.id with
    | none => exact ⟨rfl, rfl⟩
    | some other => exact ⟨rfl, rfl⟩
  | _ => exact ⟨rfl, rfl⟩

variable (config egress answer) in
inductive Acted : CallStep → EgressThreads → Prop where
  | other {step : CallStep} {after : EgressThreads} (recorded : egress.Recorded → after.Recorded)
      (sameOpened : after.opened = egress.opened) (sameCalls : after.calls = egress.calls) :
      Acted step after
  | registered {streamId : ℕ} {calls : List (List Action)}
      (spawned : calls = egress.calls ∨
        calls = start egress.calls [.reader (egress.fresh streamId) .loadStopping]) :
      Acted (.register streamId)
        { egress with
          streams := egress.fresh streamId :: egress.streams
          opened := egress.opened ++ [egress.fresh streamId]
          calls }

theorem act_outcome (step : CallStep) : Acted egress step (egress.act config answer step).1 := by
  cases step with
  | register streamId =>
    simp only [act]
    split_ifs
    · exact .other id rfl rfl
    · exact .registered (.inr rfl)
    · exact .registered (.inl rfl)
  | dropStream streamId => exact .other (fun recorded => recorded.erase streamId) rfl rfl
  | removeStream streamId =>
    simp only [act]
    cases egress.lookup streamId with
    | none => exact .other id rfl rfl
    | some stream => exact .other (fun recorded => recorded.erase streamId) rfl rfl
  | closeFd stream => exact .other (fun recorded => { recorded with }) rfl rfl
  | exchangeStopping => exact .other (fun recorded => { recorded with }) rfl rfl
  | collectStreams =>
    refine .other (fun recorded => { recorded with listed := ?_ }) rfl rfl
    intro stream mem
    cases mem
  | _ => exact .other id rfl rfl

theorem Recorded.register (recorded : egress.Recorded) {streamId : ℕ} {calls : List (List Action)} :
    Recorded { egress with
      streams := egress.fresh streamId :: egress.streams
      opened := egress.opened ++ [egress.fresh streamId]
      calls } :=
  { recorded with
    listed := by
      intro stream mem
      rw [mem_append, mem_singleton]
      rcases mem_cons.mp mem with rfl | old
      · exact .inr rfl
      · exact .inl (recorded.listed stream old)
    serial := by
      intro stream mem
      rw [length_append, length_singleton]
      rcases mem_append.mp mem with old | new
      · exact Nat.lt_succ_of_lt (recorded.serial stream old)
      · rw [mem_singleton.mp new]
        exact Nat.lt_succ_self _ }

theorem newest_fresh (recorded : egress.Recorded) (streamId : ℕ) :
    Newest (egress.opened ++ [egress.fresh streamId]) (egress.fresh streamId) := by
  intro other mem _
  rcases mem_append.mp mem with old | new
  · exact (recorded.serial other old).le
  · rw [mem_singleton.mp new]

theorem Newest.register (newest : Newest egress.opened stream) {streamId : ℕ}
    (other : stream.id ≠ streamId) : Newest (egress.opened ++ [egress.fresh streamId]) stream := by
  intro later mem same
  rcases mem_append.mp mem with old | new
  · exact newest later old same
  · rw [mem_singleton.mp new] at same
    exact absurd same.symm other

theorem Separate.begin (separate : egress.Separate) (step : CallStep) :
    (egress.begin step).Separate where
  toRecorded := separate.withCalls _
  current := forall_pending_start separate.current (fun _ current => current) (by
    intro action mem
    rw [mem_singleton.mp mem]
    trivial)

theorem Separate.reader (separate : egress.Separate)
    (next : next? egress.calls index = some (.reader stream phase)) :
    (egress.take config index answer (.reader stream phase)).Separate := by
  have newest : Newest egress.opened stream := separate.current _ (mem_pending_of_next next)
  have recorded : (egress.read stream phase answer).1.Recorded := separate.read newest
  obtain ⟨sameOpened, sameCalls⟩ := @read_frame egress stream phase answer
  refine ⟨recorded.withCalls _, ?_⟩
  simp only [take, sameOpened, sameCalls]
  apply forall_pending_resume next separate.current (fun _ current => current)
  intro action mem
  rw [Option.mem_toList, Option.map_eq_some_iff] at mem
  obtain ⟨after, -, rfl⟩ := mem
  exact newest

theorem Separate.call (separate : egress.Separate) {step : CallStep}
    (next : next? egress.calls index = some (.call step))
    (ended : ReadersEnded egress (.advance index answer)) :
    (egress.take config index answer (.call step)).Separate := by
  have outcome := @act_outcome config egress answer step
  simp only [take]
  generalize (egress.act config answer step).1 = after at outcome ⊢
  generalize (egress.act config answer step).2 = more
  have isCall : ∀ action ∈ more.map Action.call, ∀ opened, action.Current opened := by
    intro action mem opened
    obtain ⟨step, -, rfl⟩ := mem_map.mp mem
    trivial
  cases outcome with
  | other recorded sameOpened sameCalls =>
    refine ⟨(recorded separate.toRecorded).withCalls _, ?_⟩
    simp only [sameOpened, sameCalls]
    exact forall_pending_resume next separate.current (fun _ current => current)
      fun action mem => isCall action mem _
  | @registered streamId calls spawned =>
    refine ⟨separate.register, ?_⟩
    have kept : ∀ action ∈ pending egress.calls,
        action.Current (egress.opened ++ [egress.fresh streamId]) := by
      intro action mem
      have current := separate.current action mem
      cases action with
      | reader stream phase =>
        have registers : (next? egress.calls index).bind Action.registers = some streamId := by
          rw [next]
          rfl
        have other := ended streamId registers _ mem
        exact Newest.register current fun same => other (congrArg some same)
      | call step => trivial
    rcases spawned with rfl | rfl
    · exact forall_pending_resume next kept (fun _ current => current)
        fun action mem => isCall action mem _
    · have started : ∀ action ∈ pending (start egress.calls
          [.reader (egress.fresh streamId) .loadStopping]),
          action.Current (egress.opened ++ [egress.fresh streamId]) := by
        apply forall_pending_start kept (fun _ current => current)
        intro action mem
        rw [mem_singleton.mp mem]
        exact newest_fresh separate.toRecorded streamId
      exact forall_pending_resume (next?_start_of_next next _) started (fun _ current => current)
        fun action mem => isCall action mem _

theorem Separate.step {event : Event} {after : EgressThreads} (separate : egress.Separate)
    (ended : ReadersEnded egress event) (stepped : egress.step config event = some after) :
    after.Separate := by
  cases event with
  | advance index answer =>
    obtain ⟨action, next, rfl⟩ := Option.map_eq_some_iff.mp stepped
    cases action with
    | reader stream phase => exact separate.reader next
    | call step => exact separate.call next ended
  | _ =>
    cases stepped
    exact separate.begin _

/-- The end of a thread neither removes nor reports a newer stream with its id, in every run in which
a stream is registered only when no thread of an earlier one is left. -/
theorem newer_streams_spared {events : List Event}
    (run : Run (EgressThreads.step config) ReadersEnded {} events egress) :
    (∀ removal ∈ egress.removals, ¬removal.reader.serial < removal.removed.serial) ∧
      ∀ event ∈ egress.closedEvents, event.newerOpened = false := by
  have separate : egress.Separate := by
    apply run.invariant
    · exact ⟨⟨by simp, by simp, by simp, by simp⟩, by simp⟩
    · intro before after event ended stepped separate
      exact separate.step ended stepped
  exact ⟨separate.removals, separate.closedEvents⟩

section Example

def target : TcpEgressConfig where
  target := { host := "127.0.0.1".toList, port := 80 }

instance (egress : EgressThreads) (event : Event) : Decidable (ReadersEnded egress event) :=
  match event with
  | .advance index _ => inferInstanceAs (Decidable
      (∀ streamId ∈ (next? egress.calls index).bind Action.registers,
        ∀ action ∈ pending egress.calls, action.readerId ≠ some streamId))
  | .openStream _ | .sendToStream _ _ | .closeStream _ | .stop => .isTrue trivial

def opening (call : ℕ) : List Event :=
  .openStream 1 :: List.replicate 4 (.advance call {})

def ending (call steps : ℕ) : List Event :=
  List.replicate steps (.advance call { received := .ended })

/-- The stream is opened again after the thread of the first one has ended. -/
theorem reopened_after_end :
    ∃ egress, Run (EgressThreads.step target) ReadersEnded {}
        (opening 0 ++ ending 1 7 ++ opening 2) egress ∧
      egress.removals.length = 1 ∧ egress.closedEvents.length = 1 ∧
      egress.lookup 1 = some ⟨1, 1⟩ ∧
      (∀ removal ∈ egress.removals, ¬removal.reader.serial < removal.removed.serial) ∧
        ∀ event ∈ egress.closedEvents, event.newerOpened = false := by
  apply Run.exists_of_execute fun egress => egress.removals.length = 1 &&
    egress.closedEvents.length = 1 && egress.lookup 1 = some ⟨1, 1⟩
  · decide +kernel
  · intro egress run facts
    simp only [Bool.and_eq_true, decide_eq_true_eq] at facts
    exact ⟨facts.1.1, facts.1.2, facts.2, newer_streams_spared run⟩

/-- A stream is closed and opened again before its thread has ended: the thread removes the new
stream. And a stream is opened again before a thread reports that it has ended: the report comes
while the new stream is in the table. -/
theorem newer_stream_hit :
    (∃ egress, Run (EgressThreads.step target) (fun _ _ => True) {}
        (opening 0 ++ .closeStream 1 :: List.replicate 2 (.advance 2 {}) ++ opening 3 ++ ending 1 4)
        egress ∧
      egress.removals = [{ reader := ⟨1, 0⟩, removed := ⟨1, 1⟩ }] ∧ egress.lookup 1 = none) ∧
    ∃ egress, Run (EgressThreads.step target) (fun _ _ => True) {}
        (opening 0 ++ ending 1 6 ++ opening 2 ++ ending 1 1) egress ∧
      egress.closedEvents = [{ reader := ⟨1, 0⟩, newerOpened := true }] ∧
        egress.lookup 1 = some ⟨1, 1⟩ := by
  constructor
  · apply Run.exists_of_execute fun egress =>
      egress.removals = [{ reader := ⟨1, 0⟩, removed := ⟨1, 1⟩ }] && egress.lookup 1 = none
    · decide +kernel
    · intro egress _ facts
      simpa using facts
  · apply Run.exists_of_execute fun egress =>
      egress.closedEvents = [{ reader := ⟨1, 0⟩, newerOpened := true }] &&
        egress.lookup 1 = some ⟨1, 1⟩
    · decide +kernel
    · intro egress _ facts
      simpa using facts

end Example

end Separation

end EgressThreads

end IotProxy.Proxy
