import IotProxy.Lib.Interleaving
import IotProxy.Myring.TcpServer
import IotProxy.Proxy.TcpIngress

/-!
# TCP ingress with threads

The accept thread, the worker threads and the threads that use the streams call into the server and
the ingress at the same time. Both have a mutex, but a call holds it only for a short section: it
looks up or changes a table, and calls back, closes the socket or queues a request after the lock
has been released. So calls are lists of actions that interleave, where every action is one locked
section, one step of the kernel or one call of the handler.

The kernel may give a descriptor to the next connection as soon as it has been closed, and a request
may complete at any time later, with any result. A connection object is named by a number, in the
order of acceptance, which the requests and actions for it carry.

`streamOf`, `received` and `buffered` record the stream that a connection got, the chunks that were
received on it, and those that were handed to the buffer of a stream. A chunk for which the buffer
has no room is among them: `appendData` refuses it, and the connection is shut down.

`TcpServer::stop` is not modelled.
-/

namespace IotProxy.Proxy

open Interleaving
open IotProxy.Myring (ConnectionState TcpServer RecvResult)

/-- What a locked section does. -/
inductive Task where
  | pushFirstRecv
  | acceptResult (accepted : Bool)
  | handleConnection
  | addStream
  | removeStream
  | handleReadClosed
  | handleData (data : Bytes)
  | notify (event : TcpEvent)
  | checkConnected
  | rearmRecv
  | pushRecv
  | send
  | sendOnConnection
  | pushSend
  | cancelSend
  | shutdownWriteConnection
  | shutdownConnection
  | closeSocket
  deriving DecidableEq

structure Action where
  connection : ℕ
  task : Task
  deriving DecidableEq

inductive StreamOperation where
  | sendToStream
  | shutdownStreamWrite
  | shutdownStream
  deriving DecidableEq

def StreamOperation.task : StreamOperation → Task
  | .sendToStream => .send
  | .shutdownStreamWrite => .shutdownWriteConnection
  | .shutdownStream => .shutdownConnection

/-- What the threads share, and what is recorded about the run. -/
structure Shared where
  server : TcpServer := {}
  fdOf : ℕ → ℕ := fun _ => 0
  accepted : ℕ := 0
  sockets : ℕ → Bool := fun _ => false
  recvs : List ℕ := []
  sends : List ℕ := []
  ingress : TcpIngress := {}
  streamOf : ℕ → Option ℕ := fun _ => none
  received : List (ℕ × Bytes) := []
  buffered : List (ℕ × Bytes) := []

namespace Shared

variable (config : TcpIngressConfig) (shared : Shared)

def disconnect (connection taken : ℕ) : List Action :=
  [⟨connection, .closeSocket⟩, ⟨taken, .handleConnection⟩]

def delivery (connection streamId : ℕ) (extracted : TcpIngress.Extracted) : List Action :=
  if extracted.closeConnection then [⟨connection, .shutdownConnection⟩]
  else extracted.frames.map fun frame =>
    ⟨connection, .notify { type := .data, streamId, payload := frame }⟩

theorem mem_delivery {connection streamId : ℕ} {extracted : TcpIngress.Extracted} {action : Action}
    (mem : action ∈ delivery connection streamId extracted) :
    action.connection = connection ∧ (action.task = .shutdownConnection ∨
      ∃ frame, action.task = .notify { type := .data, streamId, payload := frame }) := by
  unfold delivery at mem
  split at mem
  · cases List.mem_singleton.mp mem
    exact ⟨rfl, .inl rfl⟩
  · rcases List.mem_map.mp mem with ⟨frame, _, rfl⟩
    exact ⟨rfl, .inr ⟨frame, rfl⟩⟩

/-- `make_initial_recv_request`, up to the request. -/
def accept (fd : ℕ) : Shared :=
  { shared with
    server := shared.server.register fd shared.accepted
    fdOf := Function.update shared.fdOf shared.accepted fd
    accepted := shared.accepted + 1
    sockets := Function.update shared.sockets fd true }

@[simp] theorem ingress_accept (fd : ℕ) : (shared.accept fd).ingress = shared.ingress := rfl

@[simp] theorem streamOf_accept (fd : ℕ) : (shared.accept fd).streamOf = shared.streamOf := rfl

def completeRecv (connection : ℕ) (result : RecvResult) : Shared :=
  { shared with
    recvs := shared.recvs.erase connection
    received :=
      match result with
      | .data bytes => shared.received ++ [(connection, bytes)]
      | _ => shared.received }

def completeSend (connection : ℕ) : Shared :=
  { shared with sends := shared.sends.erase connection }

/-- `handle_recv`. -/
def recvCompleted (connection : ℕ) (result : RecvResult) : Shared × List Action :=
  match shared.server.handleRecv (shared.fdOf connection) result with
  | (server, none) => ({ shared with server }, [])
  | (server, some outcome) =>
    let shared := { shared with server }
    match result with
    | .data bytes =>
      (shared, [⟨outcome.connection, .handleData bytes⟩, ⟨outcome.connection, .checkConnected⟩])
    | _ =>
      if outcome.shouldDisconnect then (shared, disconnect connection outcome.connection)
      else if outcome.shouldNotifyReadClosed then
        (shared, [⟨outcome.connection, .handleReadClosed⟩])
      else (shared, [⟨outcome.connection, .checkConnected⟩])

/-- `handle_send` and `shutdown_write_connection`, after their section. -/
def finishWrite (connection : ℕ) : TcpServer × Option Myring.SendOutcome → Shared × List Action
  | (server, none) => ({ shared with server }, [])
  | (server, some outcome) =>
    ({ shared with server },
      if outcome.shouldDisconnect then disconnect connection outcome.connection else [])

/-- `handle_send`. -/
def sendCompleted (connection : ℕ) (succeeded : Bool) : Shared × List Action :=
  shared.finishWrite connection (shared.server.handleSend (shared.fdOf connection) succeeded)

theorem server_recvCompleted (connection : ℕ) (result : RecvResult) :
    (shared.recvCompleted connection result).1.server =
      (shared.server.handleRecv (shared.fdOf connection) result).1 := by
  unfold recvCompleted
  rcases shared.server.handleRecv (shared.fdOf connection) result with ⟨server, _ | outcome⟩
  · rfl
  · cases result <;> simp only <;> split_ifs <;> rfl

theorem server_sendCompleted (connection : ℕ) (succeeded : Bool) :
    (shared.sendCompleted connection succeeded).1.server =
      (shared.server.handleSend (shared.fdOf connection) succeeded).1 := by
  unfold sendCompleted finishWrite
  rcases shared.server.handleSend (shared.fdOf connection) succeeded with ⟨server, _ | outcome⟩ <;>
    rfl

/-- One action, with the actions that follow it in its call. -/
def act (made : Bool) (action : Action) : Shared × List Action :=
  let connection := action.connection
  let fd := shared.fdOf connection
  match action.task with
  | .pushFirstRecv =>
    if made then
      ({ shared with recvs := connection :: shared.recvs }, [⟨connection, .acceptResult true⟩])
    else (shared, [⟨connection, .acceptResult false⟩])
  | .acceptResult accepted =>
    match shared.server.acceptResult fd accepted with
    | (server, none) =>
      ({ shared with server }, if accepted then [] else [⟨connection, .closeSocket⟩])
    | (server, some found) => ({ shared with server }, [⟨found, .handleConnection⟩])
  | .handleConnection =>
    if shared.server.connected connection then (shared, [⟨connection, .addStream⟩])
    else (shared, [⟨connection, .removeStream⟩])
  | .addStream =>
    let streamId := shared.ingress.newStreamId config
    ({ shared with
        ingress := shared.ingress.addStream config fd connection
        streamOf := Function.update shared.streamOf connection (some streamId) },
      [⟨connection, .notify { type := .connected, streamId }⟩])
  | .removeStream =>
    let (ingress, event) := shared.ingress.removeStream fd
    ({ shared with ingress }, event.toList.map (⟨connection, .notify ·⟩))
  | .handleReadClosed =>
    let (ingress, event) := shared.ingress.closeReading fd
    ({ shared with ingress }, event.toList.map (⟨connection, .notify ·⟩))
  | .handleData data =>
    match shared.ingress.bufferData config fd data with
    | (ingress, none) => ({ shared with ingress }, [])
    | (ingress, some (streamId, extracted)) =>
      ({ shared with ingress, buffered := shared.buffered ++ [(streamId, data)] },
        delivery connection streamId extracted)
  | .notify event => ({ shared with ingress := shared.ingress.notify event }, [])
  | .checkConnected =>
    (shared, if shared.server.connected connection then [⟨connection, .rearmRecv⟩] else [])
  | .rearmRecv =>
    match shared.server.connections fd with
    | none => (shared, [])
    | some state => (shared, [⟨state.connection, .pushRecv⟩])
  | .pushRecv =>
    if made then ({ shared with recvs := connection :: shared.recvs }, [])
    else (shared, [⟨connection, .shutdownConnection⟩])
  | .send =>
    (shared, if shared.server.connected connection then [⟨connection, .sendOnConnection⟩] else [])
  | .sendOnConnection =>
    match shared.server.beginSend fd with
    | (server, none) => ({ shared with server }, [])
    | (server, some found) => ({ shared with server }, [⟨found, .pushSend⟩])
  | .pushSend =>
    if made then ({ shared with sends := connection :: shared.sends }, [])
    else (shared, [⟨connection, .cancelSend⟩, ⟨connection, .shutdownConnection⟩])
  | .cancelSend => ({ shared with server := shared.server.cancelSend fd }, [])
  | .shutdownWriteConnection => shared.finishWrite connection (shared.server.shutdownWrite fd)
  | .shutdownConnection =>
    match shared.server.shutdown fd with
    | (server, none) => ({ shared with server }, [])
    | (server, some taken) => ({ shared with server }, disconnect connection taken)
  | .closeSocket => ({ shared with sockets := Function.update shared.sockets fd false }, [])

theorem act_frame (made : Bool) (action : Action) :
    (shared.act config made action).1.fdOf = shared.fdOf ∧
      (shared.act config made action).1.accepted = shared.accepted ∧
      (shared.act config made action).1.recvs ⊆ action.connection :: shared.recvs ∧
      (shared.act config made action).1.sends ⊆ action.connection :: shared.sends := by
  rcases action with ⟨connection, task⟩
  cases task <;> simp only [act, finishWrite] <;> (repeat' split) <;> simp

def operate (streamId : ℕ) (operation : StreamOperation) : List Action :=
  if streamId = 0 then []
  else
    match shared.ingress.connectionByStream streamId with
    | none => []
    | some connection => [⟨connection, operation.task⟩]

end Shared

structure Threads where
  shared : Shared := {}
  calls : List (List Action) := []

inductive ThreadEvent where
  | accept (fd : ℕ)
  | recvCompleted (connection : ℕ) (result : RecvResult)
  | sendCompleted (connection : ℕ) (succeeded : Bool)
  | operate (streamId : ℕ) (operation : StreamOperation)
  | proceed (index : ℕ) (made : Bool)
  deriving DecidableEq

namespace Threads

variable (config : TcpIngressConfig) (state : Threads)

def begin (next : Shared × List Action) : Threads :=
  ⟨next.1, start state.calls next.2⟩

def step : ThreadEvent → Option Threads
  | .accept fd =>
    if state.shared.sockets fd then none
    else some (state.begin
      (state.shared.accept fd, [⟨state.shared.accepted, .pushFirstRecv⟩]))
  | .recvCompleted connection result =>
    -- a receive of no bytes is the end of the stream
    if connection ∈ state.shared.recvs ∧ result ≠ .data [] then
      some (state.begin
        ((state.shared.completeRecv connection result).recvCompleted connection result))
    else none
  | .sendCompleted connection succeeded =>
    if connection ∈ state.shared.sends then
      some (state.begin
        ((state.shared.completeSend connection).sendCompleted connection succeeded))
    else none
  | .operate streamId operation =>
    some (state.begin (state.shared, state.shared.operate streamId operation))
  | .proceed index made => do
      let action ← next? state.calls index
      let (shared, more) := state.shared.act config made action
      return ⟨shared, resume state.calls index more⟩

def pending : Multiset Action := Interleaving.pending state.calls

@[simp] theorem pending_begin (next : Shared × List Action) :
    (state.begin next).pending = next.2 + state.pending :=
  pending_start state.calls next.2

/-- What a step makes of the shared state and of the pending actions. -/
inductive Steps : ThreadEvent → Shared → Multiset Action → Prop where
  | accept {fd : ℕ} (free : state.shared.sockets fd = false) :
    Steps (.accept fd) (state.shared.accept fd)
      (⟨state.shared.accepted, .pushFirstRecv⟩ ::ₘ state.pending)
  | recvCompleted {connection : ℕ} {result : RecvResult} (mem : connection ∈ state.shared.recvs) :
    Steps (.recvCompleted connection result)
      ((state.shared.completeRecv connection result).recvCompleted connection result).1
      (((state.shared.completeRecv connection result).recvCompleted connection result).2 +
        state.pending)
  | sendCompleted {connection : ℕ} {succeeded : Bool} (mem : connection ∈ state.shared.sends) :
    Steps (.sendCompleted connection succeeded)
      ((state.shared.completeSend connection).sendCompleted connection succeeded).1
      (((state.shared.completeSend connection).sendCompleted connection succeeded).2 +
        state.pending)
  | operate (streamId : ℕ) (operation : StreamOperation) :
    Steps (.operate streamId operation) state.shared
      (state.shared.operate streamId operation + state.pending)
  | proceed {index : ℕ} {made : Bool} {action : Action} {others : Multiset Action}
    (next : next? state.calls index = some action) (before : state.pending = action ::ₘ others) :
    Steps (.proceed index made) (state.shared.act config made action).1
      ((state.shared.act config made action).2 + others)

variable {config state} in
theorem steps_of_step {event : ThreadEvent} {after : Threads}
    (taken : state.step config event = some after) :
    Steps config state event after.shared after.pending := by
  cases event with
  | accept fd =>
    simp only [step, Option.ite_none_left_eq_some, Bool.not_eq_true, Option.some.injEq] at taken
    rcases taken with ⟨free, rfl⟩
    rw [pending_begin]
    exact .accept free
  | recvCompleted connection result =>
    simp only [step, Option.ite_none_right_eq_some, Option.some.injEq] at taken
    rcases taken with ⟨⟨mem, _⟩, rfl⟩
    rw [pending_begin]
    exact .recvCompleted mem
  | sendCompleted connection succeeded =>
    simp only [step, Option.ite_none_right_eq_some, Option.some.injEq] at taken
    rcases taken with ⟨mem, rfl⟩
    rw [pending_begin]
    exact .sendCompleted mem
  | operate streamId operation =>
    cases taken
    rw [pending_begin]
    exact .operate streamId operation
  | proceed index made =>
    simp only [step, Option.bind_eq_bind, Option.bind_eq_some_iff] at taken
    rcases taken with ⟨action, next, same⟩
    cases same
    rcases pending_of_next next with ⟨others, before, resumed⟩
    rw [pending, resumed]
    exact .proceed next before

end Threads

end IotProxy.Proxy
