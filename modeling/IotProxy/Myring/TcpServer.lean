import IotProxy.Lib.Encoding
import IotProxy.Lib.Run

/-!
# The TCP server

The server keeps a table of its connections by descriptor, under a mutex, and acts on it in short
locked sections: when a connection is accepted, when a request completes, and when somebody sends on
a connection or shuts it down. The sections are functions on the table here; how the threads
interleave them is left to the modules that use them.

A section finds its connection by the descriptor alone. A connection object is named by a number, so
that the entry it finds can be compared with the connection that was meant.
-/

namespace IotProxy.Myring

structure ConnectionState where
  connection : ℕ
  readClosed : Bool := false
  writeShutdownRequested : Bool := false
  writeClosed : Bool := false
  pendingSends : ℕ := 0
  deriving DecidableEq

structure TcpServer where
  connections : ℕ → Option ConnectionState := fun _ => none
  connected : ℕ → Bool := fun _ => false

inductive RecvResult where
  | data (bytes : Bytes)
  | ended
  | failed
  deriving DecidableEq

structure RecvOutcome where
  connection : ℕ
  shouldDisconnect : Bool := false
  shouldNotifyReadClosed : Bool := false
  deriving DecidableEq

structure SendOutcome where
  connection : ℕ
  shouldShutdownWrite : Bool := false
  shouldDisconnect : Bool := false
  deriving DecidableEq

namespace TcpServer

variable (server : TcpServer) (fd : ℕ)

def setState (state : ConnectionState) : TcpServer :=
  { server with connections := Function.update server.connections fd (some state) }

def erase (connection : ℕ) : TcpServer where
  connections := Function.update server.connections fd none
  connected := Function.update server.connected connection false

/-- The section of `make_initial_recv_request`. -/
def register (connection : ℕ) : TcpServer where
  connections := Function.update server.connections fd (some { connection })
  connected := Function.update server.connected connection true

/-- The section of `handle_accept_result`: the connection to call back for, if any. -/
def acceptResult (accepted : Bool) : TcpServer × Option ℕ :=
  match server.connections fd with
  | none => (server, none)
  | some state =>
    if accepted then (server, some state.connection)
    else (server.erase fd state.connection, none)

def handleRecv (result : RecvResult) : TcpServer × Option RecvOutcome :=
  match server.connections fd with
  | none => (server, none)
  | some state =>
    match result with
    | .data _ => (server, some { connection := state.connection })
    | .ended =>
      if state.readClosed then (server, some { connection := state.connection })
      else
        (server.setState fd { state with readClosed := true },
          some { connection := state.connection, shouldNotifyReadClosed := true })
    | .failed =>
      (server.erase fd state.connection,
        some { connection := state.connection, shouldDisconnect := true })

/-- The end of a connection's write side, which is also the end of the connection if its read side
has ended before. -/
def closeWrite (state : ConnectionState) : TcpServer × SendOutcome :=
  if state.readClosed then
    (server.erase fd state.connection,
      { connection := state.connection, shouldShutdownWrite := true, shouldDisconnect := true })
  else
    (server.setState fd { state with writeClosed := true },
      { connection := state.connection, shouldShutdownWrite := true })

def handleSend (succeeded : Bool) : TcpServer × Option SendOutcome :=
  match server.connections fd with
  | none => (server, none)
  | some state =>
    let state := { state with pendingSends := state.pendingSends - 1 }
    if !succeeded then
      (server.erase fd state.connection,
        some { connection := state.connection, shouldDisconnect := true })
    else if state.writeShutdownRequested && state.pendingSends = 0 && !state.writeClosed then
      let (server, outcome) := server.closeWrite fd state
      (server, some outcome)
    else (server.setState fd state, some { connection := state.connection })

/-- The first section of `send_on_connection`: the connection on which the send is counted. -/
def beginSend : TcpServer × Option ℕ :=
  match server.connections fd with
  | none => (server, none)
  | some state =>
    if server.connected state.connection then
      (server.setState fd { state with pendingSends := state.pendingSends + 1 },
        some state.connection)
    else (server, none)

/-- The second section of `send_on_connection`, when there is no request to queue. -/
def cancelSend : TcpServer :=
  match server.connections fd with
  | none => server
  | some state => server.setState fd { state with pendingSends := state.pendingSends - 1 }

def shutdownWrite : TcpServer × Option SendOutcome :=
  match server.connections fd with
  | none => (server, none)
  | some state =>
    if !server.connected state.connection || state.writeClosed then (server, none)
    else
      let state := { state with writeShutdownRequested := true }
      if state.pendingSends = 0 then
        let (server, outcome) := server.closeWrite fd state
        (server, some outcome)
      else (server.setState fd state, some { connection := state.connection })

/-- The section of `shutdown_connection`: the connection that was taken out. -/
def shutdown : TcpServer × Option ℕ :=
  match server.connections fd with
  | none => (server, none)
  | some state => (server.erase fd state.connection, some state.connection)

section Frame

variable {server} {fd} {other : ℕ} (different : other ≠ fd)

include different

theorem connections_handleRecv_of_ne (result : RecvResult) :
    (server.handleRecv fd result).1.connections other = server.connections other := by
  unfold handleRecv
  cases server.connections fd with
  | none => rfl
  | some state =>
    cases result with
    | data bytes => rfl
    | ended =>
      simp only
      split_ifs <;> simp [setState, different]
    | failed => simp [erase, different]

theorem connections_handleSend_of_ne (succeeded : Bool) :
    (server.handleSend fd succeeded).1.connections other = server.connections other := by
  unfold handleSend closeWrite
  cases server.connections fd with
  | none => rfl
  | some state =>
    cases succeeded with
    | false => simp [erase, different]
    | true =>
      simp only [Bool.not_true, Bool.false_eq_true, if_false]
      split_ifs <;> simp [setState, erase, different]

end Frame

end TcpServer

end IotProxy.Myring
