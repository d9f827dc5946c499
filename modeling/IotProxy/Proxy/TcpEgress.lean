import IotProxy.Proxy.Address

/-!
# TCP egress

The table of connections to the target, by stream id, and the threads that read from them. A
connection is an object of its own: it can outlive its place in the table, and its reading thread,
when it ends, removes from the table whatever the stream id stands for then.

To speak about connections the model names each by who opened it, the stream id and a serial number.
-/

namespace IotProxy.Proxy

structure TcpEgressConfig where
  target : Ipv4Endpoint
  maxStreams : ℕ := 4096

inductive ConnAction where
  | write (bytes : Bytes)
  | shutdownWrite
  | close
  deriving DecidableEq

/-- What has been done to a connection, in order, and whether its thread is reading. -/
structure EgressConn where
  actions : List ConnAction := []
  isOpen : Bool := true
  reading : Bool := true
  deriving DecidableEq

structure ConnRef (κ : Type) where
  opener : κ
  streamId : ℕ
  serial : ℕ
  deriving DecidableEq

structure TcpEgress (κ : Type) where
  stopping : Bool := false
  streams : List (ConnRef κ) := []
  /-- The connections of each opener under each stream id, in the order they were opened. -/
  conns : κ → ℕ → List EgressConn := fun _ _ => []

/-- How a write to a socket ends: it may fail after some of the bytes. -/
inductive WriteOutcome where
  | complete
  | failed (taken : ℕ)
  deriving DecidableEq

namespace TcpEgress

variable {κ : Type}

def lookup (egress : TcpEgress κ) (streamId : ℕ) : Option (ConnRef κ) :=
  egress.streams.find? (·.streamId = streamId)

def conn (egress : TcpEgress κ) (ref : ConnRef κ) : Option EgressConn :=
  (egress.conns ref.opener ref.streamId)[ref.serial]?

def removeStream (egress : TcpEgress κ) (streamId : ℕ) : TcpEgress κ :=
  { egress with streams := egress.streams.filter (·.streamId ≠ streamId) }

variable [DecidableEq κ]

def modifyConn (egress : TcpEgress κ) (ref : ConnRef κ) (change : EgressConn → EgressConn) :
    TcpEgress κ :=
  { egress with
    conns := Function.update egress.conns ref.opener
      (Function.update (egress.conns ref.opener) ref.streamId
        ((egress.conns ref.opener ref.streamId).modify ref.serial change)) }

def act (action : ConnAction) (conn : EgressConn) : EgressConn :=
  { conn with actions := conn.actions ++ [action] }

/-- `close_fd`: close the connection in both directions, unless that has been done. -/
def closeConn (conn : EgressConn) : EgressConn :=
  if conn.isOpen then { act .close conn with isOpen := false } else conn

def openStream (config : TcpEgressConfig) (egress : TcpEgress κ) (opener : κ) (streamId : ℕ)
    (connects : Bool) : TcpEgress κ × Bool :=
  if streamId = 0 ∨ config.target.host = [] ∨ config.target.port = 0 ∨ egress.stopping then
    (egress, false)
  else if (egress.lookup streamId).isSome ∨ config.maxStreams ≤ egress.streams.length then
    (egress, false)
  else if !connects then (egress, false)
  else
    let opened := egress.conns opener streamId
    ({ egress with
        streams := { opener, streamId, serial := opened.length } :: egress.streams
        conns := Function.update egress.conns opener
          (Function.update (egress.conns opener) streamId (opened ++ [{}])) }, true)

def closeStream (egress : TcpEgress κ) (streamId : ℕ) : TcpEgress κ :=
  match egress.lookup streamId with
  | none => egress
  | some ref => (egress.removeStream streamId).modifyConn ref closeConn

/-- Write to a stream; a failed write closes it. -/
def sendToStream (egress : TcpEgress κ) (streamId : ℕ) (payload : Bytes)
    (outcome : WriteOutcome) : TcpEgress κ × Bool :=
  if streamId = 0 ∨ payload = [] ∨ egress.stopping then (egress, false)
  else
    match egress.lookup streamId with
    | none => (egress, false)
    | some ref =>
      if !(egress.conn ref).any (·.isOpen) then (egress, false)
      else
        match outcome with
        | .complete =>
          (egress.modifyConn ref (act (.write payload)), true)
        | .failed taken =>
          let sent := egress.modifyConn ref (act (.write (payload.take taken)))
          (sent.closeStream streamId, false)

def shutdownStreamWrite (egress : TcpEgress κ) (streamId : ℕ) : TcpEgress κ :=
  if streamId = 0 then egress
  else
    match egress.lookup streamId with
    | none => egress
    | some ref =>
      egress.modifyConn ref fun conn =>
        if conn.isOpen then act .shutdownWrite conn else conn

/-- The end of `read_loop`: the stream id is removed from the table, and the connection is closed
if it was open. The result says whether the end is reported. -/
def readEnd (egress : TcpEgress κ) (ref : ConnRef κ) : TcpEgress κ × Bool :=
  if !(egress.conn ref).any (·.reading) then (egress, false)
  else
    let wasOpen := (egress.conn ref).any (·.isOpen)
    let ended := egress.modifyConn ref fun conn => { closeConn conn with reading := false }
    (ended.removeStream ref.streamId, wasOpen && !egress.stopping)

def stop (egress : TcpEgress κ) : TcpEgress κ :=
  if egress.stopping then egress
  else
    let closed := egress.streams.foldl
      (fun egress ref => egress.modifyConn ref closeConn) egress
    { closed with stopping := true, streams := [] }

section Lemmas

variable (egress : TcpEgress κ) (ref : ConnRef κ) (change : EgressConn → EgressConn)

@[simp] theorem modifyConn_streams : (egress.modifyConn ref change).streams = egress.streams := rfl

@[simp] theorem modifyConn_stopping : (egress.modifyConn ref change).stopping = egress.stopping :=
  rfl

@[simp] theorem modifyConn_lookup (streamId : ℕ) :
    (egress.modifyConn ref change).lookup streamId = egress.lookup streamId := rfl

theorem modifyConn_conns (opener : κ) (streamId : ℕ) :
    (egress.modifyConn ref change).conns opener streamId =
      if opener = ref.opener ∧ streamId = ref.streamId then
        (egress.conns opener streamId).modify ref.serial change
      else egress.conns opener streamId := by
  by_cases sameOpener : opener = ref.opener
  · subst sameOpener
    by_cases sameStream : streamId = ref.streamId
    · subst sameStream
      simp [modifyConn]
    · simp [modifyConn, sameStream]
  · simp [modifyConn, sameOpener]

omit [DecidableEq κ] in
theorem streamId_of_lookup {egress : TcpEgress κ} {ref : ConnRef κ} {streamId : ℕ}
    (found : egress.lookup streamId = some ref) : ref.streamId = streamId := by
  simpa using List.find?_some found

omit [DecidableEq κ] in
theorem removeStream_lookup (streamId other : ℕ) :
    (egress.removeStream streamId).lookup other =
      if other = streamId then none else egress.lookup other := by
  simp only [removeStream, lookup, List.find?_filter]
  split
  · next same =>
      rw [List.find?_eq_none]
      simp [same]
  · next different =>
      congr 1
      funext ref
      by_cases found : ref.streamId = other <;> simp [found, different]

end Lemmas

end TcpEgress

end IotProxy.Proxy
