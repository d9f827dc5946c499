import IotProxy.Lib.Framing
import IotProxy.Lib.Run
import IotProxy.Proxy.EdgeData

/-!
# TCP ingress

The connections of devices. A connection gets a stream id when it is accepted. Its bytes are
collected in a buffer, which is cut into edge data frames, each an event for the runtime.

`IngressEvent` has what the server reports of its sockets. A connection that is shut down is gone at
once: the server removes it and calls `handle_connection` before `shutdown` returns. What the
runtime does with an event comes after the call that raised it; it can shut streams down, but not
change the frames that were already cut.
-/

namespace IotProxy.Proxy

inductive TcpEventType where
  | connected
  | data
  | closed
  deriving DecidableEq

structure TcpEvent where
  type : TcpEventType
  streamId : ℕ
  payload : Bytes := []
  deriving DecidableEq

structure TcpIngressConfig where
  recvBufferSize : ℕ := 16 * 1024
  nodeId : ℕ := 1
  maxEdgeFramePayloadSize : ℕ := 1024 * 1024

/-- The tables of the ingress, and the events that it has reported. -/
structure TcpIngress where
  connected : ℕ → Bool := fun _ => false
  streamByFd : ℕ → Option ℕ := fun _ => none
  frameBufferByFd : ℕ → Option Bytes := fun _ => none
  connectionByStream : ℕ → Option ℕ := fun _ => none
  readClosedStreams : Finset ℕ := ∅
  nextStreamId : ℕ := 1
  events : List TcpEvent := []

inductive IngressEvent where
  | accepted (fd : ℕ)
  | received (fd : ℕ) (data : Bytes)
  | readClosed (fd : ℕ)
  | failed (fd : ℕ)
  | shutdownStream (streamId : ℕ)

namespace TcpIngress

section Connection

variable (config : TcpIngressConfig) (ingress : TcpIngress) (fd : ℕ)

/-- The id that the next connection gets. The counter skips the numbers whose low half is zero. -/
def newStreamId : ℕ :=
  let localId := ingress.nextStreamId % 2 ^ 32
  config.nodeId * 2 ^ 32 + if localId = 0 then (ingress.nextStreamId + 1) % 2 ^ 32 else localId

theorem newStreamId_ne_zero : ingress.newStreamId config ≠ 0 := by
  unfold newStreamId
  dsimp only
  split <;> omega

def advance : TcpIngress :=
  let drawn := if ingress.nextStreamId % 2 ^ 32 = 0 then 2 else 1
  { ingress with nextStreamId := (ingress.nextStreamId + drawn) % 2 ^ 64 }

def notify (event : TcpEvent) : TcpIngress :=
  if event.streamId = 0 then ingress else { ingress with events := ingress.events ++ [event] }

/-- The section of `handle_connection` for a connection that is connected. -/
def addStream (connection : ℕ) : TcpIngress :=
  let streamId := ingress.newStreamId config
  { ingress.advance with
    streamByFd := Function.update ingress.streamByFd fd (some streamId)
    frameBufferByFd := Function.update ingress.frameBufferByFd fd (some [])
    connectionByStream := Function.update ingress.connectionByStream streamId (some connection) }

/-- The section of `handle_connection` for a connection that is not connected any more, with the
event that it leads to. -/
def removeStream : TcpIngress × Option TcpEvent :=
  match ingress.streamByFd fd with
  | none => (ingress, none)
  | some streamId =>
    ({ ingress with
        streamByFd := Function.update ingress.streamByFd fd none
        frameBufferByFd := Function.update ingress.frameBufferByFd fd none
        connectionByStream := Function.update ingress.connectionByStream streamId none
        readClosedStreams := ingress.readClosedStreams.erase streamId },
      -- a stream whose end has been reported is not reported again
      some
        { type := .closed
          streamId := if streamId ∈ ingress.readClosedStreams then 0 else streamId })

def handleConnection : TcpIngress :=
  if ingress.connected fd then
    (ingress.addStream config fd fd).notify
      { type := .connected, streamId := ingress.newStreamId config }
  else
    match ingress.removeStream fd with
    | (ingress, none) => ingress
    | (ingress, some event) => ingress.notify event

def accept : TcpIngress :=
  if ingress.connected fd then ingress
  else
    { ingress with connected := Function.update ingress.connected fd true }.handleConnection
      config fd

/-- `TcpServer::shutdown_connection`. -/
def shutdown : TcpIngress :=
  if ingress.connected fd then
    { ingress with connected := Function.update ingress.connected fd false }.handleConnection
      config fd
  else ingress

def shutdownStream (streamId : ℕ) : TcpIngress :=
  if streamId = 0 then ingress
  else
    match ingress.connectionByStream streamId with
    | none => ingress
    | some fd => ingress.shutdown config fd

/-- The section of `handle_read_closed`, with the event that it leads to. -/
def closeReading : TcpIngress × Option TcpEvent :=
  match ingress.streamByFd fd with
  | none => (ingress, none)
  | some streamId =>
    -- an incomplete frame is dropped without a notice
    let ingress := { ingress with
      frameBufferByFd := Function.update ingress.frameBufferByFd fd none }
    if streamId ∈ ingress.readClosedStreams then (ingress, none)
    else
      ({ ingress with readClosedStreams := insert streamId ingress.readClosedStreams },
        some { type := .closed, streamId })

def handleReadClosed : TcpIngress :=
  let (ingress, event) := ingress.closeReading fd
  { ingress with events := ingress.events ++ event.toList }

end Connection

section Data

variable (config : TcpIngressConfig)

structure Extracted where
  frames : List Bytes := []
  buffer : Bytes
  closeConnection : Bool := false

/-- The loop of `handle_data`: cut frames off the buffer. -/
def extractFrames (buffer : Bytes) : Extracted :=
  match edgeDataFramePayloadSize buffer with
  | none => { buffer }
  | some payloadSize =>
    if payloadSize > config.maxEdgeFramePayloadSize then { buffer, closeConnection := true }
    else
      let frameSize := edgeDataFrameHeaderSize + payloadSize
      if _ : buffer.length < frameSize then { buffer }
      else
        let later := extractFrames (buffer.drop frameSize)
        { later with frames := buffer.take frameSize :: later.frames }
termination_by buffer.length
decreasing_by
  rw [List.length_drop]
  have positive : 0 < frameSize := Nat.add_pos_left (by decide) _
  omega

def maxBufferSize : ℕ :=
  (edgeDataFrameHeaderSize + config.maxEdgeFramePayloadSize) % 2 ^ 64

/-- The part of `handle_data` that is under the lock: add the data to the buffer, if there is
room, and cut. -/
def appendData (buffer data : Bytes) : Extracted :=
  if buffer.length > maxBufferSize config ∨ data.length > maxBufferSize config
      ∨ buffer.length > maxBufferSize config - data.length then
    { buffer, closeConnection := true }
  else extractFrames config (buffer ++ data)

/-- The part of `handle_data` after the lock. The frames that were cut are not delivered if the
connection is closed. -/
def deliver (ingress : TcpIngress) (fd streamId : ℕ) (extracted : Extracted) : TcpIngress :=
  if extracted.closeConnection then ingress.shutdown config fd
  else
    { ingress with
      events := ingress.events ++
        extracted.frames.map fun frame => { type := .data, streamId, payload := frame } }

def setBuffer (ingress : TcpIngress) (fd : ℕ) (buffer : Bytes) : TcpIngress :=
  { ingress with frameBufferByFd := Function.update ingress.frameBufferByFd fd (some buffer) }

/-- The section of `handle_data`, with the stream and the frames that were cut. -/
def bufferData (ingress : TcpIngress) (fd : ℕ) (data : Bytes) : TcpIngress × Option (ℕ × Extracted) :=
  match ingress.streamByFd fd with
  | none => (ingress, none)
  | some streamId =>
    let extracted := appendData config ((ingress.frameBufferByFd fd).getD []) data
    (ingress.setBuffer fd extracted.buffer, some (streamId, extracted))

/-- Add received bytes to the buffer of a stream and report the frames. -/
def handleData (ingress : TcpIngress) (fd : ℕ) (data : Bytes) : TcpIngress :=
  if data = [] then ingress
  else
    match ingress.bufferData config fd data with
    | (ingress, none) => ingress
    | (ingress, some (streamId, extracted)) => ingress.deliver config fd streamId extracted

def step (ingress : TcpIngress) : IngressEvent → TcpIngress
  | .accepted fd => ingress.accept config fd
  | .received fd data =>
    if ingress.connected fd then ingress.handleData config fd data else ingress
  | .readClosed fd => if ingress.connected fd then ingress.handleReadClosed fd else ingress
  | .failed fd => ingress.shutdown config fd
  | .shutdownStream streamId => ingress.shutdownStream config streamId

end Data

end TcpIngress

end IotProxy.Proxy
