import IotProxy.Lib.Encoding

/-!
# The send requests of a worker thread

A worker thread submits the requests that others push to its queue to its ring, and processes those
that the kernel has completed. A send may complete with fewer bytes than were asked for; the thread
then submits the rest once more.

The kernel takes the sends of one descriptor in the order in which they were submitted.
-/

namespace IotProxy.Myring

structure SendRequest where
  fd : ℕ
  buffer : Bytes
  offset : ℕ := 0
  deriving DecidableEq

namespace SendRequest

variable (request : SendRequest)

def data : Bytes := request.buffer.drop request.offset

def remaining : ℕ := request.buffer.length - request.offset

def advance (n : ℕ) : SendRequest := { request with offset := request.offset + n }

def finished : Bool := request.buffer.length ≤ request.offset

theorem length_data : request.data.length = request.remaining := by
  simp [data, remaining]

theorem data_advance (n : ℕ) : (request.advance n).data = request.data.drop n := by
  simp [data, advance, Nat.add_comm]

@[simp] theorem fd_advance (n : ℕ) : (request.advance n).fd = request.fd := rfl

theorem finished_advance (n : ℕ) :
    (request.advance n).finished = decide (request.remaining ≤ n) := by
  apply decide_eq_decide.mpr
  simp [advance, remaining, Nat.add_comm]

theorem data_eq_nil_of_finished {request : SendRequest} (finished : request.finished = true) :
    request.data = [] := by
  simpa [data, SendRequest.finished] using finished

theorem remaining_eq_zero_iff : request.remaining = 0 ↔ request.finished = true := by
  simp [remaining, finished, Nat.sub_eq_zero_iff_le]

end SendRequest

structure ProactorThread where
  queue : List SendRequest := []
  /-- The submitted requests that have not completed, in the order of their submission. -/
  inflight : List SendRequest := []
  /-- The completed requests that have not been processed, each with its result. -/
  ready : List (SendRequest × ℕ) := []

namespace ProactorThread

variable (thread : ProactorThread)

def push (request : SendRequest) : ProactorThread :=
  { thread with queue := thread.queue ++ [request] }

/-- A request that cannot be prepared, since the submission queue of the ring is full, is lost. -/
def submitRequest (request : SendRequest) (prepared : Bool) : ProactorThread :=
  if request.remaining = 0 || !prepared then thread
  else { thread with inflight := thread.inflight ++ [request] }

/-- One round of `drain_submissions`. -/
def drainSubmission (prepared : Bool) : Option ProactorThread :=
  match thread.queue with
  | [] => none
  | request :: queue => some ({ thread with queue }.submitRequest request prepared)

def complete (fd sent : ℕ) : Option (Bytes × ProactorThread) :=
  match thread.inflight.find? (·.fd = fd) with
  | none => none
  | some request =>
    if 1 ≤ sent ∧ sent ≤ request.remaining then
      some (request.data.take sent,
        { thread with
          inflight := thread.inflight.eraseP (·.fd = fd)
          ready := thread.ready ++ [(request, sent)] })
    else none

/-- Process one completed send. If it has finished, its callback is called. -/
def process (prepared : Bool) : Option (ProactorThread × Option SendRequest) :=
  match thread.ready with
  | [] => none
  | (request, sent) :: ready =>
    let request := request.advance sent
    if request.finished then some ({ thread with ready }, some request)
    else some ({ thread with ready }.submitRequest request prepared, none)

end ProactorThread

end IotProxy.Myring
