import IotProxy.Myring.ProactorThread
import IotProxy.Myring.TcpServer

/-!
# The order of the bytes sent on a connection

A call of `send_on_connection` that returns true pushes one request to the worker thread of the
connection. `payloads` are the data of these calls in their order, and `socket` the bytes that the
kernel has written, for every descriptor.
-/

namespace IotProxy.Myring

open EventSystem List Option

inductive SendEvent where
  /-- A call of `send_on_connection`. There may be no memory for the request. -/
  | send (fd : ℕ) (data : Bytes) (made : Bool)
  | submit (prepared : Bool)
  | complete (fd sent : ℕ)
  | process (prepared : Bool)
  deriving DecidableEq

structure SendState where
  server : TcpServer := {}
  thread : ProactorThread := {}
  socket : ℕ → Bytes := fun _ => []
  payloads : ℕ → List Bytes := fun _ => []

def dataOf (fd : ℕ) (requests : List SendRequest) : Bytes :=
  (requests.filter (·.fd = fd)).flatMap (·.data)

variable {request : SendRequest}

section DataOf

variable {fd : ℕ}

@[simp] theorem dataOf_nil : dataOf fd [] = [] := rfl

theorem dataOf_cons (request : SendRequest) (requests : List SendRequest) :
    dataOf fd (request :: requests) =
      (if request.fd = fd then request.data else []) ++ dataOf fd requests := by
  by_cases own : request.fd = fd <;> simp [dataOf, own]

theorem dataOf_append (left right : List SendRequest) :
    dataOf fd (left ++ right) = dataOf fd left ++ dataOf fd right := by
  simp [dataOf]

theorem dataOf_eraseP_of_ne {other : ℕ} (different : other ≠ fd) (requests : List SendRequest) :
    dataOf fd (requests.eraseP (·.fd = other)) = dataOf fd requests := by
  induction requests with
  | nil => rfl
  | cons request requests ih =>
    by_cases here : request.fd = other
    · simp [dataOf_cons, here, different]
    · simp [dataOf_cons, here, ih]

theorem countP_eraseP_of_ne {other : ℕ} (different : other ≠ fd) (requests : List SendRequest) :
    (requests.eraseP (·.fd = other)).countP (·.fd = fd) = requests.countP (·.fd = fd) := by
  induction requests with
  | nil => rfl
  | cons request requests ih =>
    by_cases here : request.fd = other
    · simp [here, different]
    · simp [here, countP_cons, ih]

variable {requests : List SendRequest}

theorem dataOf_of_find (found : requests.find? (·.fd = fd) = some request) :
    dataOf fd requests = request.data ++ dataOf fd (requests.eraseP (·.fd = fd)) := by
  induction requests with
  | nil => simp at found
  | cons head requests ih =>
    by_cases here : head.fd = fd
    · simp only [here, decide_true, List.find?_cons_of_pos, Option.some.injEq] at found
      subst found
      simp [dataOf_cons, here]
    · simp only [here, decide_false, Bool.false_eq_true, not_false_eq_true,
        List.find?_cons_of_neg] at found
      simp [dataOf_cons, here, ih found]

theorem countP_eraseP_add_one (found : requests.find? (·.fd = fd) = some request) :
    (requests.eraseP (·.fd = fd)).countP (·.fd = fd) + 1 = requests.countP (·.fd = fd) := by
  induction requests with
  | nil => simp at found
  | cons head requests ih =>
    by_cases here : head.fd = fd
    · simp [here]
    · simp only [here, decide_false, Bool.false_eq_true, not_false_eq_true,
        List.find?_cons_of_neg] at found
      simp [here, ih found]

theorem dataOf_eq_nil (none : requests.countP (·.fd = fd) = 0) : dataOf fd requests = [] := by
  have filtered : requests.filter (·.fd = fd) = [] := by
    simpa [← countP_eq_length_filter] using none
  simp [dataOf, filtered]

end DataOf

namespace ProactorThread

variable (thread : ProactorThread) (fd : ℕ)

def unfinished : List SendRequest :=
  ((thread.ready.filter (·.1.fd = fd)).map fun entry => entry.1.advance entry.2).filter
    (!·.finished)

/-- What the thread has not sent yet, in the order in which it will be sent if no send ends
short. -/
def outstanding : Bytes :=
  dataOf fd (thread.unfinished fd) ++ dataOf fd thread.inflight ++ dataOf fd thread.queue

end ProactorThread

namespace SendState

def send (state : SendState) (fd : ℕ) (data : Bytes) (made : Bool) : SendState :=
  match state.server.beginSend fd with
  | (server, none) => { state with server }
  | (server, some _) =>
    if data = [] then { state with server }
    else if made then
      { state with
        server
        thread := state.thread.push { fd, buffer := data }
        payloads := Function.update state.payloads fd (state.payloads fd ++ [data]) }
    else { state with server := ((server.cancelSend fd).shutdown fd).1 }

def step (state : SendState) : SendEvent → Option SendState
  | .send fd data made => some (state.send fd data made)
  | .submit prepared => do
      let thread ← state.thread.drainSubmission prepared
      return { state with thread }
  | .complete fd sent => do
      let (bytes, thread) ← state.thread.complete fd sent
      return { state with
        thread
        socket := Function.update state.socket fd (state.socket fd ++ bytes) }
  | .process prepared => do
      match ← state.thread.process prepared with
      | (thread, none) => return { state with thread }
      | (thread, some request) =>
        return { state with thread, server := (state.server.handleSend request.fd true).1 }

/-- Every submission succeeds, a send ends short only while it is alone in flight, and no other send
of its connection is submitted before its rest. -/
def InOrder (state : SendState) : SendEvent → Prop
  | .send .. => True
  | .submit prepared => prepared = true ∧
      ∀ request ∈ state.thread.queue.head?, state.thread.unfinished request.fd = []
  | .complete fd sent => ∀ request ∈ state.thread.inflight.find? (·.fd = fd),
      sent < request.remaining → state.thread.inflight.countP (·.fd = fd) = 1
  | .process prepared => prepared = true

instance (state : SendState) : (event : SendEvent) → Decidable (state.InOrder event)
  | .send .. => inferInstanceAs (Decidable True)
  | .submit _ => inferInstanceAs (Decidable (_ ∧ _))
  | .complete .. => inferInstanceAs (Decidable (∀ request ∈ _, _))
  | .process _ => inferInstanceAs (Decidable (_ = _))

end SendState

namespace ProactorThread

variable {thread after : ProactorThread} {fd : ℕ}

/-- Nothing of a descriptor is in flight while the rest of one of its sends has to be submitted. -/
def Alone (thread : ProactorThread) (fd : ℕ) : Prop :=
  thread.unfinished fd = [] ∨
    (thread.unfinished fd).length = 1 ∧ thread.inflight.countP (·.fd = fd) = 0

theorem dataOf_submitRequest (request : SendRequest) :
    dataOf fd (thread.submitRequest request true).inflight =
      dataOf fd thread.inflight ++ dataOf fd [request] := by
  unfold submitRequest
  by_cases none : request.remaining = 0
  · have finished := request.remaining_eq_zero_iff.mp none
    simp [none, dataOf_cons, SendRequest.data_eq_nil_of_finished finished]
  · simp [none, dataOf_append]

theorem countP_submitRequest_of_ne (different : request.fd ≠ fd) :
    (thread.submitRequest request true).inflight.countP (·.fd = fd) =
      thread.inflight.countP (·.fd = fd) := by
  unfold submitRequest
  by_cases none : request.remaining = 0 <;> simp [none, different]

theorem unfinished_submitRequest (request : SendRequest) :
    (thread.submitRequest request true).unfinished fd = thread.unfinished fd := by
  unfold submitRequest
  by_cases none : request.remaining = 0 <;> simp [none, unfinished]

theorem queue_submitRequest (request : SendRequest) :
    (thread.submitRequest request true).queue = thread.queue := by
  unfold submitRequest
  by_cases none : request.remaining = 0 <;> simp [none]

theorem outstanding_push (request : SendRequest) :
    (thread.push request).outstanding fd = thread.outstanding fd ++ dataOf fd [request] := by
  simp [push, outstanding, unfinished, dataOf_append]

theorem drainSubmission_of_ready (ready : ∀ request ∈ thread.queue.head?,
      thread.unfinished request.fd = [])
    (drained : thread.drainSubmission true = some after) (alone : thread.Alone fd) :
    after.outstanding fd = thread.outstanding fd ∧ after.Alone fd := by
  unfold drainSubmission at drained
  cases queued : thread.queue with
  | nil => simp [queued] at drained
  | cons request queue =>
    simp only [queued, Option.some.injEq] at drained
    subst drained
    have none := ready request (by simp [queued])
    refine ⟨?_, ?_⟩
    · simp only [outstanding, unfinished_submitRequest, dataOf_submitRequest,
        queue_submitRequest, queued, dataOf_cons, dataOf_nil, append_assoc, append_nil]
      rfl
    · by_cases own : request.fd = fd
      · left
        rw [unfinished_submitRequest]
        exact own ▸ none
      · simp only [Alone, unfinished_submitRequest, countP_submitRequest_of_ne own]
        exact alone

theorem unfinished_complete {sent : ℕ} (inflight : List SendRequest) :
    ({ thread with inflight, ready := thread.ready ++ [(request, sent)] }).unfinished fd =
      thread.unfinished fd ++
        if request.fd = fd ∧ sent < request.remaining then [request.advance sent] else [] := by
  by_cases own : request.fd = fd <;> by_cases short : sent < request.remaining <;>
    simp [unfinished, own, short, request.finished_advance]

theorem unfinished_process {sent : ℕ} {ready : List (SendRequest × ℕ)}
    (completed : thread.ready = (request, sent) :: ready) (fd : ℕ) :
    thread.unfinished fd =
      (if request.fd = fd ∧ (request.advance sent).finished = false then [request.advance sent]
        else []) ++ ({ thread with ready }).unfinished fd := by
  by_cases own : request.fd = fd <;> cases finished : (request.advance sent).finished <;>
    simp [unfinished, completed, own, finished]

theorem complete_of_alone {sent other : ℕ} {bytes : Bytes}
    (short : ∀ request ∈ thread.inflight.find? (·.fd = other),
      sent < request.remaining → thread.inflight.countP (·.fd = other) = 1)
    (completed : thread.complete other sent = some (bytes, after)) (alone : thread.Alone fd) :
    (if other = fd then bytes else []) ++ after.outstanding fd = thread.outstanding fd ∧
      after.Alone fd := by
  unfold complete at completed
  cases found : thread.inflight.find? (·.fd = other) with
  | none => simp [found] at completed
  | some request =>
    simp only [found, ite_none_right_eq_some, Option.some.injEq, Prod.mk.injEq]
      at completed
    rcases completed with ⟨⟨_, fits⟩, rfl, rfl⟩
    have isOther : request.fd = other := by simpa using List.find?_some found
    by_cases own : other = fd
    · subst own
      have inFlight : thread.inflight.countP (·.fd = other) ≠ 0 := by
        intro zero
        have absent := countP_eq_zero.mp zero request (mem_of_find?_eq_some found)
        simp [isOther] at absent
      have none : thread.unfinished other = [] := by
        rcases alone with none | ⟨_, zero⟩
        · exact none
        · exact absurd zero inFlight
      have data := dataOf_of_find found
      by_cases isShort : sent < request.remaining
      · refine ⟨?_, .inr ⟨?_, ?_⟩⟩
        · simp [outstanding, unfinished_complete, none, isShort, dataOf_cons, data,
            SendRequest.data_advance, isOther, ← append_assoc]
        · simp [unfinished_complete, isOther, none, isShort]
        · have one := short request found isShort
          have fewer := countP_eraseP_add_one found
          rw [one] at fewer
          exact Nat.succ.inj fewer
      · have all : request.data.take sent = request.data := by
          apply take_of_length_le
          rw [request.length_data]
          exact Nat.not_lt.mp isShort
        refine ⟨?_, .inl ?_⟩
        · simp [outstanding, unfinished_complete, none, isShort, data, all]
        · simp [unfinished_complete, none, isShort]
    · refine ⟨?_, ?_⟩
      · simp [outstanding, unfinished_complete, isOther, own, dataOf_eraseP_of_ne own]
      · simpa [Alone, unfinished_complete, isOther, own, countP_eraseP_of_ne own] using alone

theorem process_of_alone {request : Option SendRequest}
    (processed : thread.process true = some (after, request)) (alone : thread.Alone fd) :
    after.outstanding fd = thread.outstanding fd ∧ after.Alone fd := by
  unfold process at processed
  cases completed : thread.ready with
  | nil => simp [completed] at processed
  | cons entry ready =>
    rcases entry with ⟨done, sent⟩
    simp only [completed] at processed
    have before := unfinished_process completed fd
    cases finished : (done.advance sent).finished with
    | true =>
      simp only [finished, if_true, Option.some.injEq, Prod.mk.injEq] at processed
      rcases processed with ⟨rfl, _⟩
      simp only [finished, Bool.true_eq_false, and_false, if_false, nil_append] at before
      simp only [outstanding, Alone, before] at alone ⊢
      exact ⟨trivial, alone⟩
    | false =>
      simp only [finished, Bool.false_eq_true, if_false, Option.some.injEq, Prod.mk.injEq]
        at processed
      rcases processed with ⟨rfl, _⟩
      by_cases own : done.fd = fd
      · simp only [own, finished, and_self, if_true, singleton_append] at before
        have last : ({ thread with ready }).unfinished fd = [] ∧
            thread.inflight.countP (·.fd = fd) = 0 := by
          rcases alone with none | ⟨one, zero⟩
          · simp [before] at none
          · simpa [before, zero] using one
        have idle := dataOf_eq_nil last.2
        refine ⟨?_, .inl ?_⟩
        · simp [outstanding, unfinished_submitRequest, dataOf_submitRequest,
            queue_submitRequest, last.1, before, idle]
        · rw [unfinished_submitRequest, last.1]
      · simp only [own, false_and, if_false, nil_append] at before
        refine ⟨?_, ?_⟩
        · simp [outstanding, unfinished_submitRequest, dataOf_submitRequest,
            queue_submitRequest, dataOf_cons, own, before]
        · have different : (done.advance sent).fd ≠ fd := own
          simpa only [Alone, unfinished_submitRequest, countP_submitRequest_of_ne different,
            ← before] using alone

end ProactorThread

namespace SendState

structure Ordered (fd : ℕ) (state : SendState) : Prop where
  whole : state.socket fd ++ state.thread.outstanding fd = (state.payloads fd).flatten
  alone : state.thread.Alone fd

namespace Ordered

variable {state : SendState} {fd : ℕ}

theorem push (ordered : state.Ordered fd) (server : TcpServer) (other : ℕ) (data : Bytes) :
    Ordered fd { state with
      server
      thread := state.thread.push { fd := other, buffer := data }
      payloads := Function.update state.payloads other (state.payloads other ++ [data]) } := by
  refine ⟨?_, ordered.alone⟩
  rw [ProactorThread.outstanding_push, ← append_assoc, ordered.whole]
  by_cases own : other = fd
  · subst own
    simp [dataOf_cons, SendRequest.data]
  · simp [dataOf_cons, own, Ne.symm own]

theorem send (ordered : state.Ordered fd) (other : ℕ) (data : Bytes) (made : Bool) :
    (state.send other data made).Ordered fd := by
  have unpushed (server : TcpServer) : Ordered fd { state with server } :=
    ⟨ordered.whole, ordered.alone⟩
  unfold SendState.send
  rcases state.server.beginSend other with ⟨server, _ | connection⟩
  · exact unpushed server
  · by_cases empty : data = []
    · simpa [empty] using unpushed server
    · cases made with
      | true => simpa only [empty, if_false, if_true] using ordered.push server other data
      | false => simpa [empty] using unpushed _

theorem step {event : SendEvent} {after : SendState} (inOrder : state.InOrder event)
    (taken : state.step event = some after) (ordered : state.Ordered fd) : after.Ordered fd := by
  cases event with
  | send other data made =>
    cases taken
    exact ordered.send other data made
  | submit prepared =>
    rcases inOrder with ⟨rfl, ready⟩
    simp only [SendState.step, bind_eq_bind, bind_eq_some_iff] at taken
    rcases taken with ⟨thread, drained, same⟩
    cases same
    have kept := ProactorThread.drainSubmission_of_ready ready drained ordered.alone
    exact ⟨kept.1 ▸ ordered.whole, kept.2⟩
  | complete other sent =>
    simp only [SendState.step, bind_eq_bind, bind_eq_some_iff] at taken
    rcases taken with ⟨⟨bytes, thread⟩, completed, same⟩
    cases same
    have kept := ProactorThread.complete_of_alone inOrder completed ordered.alone
    refine ⟨?_, kept.2⟩
    rw [← ordered.whole, ← kept.1, ← append_assoc]
    by_cases own : other = fd
    · subst own
      simp
    · simp [own, Ne.symm own]
  | process prepared =>
    cases inOrder
    simp only [SendState.step, bind_eq_bind, bind_eq_some_iff] at taken
    rcases taken with ⟨⟨thread, request⟩, processed, same⟩
    have kept := ProactorThread.process_of_alone processed ordered.alone
    cases request with
    | none =>
      cases same
      exact ⟨kept.1 ▸ ordered.whole, kept.2⟩
    | some request =>
      cases same
      exact ⟨kept.1 ▸ ordered.whole, kept.2⟩

end Ordered

end SendState

/-- In every run in which sends are not overtaken, the bytes on the socket are a prefix of the
payloads in the order of the calls. -/
theorem socket_prefix_of_inOrder {server : TcpServer} {events : List SendEvent}
    {finish : SendState} (run : Run SendState.step SendState.InOrder { server } events finish)
    (fd : ℕ) : finish.socket fd <+: (finish.payloads fd).flatten := by
  have ordered : finish.Ordered fd := by
    apply run.invariant
    · exact ⟨rfl, .inl rfl⟩
    · intro before after event inOrder taken earlier
      exact earlier.step inOrder taken
  exact ⟨_, ordered.whole⟩

/-- A send ends short and its rest is sent before the next payload. -/
theorem rest_sent_first : ∃ finish,
    Run SendState.step SendState.InOrder { server := TcpServer.register {} 5 0 }
      [.send 5 [1, 2, 3] true, .submit true, .send 5 [4] true, .complete 5 1, .process true,
        .submit true, .complete 5 2, .complete 5 1, .process true] finish ∧
    finish.socket 5 = [1, 2, 3, 4] ∧ finish.socket 5 <+: (finish.payloads 5).flatten := by
  apply Run.exists_of_execute fun finish => finish.socket 5 == [1, 2, 3, 4]
  · decide +kernel
  · intro finish run facts
    exact ⟨by simpa using facts, socket_prefix_of_inOrder run 5⟩

/-- Two sends are in flight, and the first ends short. -/
theorem rest_overtaken : ∃ finish,
    Run SendState.step (fun _ _ => True) { server := TcpServer.register {} 5 0 }
      [.send 5 [1, 2] true, .send 5 [3] true, .submit true, .submit true, .complete 5 1,
        .complete 5 1] finish ∧
    finish.payloads 5 = [[1, 2], [3]] ∧ finish.socket 5 = [1, 3] ∧
      ¬ finish.socket 5 <+: (finish.payloads 5).flatten := by
  apply Run.exists_of_execute fun finish =>
    finish.payloads 5 == [[1, 2], [3]] && finish.socket 5 == [1, 3]
  · decide +kernel
  · intro finish _ facts
    simp only [Bool.and_eq_true, beq_iff_eq] at facts
    refine ⟨facts.1, facts.2, ?_⟩
    rw [facts.1, facts.2]
    decide

end IotProxy.Myring
