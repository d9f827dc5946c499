import IotProxy.Lib.Interleaving
import IotProxy.Lib.Run

/-!
# The event loop of a worker thread

`ProactorThread` runs a loop over an `io_uring`. Any thread may `push` a request to it: the request
is put into a bounded queue, then a counter (an `eventfd`) is written. A read of that counter is in
the ring while `wakeup_armed_` is set; when it completes, the loop drains the queue, and submits
what it finds to the ring. Completed requests have their callbacks called on the loop's own thread,
and these may push as well.

`step` is one atomic action of a pushing thread, of the loop or of the kernel. A place in the queue
is claimed before it is filled (`Slot.published`), and the loop does not pop past a place that is
not filled.
-/

namespace IotProxy.Myring

open Interleaving Option

inductive RequestType where
  | accept
  | recv
  | send
  | udpRecv
  | udpSend
  | timeout
  | close
  | unknown
  | wakeup
  deriving DecidableEq

/-- A request. Of a send request it matters how many bytes have still to be sent. -/
structure Request where
  type : RequestType
  remaining : ℕ := 0
  deriving DecidableEq

def Request.advance (request : Request) (result : ℤ) : Request :=
  if 0 < result then { request with remaining := request.remaining - result.toNat } else request

theorem Request.type_advance (request : Request) (result : ℤ) :
    (request.advance result).type = request.type := by
  unfold Request.advance
  split <;> rfl

structure Entry where
  ticket : ℕ
  request : Request
  deriving DecidableEq

structure Slot where
  entry : Entry
  published : Bool := false

/-- What a call of `push` has still to do; `stop` notifies the loop as well, without a ticket. -/
inductive PushAction where
  | pushWait (request : Request)
  | publish (ticket : ℕ)
  | notifyWakeup (ticket : Option ℕ)
  deriving DecidableEq

/-- An entry of the ring: the read of the counter, or a request. -/
inductive Sqe where
  | wakeup
  | request (ticket : ℕ)
  deriving DecidableEq

abbrev Cqe := Sqe × ℤ

/-- Where the loop goes on after a request: with the rest of the queue or with the rest of the
completions. In both cases there may be further completions of the batch. -/
inductive Resume where
  | drain (batch : List Cqe)
  | handle (batch : List Cqe)
  deriving DecidableEq

inductive Point where
  | top
  | waiting
  | handling (batch : List Cqe)
  | draining (batch : List Cqe)
  /-- In a callback. An `owner` is submitted again afterwards; `push` is the call of `push` that the
  callback is in. -/
  | calling (resume : Resume) (owner : Option Entry) (push : List PushAction)
  | peeking
  | exited
  deriving DecidableEq

def Resume.point : Resume → Point
  | .drain batch => .draining batch
  | .handle batch => .handling batch

def Resume.batch : Resume → List Cqe
  | .drain batch | .handle batch => batch

def Point.batch : Point → List Cqe
  | .handling batch | .draining batch => batch
  | .calling resume _ _ => resume.batch
  | .top | .waiting | .peeking | .exited => []

def Point.push : Point → List PushAction
  | .calling _ _ push => push
  | _ => []

theorem Resume.batch_point (resume : Resume) : resume.point.batch = resume.batch := by
  cases resume <;> rfl

theorem Resume.push_point (resume : Resume) : resume.point.push = [] := by
  cases resume <;> rfl

structure EventLoopConfig where
  capacity : ℕ := 4096
  maxEvents : ℕ := 64

def EventLoopConfig.eventLimit (config : EventLoopConfig) : ℕ :=
  if config.maxEvents = 0 then 1 else config.maxEvents

/-- The answers of the ring: whether it has a free entry, and how many of the filled entries
`io_uring_submit` hands to the kernel, unless it fails. -/
structure RingAnswers where
  sqe : Bool := true
  submitted : Option ℕ

/-- The loop with its rings and its queue, and what is recorded about the run. -/
structure EventLoop where
  running : Bool := true
  wakeupArmed : Bool := false
  /-- The counter of the `eventfd`. -/
  wakeCounter : ℕ := 0
  /-- The requests that got a ticket, in the order of the tickets. -/
  pushed : List Request := []
  queue : List Slot := []
  calls : List (List PushAction) := []
  accepted : List ℕ := []
  inflight : List Entry := []
  prepared : List Sqe := []
  submitted : List Sqe := []
  completions : List Cqe := []
  point : Point := .top
  called : List Entry := []
  refused : List Entry := []

namespace EventLoop

variable (config : EventLoopConfig) (loop : EventLoop)

def pushActions : Multiset PushAction := pending loop.calls + loop.point.push

section Push

/-- One action of a call of `push`, and those that it leads to. There is no action while the queue is
full: `push_wait` tries again. -/
def takeAction : PushAction → Option (EventLoop × List PushAction)
  | .pushWait request =>
    if loop.queue.length < config.capacity then
      let ticket := loop.pushed.length
      some ({ loop with
          pushed := loop.pushed ++ [request]
          queue := loop.queue ++ [{ entry := { ticket, request } }] },
        [.publish ticket])
    else none
  | .publish ticket =>
    some ({ loop with
        queue := loop.queue.map fun slot =>
          if slot.entry.ticket = ticket then { slot with published := true } else slot },
      [.notifyWakeup (some ticket)])
  | .notifyWakeup ticket =>
    some ({ loop with
        wakeCounter := loop.wakeCounter + 1
        accepted := loop.accepted ++ ticket.toList },
      [])

def pop : Option (Entry × EventLoop) :=
  match loop.queue with
  | slot :: queue => if slot.published then some (slot.entry, { loop with queue }) else none
  | [] => none

end Push

section Ring

def prepare (sqe : Sqe) : EventLoop :=
  { loop with prepared := loop.prepared ++ [sqe] }

/-- `io_uring_submit`; `none` if it fails. The entries stay filled then. -/
def submit (answers : RingAnswers) : Option EventLoop :=
  answers.submitted.map fun count =>
    { loop with
      prepared := loop.prepared.drop count
      submitted := loop.submitted ++ loop.prepared.take count }

/-- The loop with the read of the counter in the ring. If the ring does not take it, the loop ends. -/
def armWakeup (answers : RingAnswers) : EventLoop :=
  if answers.sqe then
    match (loop.prepare .wakeup).submit answers with
    | some loop => { loop with wakeupArmed := true, point := .waiting }
    | none => { loop.prepare .wakeup with running := false, point := .exited }
  else { loop with running := false, point := .exited }

/-- The kernel completes an entry. A read of the counter takes its value, unless the read fails. -/
def complete (sqe : Sqe) (result : ℤ) : Option EventLoop :=
  if sqe ∈ loop.submitted then
    let completed :=
      { loop with
        submitted := loop.submitted.erase sqe
        completions := loop.completions ++ [(sqe, result)] }
    if sqe = .wakeup ∧ 0 < result then
      if 0 < loop.wakeCounter then some { completed with wakeCounter := 0 } else none
    else some completed
  else none

end Ring

section Requests

def invokeCallback (resume : Resume) (owner : Option Entry) (entry : Entry) : EventLoop :=
  { loop with called := loop.called ++ [entry], point := .calling resume owner [] }

def refuse (resume : Resume) (entry : Entry) : EventLoop :=
  { loop with refused := loop.refused ++ [entry], point := resume.point }

/-- `prep_accept`, `prep_recv`, `prep_send` and so on: whether they fill an entry. -/
def prepares (answers : RingAnswers) (request : Request) : Bool :=
  answers.sqe && !(request.type = .send && request.remaining = 0)

/-- Put a request into the submission ring, or refuse it. Closing calls back at once. -/
def submitRequest (answers : RingAnswers) (resume : Resume) (entry : Entry) : EventLoop :=
  match entry.request.type with
  | .close => loop.invokeCallback resume none entry
  | .wakeup | .unknown => loop.refuse resume entry
  | .accept | .recv | .send | .udpRecv | .udpSend | .timeout =>
    if prepares answers entry.request then
      match (loop.prepare (.request entry.ticket)).submit answers with
      | some loop =>
        { loop with inflight := loop.inflight ++ [entry], point := resume.point }
      | none => (loop.prepare (.request entry.ticket)).refuse resume entry
    else loop.refuse resume entry

def processOwner (answers : RingAnswers) (batch : List Cqe) (entry : Entry) (result : ℤ) :
    EventLoop :=
  match entry.request.type with
  | .accept => loop.invokeCallback (.handle batch) (some entry) entry
  | .send =>
    let request := entry.request.advance result
    if 0 < result ∧ request.remaining ≠ 0 then
      loop.submitRequest answers (.handle batch) { entry with request }
    else loop.invokeCallback (.handle batch) none { entry with request }
  | .recv | .close | .udpRecv | .udpSend | .timeout =>
    loop.invokeCallback (.handle batch) none entry
  | .unknown | .wakeup => loop.refuse (.handle batch) entry

/-- Handle one completion. -/
def process (answers : RingAnswers) (batch : List Cqe) (ticket : ℕ) (result : ℤ) : EventLoop :=
  match loop.inflight.find? (·.ticket = ticket) with
  | none => { loop with point := .handling batch }
  | some entry =>
    { loop with inflight := loop.inflight.erase entry }.processOwner answers batch entry result

def returnFromCallback (answers : RingAnswers) (resume : Resume) : Option Entry → EventLoop
  | none => { loop with point := resume.point }
  | some owner =>
    if loop.running then loop.submitRequest answers resume owner else loop.refuse resume owner

end Requests

/-- The next action of the loop; `none` if it has to wait or has ended. -/
def advance (answers : RingAnswers) : Option EventLoop :=
  match loop.point with
  | .top =>
    if loop.running then
      if loop.wakeupArmed then some { loop with point := .waiting }
      else some (loop.armWakeup answers)
    else some { loop with point := .exited }
  | .waiting =>
    match loop.completions with
    | [] => none
    | cqe :: completions => some { loop with completions, point := .handling [cqe] }
  | .handling [] => some { loop with point := .peeking }
  | .handling ((.wakeup, _) :: batch) =>
    some { loop with
      wakeupArmed := false
      point := if loop.running then .draining batch else .handling batch }
  | .handling ((.request ticket, result) :: batch) =>
    some (loop.process answers batch ticket result)
  | .draining batch =>
    match loop.pop with
    | none => some { loop with point := .handling batch }
    | some (entry, loop) => some (loop.submitRequest answers (.drain batch) entry)
  | .calling resume owner [] => some (loop.returnFromCallback answers resume owner)
  | .calling _ _ (_ :: _) => none
  | .peeking =>
    match loop.completions with
    | [] => some { loop with point := .top }
    | _ :: _ => some { loop with
        completions := loop.completions.drop config.eventLimit
        point := .handling (loop.completions.take config.eventLimit) }
  | .exited => none

inductive Event where
  | push (request : Request)
  | stop
  | proceed (index : ℕ)
  | callbackPush (request : Request)
  | callbackProceed
  | advance (answers : RingAnswers)
  | complete (sqe : Sqe) (result : ℤ)
  | waitFails

def callbackPush (request : Request) : Option EventLoop :=
  match loop.point with
  | .calling resume owner [] =>
    some { loop with point := .calling resume owner [.pushWait request] }
  | _ => none

def callbackProceed : Option EventLoop :=
  match loop.point with
  | .calling resume owner (action :: rest) =>
    (loop.takeAction config action).map fun taken =>
      { taken.1 with point := .calling resume owner (taken.2 ++ rest) }
  | _ => none

def proceed (index : ℕ) : Option EventLoop :=
  (next? loop.calls index).bind fun action =>
    (loop.takeAction config action).map fun taken =>
      { taken.1 with calls := resume loop.calls index taken.2 }

def step (loop : EventLoop) : Event → Option EventLoop
  | .push request => some { loop with calls := start loop.calls [.pushWait request] }
  | .stop => some
      (if loop.running then
        { loop with running := false, calls := start loop.calls [.notifyWakeup none] }
      else loop)
  | .proceed index => loop.proceed config index
  | .callbackPush request => loop.callbackPush request
  | .callbackProceed => loop.callbackProceed config
  | .advance answers => loop.advance config answers
  | .complete sqe result => loop.complete sqe result
  | .waitFails =>
    match loop.point with
    | .waiting => some { loop with point := .top }
    | _ => none

section Cases

inductive Advances (answers : RingAnswers) : EventLoop → Prop where
  | arm (here : loop.point = .top) (running : loop.running = true)
      (notArmed : loop.wakeupArmed = false) : Advances answers (loop.armWakeup answers)
  | wait (here : loop.point = .top) (armed : loop.wakeupArmed = true) :
      Advances answers { loop with point := .waiting }
  | leave (here : loop.point = .top) (stopped : loop.running = false) :
      Advances answers { loop with point := .exited }
  | reap (cqe : Cqe) (completions : List Cqe) (here : loop.point = .waiting)
      (ready : loop.completions = cqe :: completions) :
      Advances answers { loop with completions, point := .handling [cqe] }
  | handled (here : loop.point = .handling []) :
      Advances answers { loop with point := .peeking }
  | wakeup (result : ℤ) (batch : List Cqe)
      (here : loop.point = .handling ((.wakeup, result) :: batch)) :
      Advances answers
        { loop with
          wakeupArmed := false
          point := if loop.running then .draining batch else .handling batch }
  | request (ticket : ℕ) (result : ℤ) (batch : List Cqe)
      (here : loop.point = .handling ((.request ticket, result) :: batch)) :
      Advances answers (loop.process answers batch ticket result)
  | drained (batch : List Cqe) (here : loop.point = .draining batch)
      (nothing : loop.pop = none) : Advances answers { loop with point := .handling batch }
  | popped (rest : EventLoop) (batch : List Cqe) (entry : Entry)
      (here : loop.point = .draining batch) (popped : loop.pop = some (entry, rest)) :
      Advances answers (rest.submitRequest answers (.drain batch) entry)
  | returned (resume : Resume) (owner : Option Entry)
      (here : loop.point = .calling resume owner []) :
      Advances answers (loop.returnFromCallback answers resume owner)
  | idle (here : loop.point = .peeking) (nothing : loop.completions = []) :
      Advances answers { loop with point := .top }
  | peeked (here : loop.point = .peeking) :
      Advances answers
        { loop with
          completions := loop.completions.drop config.eventLimit
          point := .handling (loop.completions.take config.eventLimit) }

variable {config loop} {answers : RingAnswers} {after : EventLoop}

theorem advances_of_advance (taken : loop.advance config answers = some after) :
    Advances config loop answers after := by
  unfold advance at taken
  split at taken
  · next here =>
      split_ifs at taken with running armed
      · cases taken
        exact .wait here armed
      · cases taken
        exact .arm here running (by simpa using armed)
      · cases taken
        exact .leave here (by simpa using running)
  · next here =>
      split at taken
      · cases taken
      · next ready =>
          cases taken
          exact .reap _ _ here ready
  · next here =>
      cases taken
      exact .handled here
  · next here =>
      cases taken
      exact .wakeup _ _ here
  · next here =>
      cases taken
      exact .request _ _ _ here
  · next here =>
      split at taken
      · next nothing =>
          cases taken
          exact .drained _ here nothing
      · next popped =>
          cases taken
          exact .popped _ _ _ here popped
  · next here =>
      cases taken
      exact .returned _ _ here
  · cases taken
  · next here =>
      split at taken
      · next nothing =>
          cases taken
          exact .idle here nothing
      · cases taken
        exact .peeked here
  · cases taken

structure Handles (resume : Resume) (before after : EventLoop) : Prop where
  running : after.running = before.running
  wakeupArmed : after.wakeupArmed = before.wakeupArmed
  wakeCounter : after.wakeCounter = before.wakeCounter
  pushed : after.pushed = before.pushed
  queue : after.queue = before.queue
  calls : after.calls = before.calls
  accepted : after.accepted = before.accepted
  completions : after.completions = before.completions
  submitted : before.submitted ⊆ after.submitted
  point : after.point = resume.point ∨ ∃ owner, after.point = .calling resume owner []

theorem Handles.batch {resume : Resume} (handles : Handles resume loop after) :
    after.point.batch = resume.batch := by
  rcases handles.point with here | ⟨owner, here⟩
  · rw [here, Resume.batch_point]
  · rw [here, Point.batch]

theorem Handles.push {resume : Resume} (handles : Handles resume loop after) :
    after.point.push = [] := by
  rcases handles.point with here | ⟨owner, here⟩
  · rw [here, Resume.push_point]
  · rw [here, Point.push]

theorem handles_invokeCallback (resume : Resume) (owner : Option Entry) (entry : Entry) :
    Handles resume loop (loop.invokeCallback resume owner entry) :=
  ⟨rfl, rfl, rfl, rfl, rfl, rfl, rfl, rfl, List.Subset.refl _, .inr ⟨owner, rfl⟩⟩

theorem handles_refuse (resume : Resume) (entry : Entry) :
    Handles resume loop (loop.refuse resume entry) :=
  ⟨rfl, rfl, rfl, rfl, rfl, rfl, rfl, rfl, List.Subset.refl _, .inl rfl⟩

theorem handles_submitRequest (answers : RingAnswers) (resume : Resume) (entry : Entry) :
    Handles resume loop (loop.submitRequest answers resume entry) := by
  unfold submitRequest
  split
  · exact handles_invokeCallback resume none entry
  · exact handles_refuse resume entry
  · exact handles_refuse resume entry
  all_goals
    split
    · split
      · next submitted =>
          rcases map_eq_some_iff.mp submitted with ⟨count, _, rfl⟩
          exact ⟨rfl, rfl, rfl, rfl, rfl, rfl, rfl, rfl, List.subset_append_left _ _, .inl rfl⟩
      · exact ⟨rfl, rfl, rfl, rfl, rfl, rfl, rfl, rfl, List.Subset.refl _, .inl rfl⟩
    · exact handles_refuse resume entry

theorem handles_processOwner (answers : RingAnswers) (batch : List Cqe) (entry : Entry)
    (result : ℤ) :
    Handles (.handle batch) loop (loop.processOwner answers batch entry result) := by
  unfold processOwner
  split
  case h_2 =>
    dsimp only
    split
    · exact handles_submitRequest answers _ _
    · exact handles_invokeCallback _ none _
  case h_8 => exact handles_refuse _ entry
  case h_9 => exact handles_refuse _ entry
  all_goals exact handles_invokeCallback _ _ entry

theorem handles_process (answers : RingAnswers) (batch : List Cqe) (ticket : ℕ) (result : ℤ) :
    Handles (.handle batch) loop (loop.process answers batch ticket result) := by
  unfold process
  split
  · exact ⟨rfl, rfl, rfl, rfl, rfl, rfl, rfl, rfl, List.Subset.refl _, .inl rfl⟩
  · next entry _ =>
      have handles : Handles (.handle batch) { loop with inflight := loop.inflight.erase entry } _ :=
        handles_processOwner answers batch entry result
      exact ⟨handles.running, handles.wakeupArmed, handles.wakeCounter, handles.pushed,
        handles.queue, handles.calls, handles.accepted, handles.completions, handles.submitted,
        handles.point⟩

theorem handles_returnFromCallback (answers : RingAnswers) (resume : Resume)
    (owner : Option Entry) :
    Handles resume loop (loop.returnFromCallback answers resume owner) := by
  unfold returnFromCallback
  split
  · exact ⟨rfl, rfl, rfl, rfl, rfl, rfl, rfl, rfl, List.Subset.refl _, .inl rfl⟩
  · split
    · exact handles_submitRequest answers resume _
    · exact handles_refuse resume _

theorem pop_eq_some {entry : Entry} {rest : EventLoop} (popped : loop.pop = some (entry, rest)) :
    ∃ slot queue, loop.queue = slot :: queue ∧ slot.entry = entry ∧ rest = { loop with queue } := by
  unfold pop at popped
  split at popped
  · next slot queue isQueue =>
      rcases ite_none_right_eq_some.mp popped with ⟨_, same⟩
      cases same
      exact ⟨slot, queue, isQueue, rfl, rfl⟩
  · cases popped

theorem armWakeup_eq (answers : RingAnswers) :
    ∃ running wakeupArmed prepared submitted point, point.batch = [] ∧ point.push = [] ∧
      loop.armWakeup answers =
        { loop with running, wakeupArmed, prepared, submitted, point } := by
  unfold armWakeup
  split
  · split
    · next submitted =>
        rcases map_eq_some_iff.mp submitted with ⟨count, _, rfl⟩
        exact ⟨_, _, _, _, .waiting, rfl, rfl, rfl⟩
    · exact ⟨_, _, _, _, .exited, rfl, rfl, rfl⟩
  · exact ⟨_, _, _, _, .exited, rfl, rfl, rfl⟩

structure SameCalls (before after : EventLoop) : Prop where
  pushed : after.pushed = before.pushed
  accepted : after.accepted = before.accepted
  pushActions : after.pushActions = before.pushActions

theorem Handles.sameCalls {resume : Resume} (handles : Handles resume loop after)
    (noPush : loop.point.push = []) : SameCalls loop after where
  pushed := handles.pushed
  accepted := handles.accepted
  pushActions := by
    rw [EventLoop.pushActions, EventLoop.pushActions, handles.calls, handles.push, noPush]

theorem Advances.sameCalls (advances : Advances config loop answers after) :
    SameCalls loop after := by
  cases advances with
  | arm here running notArmed =>
    rcases loop.armWakeup_eq answers with ⟨_, _, _, _, point, _, noPush, same⟩
    rw [same]
    refine ⟨rfl, rfl, ?_⟩
    rw [pushActions, pushActions, noPush, here]
    rfl
  | wakeup result batch here =>
    refine ⟨rfl, rfl, ?_⟩
    rw [pushActions, pushActions, here]
    dsimp only
    split <;> rfl
  | request ticket result batch here =>
    apply (handles_process answers batch ticket result).sameCalls
    rw [here]
    rfl
  | popped rest batch entry here popped =>
    rcases pop_eq_some popped with ⟨slot, queue, _, _, rfl⟩
    have handles : Handles _ { loop with queue } _ :=
      handles_submitRequest answers (.drain batch) entry
    have same := handles.sameCalls (by rw [here]; rfl)
    exact ⟨same.pushed, same.accepted, same.pushActions⟩
  | returned resume owner here =>
    apply (handles_returnFromCallback answers resume owner).sameCalls
    rw [here]
    rfl
  | wait here _ | leave here _ | reap _ _ here _ | handled here | drained _ here _ | idle here _
  | peeked here =>
    refine ⟨rfl, rfl, ?_⟩
    rw [pushActions, pushActions, here]
    rfl

theorem takeAction_eq {action : PushAction} {more : List PushAction}
    (taken : loop.takeAction config action = some (after, more)) :
    ∃ wakeCounter pushed queue accepted,
      after = { loop with wakeCounter, pushed, queue, accepted } := by
  cases action with
  | pushWait request =>
    rcases ite_none_right_eq_some.mp taken with ⟨_, same⟩
    cases same
    exact ⟨_, _, _, _, rfl⟩
  | publish ticket | notifyWakeup ticket =>
    cases taken
    exact ⟨_, _, _, _, rfl⟩

theorem proceed_cases {index : ℕ} (taken : loop.proceed config index = some after) :
    ∃ action others between more calls, loop.pushActions = action ::ₘ others ∧
      loop.takeAction config action = some (between, more) ∧ after = { between with calls } ∧
      after.pushActions = more + others := by
  rcases bind_eq_some_iff.mp taken with ⟨action, next, taken⟩
  rcases map_eq_some_iff.mp taken with ⟨⟨between, more⟩, acted, rfl⟩
  rcases pending_of_next next with ⟨others, before, afterwards⟩
  have samePoint : between.point = loop.point := by
    rcases takeAction_eq acted with ⟨_, _, _, _, rfl⟩
    rfl
  refine ⟨action, others + loop.point.push, between, more, _, ?_, acted, rfl, ?_⟩
  · rw [pushActions, before, Multiset.cons_add]
  · rw [pushActions, afterwards more, samePoint, add_assoc]

theorem callbackProceed_cases (taken : loop.callbackProceed config = some after) :
    ∃ action others between more resume owner rest,
      loop.point = .calling resume owner (action :: rest) ∧
      loop.pushActions = action ::ₘ others ∧
      loop.takeAction config action = some (between, more) ∧
      after = { between with point := .calling resume owner (more ++ rest) } ∧
      after.pushActions = more + others := by
  unfold callbackProceed at taken
  split at taken
  · next resume owner action rest here =>
      rcases map_eq_some_iff.mp taken with ⟨⟨between, more⟩, acted, rfl⟩
      have sameCalls : between.calls = loop.calls := by
        rcases takeAction_eq acted with ⟨_, _, _, _, rfl⟩
        rfl
      refine ⟨action, rest + pending loop.calls, between, more, resume, owner, rest, here, ?_,
        acted, rfl, ?_⟩
      · rw [pushActions, here, add_comm]
        exact coe_cons_add action rest (pending loop.calls)
      · rw [pushActions, sameCalls, Point.push, ← Multiset.coe_add, add_comm, add_assoc]
  · cases taken

theorem callbackPush_cases {request : Request} (taken : loop.callbackPush request = some after) :
    ∃ resume owner, loop.point = .calling resume owner [] ∧
      after = { loop with point := .calling resume owner [.pushWait request] } ∧
      after.pushActions = .pushWait request ::ₘ loop.pushActions := by
  unfold callbackPush at taken
  split at taken
  · next resume owner here =>
      cases taken
      refine ⟨resume, owner, here, rfl, ?_⟩
      rw [pushActions, pushActions, here, Point.push, Point.push, add_comm, coe_cons_add,
        coe_nil_add, add_comm, coe_nil_add]
  · cases taken

theorem waitFails_cases (taken : loop.step config .waitFails = some after) :
    loop.point = .waiting ∧ after = { loop with point := .top } ∧
      after.pushActions = loop.pushActions := by
  rw [step] at taken
  split at taken
  · next here =>
      cases taken
      refine ⟨here, rfl, ?_⟩
      rw [pushActions, pushActions, here]
      rfl
  · cases taken

theorem complete_eq {sqe : Sqe} {result : ℤ} (taken : loop.complete sqe result = some after) :
    sqe ∈ loop.submitted ∧ ∃ wakeCounter, (sqe ≠ .wakeup → wakeCounter = loop.wakeCounter) ∧
      after =
        { loop with
          submitted := loop.submitted.erase sqe
          completions := loop.completions ++ [(sqe, result)]
          wakeCounter } := by
  rcases ite_none_right_eq_some.mp taken with ⟨submitted, taken⟩
  refine ⟨submitted, ?_⟩
  split at taken
  · next isRead =>
      rcases ite_none_right_eq_some.mp taken with ⟨_, same⟩
      cases same
      exact ⟨0, fun other => absurd isRead.1 other, rfl⟩
  · cases taken
    exact ⟨_, fun _ => rfl, rfl⟩

end Cases

end EventLoop

end IotProxy.Myring
