import IotProxy.Myring.EventLoop

/-!
# The loop pushes to its own queue

Only the loop takes requests out of the queue, and the callbacks that it runs put requests into it:
`UdpDispatcher` pushes for `send_to`, `schedule_timeout` and `post`, and the callbacks of
`KcpManager` call all three. `push_wait` waits for room.
-/

namespace IotProxy.Myring

open Interleaving EventSystem Option

namespace UdpDispatcher

def sendTo (length : ℕ) : Request := { type := .udpSend, remaining := length }

def scheduleTimeout : Request := { type := .timeout }

def post : Request := { type := .close }

def armRecv : Request := { type := .udpRecv }

/-- A request that the dispatcher pushes. -/
def Makes (request : Request) : Prop :=
  request ∈ [sendTo request.remaining, scheduleTimeout, post, armRecv]

end UdpDispatcher

def PushAction.isWaiting : PushAction → Bool
  | .pushWait _ => true
  | .publish _ | .notifyWakeup _ => false

namespace EventLoop

def Event.FromDispatcher : Event → Prop
  | .push request | .callbackPush request => UdpDispatcher.Makes request
  | _ => True

instance (event : Event) : Decidable event.FromDispatcher :=
  match event with
  | .push request | .callbackPush request =>
    inferInstanceAs (Decidable (request ∈ [UdpDispatcher.sendTo request.remaining,
      UdpDispatcher.scheduleTimeout, UdpDispatcher.post, UdpDispatcher.armRecv]))
  | .stop | .proceed _ | .callbackProceed | .advance _ | .complete _ _ | .waitFails =>
    isTrue trivial

/-- The loop is inside `push_wait`, and the queue is full. -/
structure Deadlocked (config : EventLoopConfig) (loop : EventLoop) : Prop where
  inside : ∃ resume owner request rest,
    loop.point = .calling resume owner (.pushWait request :: rest)
  full : config.capacity ≤ loop.queue.length

variable {config : EventLoopConfig} {loop after : EventLoop} {event : Event}

section Forever

theorem takeAction_of_full {action : PushAction} {more : List PushAction}
    (full : config.capacity ≤ loop.queue.length)
    (taken : loop.takeAction config action = some (after, more)) :
    after.queue.length = loop.queue.length := by
  cases action with
  | pushWait request =>
    rcases ite_none_right_eq_some.mp taken with ⟨room, _⟩
    exact absurd full (Nat.not_le.mpr room)
  | publish ticket =>
    cases taken
    exact List.length_map _
  | notifyWakeup ticket =>
    cases taken
    rfl

/-- There is no way out. -/
theorem Deadlocked.step (stuck : loop.Deadlocked config)
    (taken : loop.step config event = some after) : after.Deadlocked config := by
  rcases stuck.inside with ⟨resume, owner, request, rest, here⟩
  cases event with
  | push other =>
    cases taken
    exact ⟨stuck.inside, stuck.full⟩
  | stop =>
    cases taken
    split
    · exact ⟨stuck.inside, stuck.full⟩
    · exact stuck
  | proceed index =>
    rcases bind_eq_some_iff.mp taken with ⟨action, _, taken⟩
    rcases map_eq_some_iff.mp taken with ⟨⟨between, more⟩, acted, rfl⟩
    have sameLength := takeAction_of_full stuck.full acted
    rcases takeAction_eq acted with ⟨_, _, _, _, rfl⟩
    exact ⟨stuck.inside, stuck.full.trans_eq sameLength.symm⟩
  | callbackPush other =>
    change loop.callbackPush other = some after at taken
    rw [EventLoop.callbackPush, here] at taken
    cases taken
  | callbackProceed =>
    change loop.callbackProceed config = some after at taken
    rw [EventLoop.callbackProceed, here] at taken
    rcases map_eq_some_iff.mp taken with ⟨acted, isActed, _⟩
    rcases ite_none_right_eq_some.mp isActed with ⟨room, _⟩
    exact absurd stuck.full (Nat.not_le.mpr room)
  | advance answers =>
    change loop.advance config answers = some after at taken
    rw [EventLoop.advance, here] at taken
    cases taken
  | complete sqe result =>
    rcases complete_eq taken with ⟨_, _, _, rfl⟩
    exact ⟨stuck.inside, stuck.full⟩
  | waitFails =>
    rw [EventLoop.step, here] at taken
    cases taken

theorem Deadlocked.run {condition : EventLoop → Event → Prop} {events : List Event}
    (stuck : loop.Deadlocked config) (run : Run (EventLoop.step config) condition loop events after) :
    after.Deadlocked config := by
  apply run.invariant
  · exact stuck
  · intro before after event _ taken stuck
    exact stuck.step taken

end Forever

section Room

def waiting (actions : Multiset PushAction) : ℕ := actions.countP (·.isWaiting)

/-- The requests that are in the queue or wait for room in it. -/
def backlog (loop : EventLoop) : ℕ :=
  loop.queue.length + waiting loop.pushActions

/-- A push starts only if there is room for all requests that are being pushed. -/
def HasRoom (config : EventLoopConfig) (loop : EventLoop) : Event → Prop
  | .push _ | .callbackPush _ => loop.backlog < config.capacity
  | _ => True

@[simp] theorem waiting_cons (action : PushAction) (others : Multiset PushAction) :
    waiting (action ::ₘ others) = waiting others + if action.isWaiting then 1 else 0 :=
  Multiset.countP_cons _ action others

theorem waiting_coe_add (more : List PushAction) (others : Multiset PushAction) :
    waiting (more + others) = waiting others + more.countP (·.isWaiting) := by
  simp [waiting, Multiset.countP_add, add_comm]

instance (loop : EventLoop) (event : Event) : Decidable (loop.HasRoom config event) :=
  match event with
  | .push _ | .callbackPush _ => inferInstanceAs (Decidable (loop.backlog < config.capacity))
  | .stop | .proceed _ | .callbackProceed | .advance _ | .complete _ _ | .waitFails =>
    isTrue trivial

theorem takeAction_backlog {action : PushAction} {others : Multiset PushAction}
    {more : List PushAction} (taken : loop.takeAction config action = some (after, more)) :
    after.queue.length + waiting (more + others) =
      loop.queue.length + waiting (action ::ₘ others) := by
  rw [waiting_coe_add, waiting_cons]
  cases action with
  | pushWait request =>
    rcases ite_none_right_eq_some.mp taken with ⟨_, same⟩
    cases same
    rw [List.length_append]
    exact Nat.add_right_comm _ 1 _
  | publish ticket =>
    cases taken
    rw [List.length_map]
    rfl
  | notifyWakeup ticket =>
    cases taken
    rfl

theorem backlog_proceed {index : ℕ} (taken : loop.proceed config index = some after) :
    after.backlog = loop.backlog := by
  rcases proceed_cases taken with ⟨action, others, between, more, calls, mine, acted, rfl, theirs⟩
  have same : between.queue.length + waiting (more + others) = _ := takeAction_backlog acted
  rw [backlog, backlog, theirs, mine]
  exact same

theorem backlog_callbackProceed (taken : loop.callbackProceed config = some after) :
    after.backlog = loop.backlog := by
  rcases callbackProceed_cases taken with
    ⟨action, others, between, more, resume, owner, rest, here, mine, acted, rfl, theirs⟩
  have same : between.queue.length + waiting (more + others) = _ := takeAction_backlog acted
  rw [backlog, backlog, theirs, mine]
  exact same

theorem backlog_advance {answers : RingAnswers}
    (taken : loop.advance config answers = some after) : after.backlog ≤ loop.backlog := by
  have advances := advances_of_advance taken
  have sameActions := advances.sameCalls.pushActions
  have shorter : after.queue.length ≤ loop.queue.length := by
    cases advances with
    | arm here running notArmed =>
      rcases loop.armWakeup_eq answers with ⟨_, _, _, _, _, _, _, same⟩
      rw [same]
    | request ticket result batch here =>
      have handles : Handles _ loop _ := handles_process answers batch ticket result
      rw [handles.queue]
    | popped rest batch entry here popped =>
      rcases pop_eq_some popped with ⟨slot, queue, isQueue, _, rfl⟩
      have handles : Handles _ { loop with queue } _ :=
        handles_submitRequest answers (.drain batch) entry
      rw [handles.queue, isQueue]
      exact Nat.le_succ _
    | returned resume owner here =>
      have handles : Handles _ loop _ := handles_returnFromCallback answers resume owner
      rw [handles.queue]
    | wait | leave | reap | handled | wakeup | drained | idle | peeked => exact Nat.le_refl _
  rw [backlog, backlog, sameActions]
  exact Nat.add_le_add_right shorter _

theorem backlog_startCall (loop : EventLoop) (running : Bool) (action : PushAction) :
    ({ loop with running, calls := start loop.calls [action] } : EventLoop).backlog =
      loop.backlog + if action.isWaiting then 1 else 0 := by
  have more : ({ loop with running, calls := start loop.calls [action] } : EventLoop).pushActions =
      action ::ₘ loop.pushActions := by
    rw [pushActions, pushActions, pending_start, coe_cons_add, coe_nil_add, Multiset.cons_add]
  rw [backlog, backlog, more, waiting_cons, Nat.add_assoc]

theorem backlog_le_of_step (hasRoom : loop.HasRoom config event)
    (taken : loop.step config event = some after) (bounded : loop.backlog ≤ config.capacity) :
    after.backlog ≤ config.capacity := by
  cases event with
  | push request =>
    cases taken
    rw [backlog_startCall]
    exact hasRoom
  | stop =>
    cases taken
    split
    · rw [backlog_startCall]
      exact bounded
    · exact bounded
  | proceed index => exact (backlog_proceed taken).trans_le bounded
  | callbackPush request =>
    rcases callbackPush_cases taken with ⟨resume, owner, here, rfl, actions⟩
    rw [backlog, actions, waiting_cons]
    exact hasRoom
  | callbackProceed => exact (backlog_callbackProceed taken).trans_le bounded
  | advance answers => exact (backlog_advance taken).trans bounded
  | complete sqe result =>
    rcases complete_eq taken with ⟨_, _, _, rfl⟩
    exact bounded
  | waitFails =>
    rcases waitFails_cases taken with ⟨here, rfl, actions⟩
    rw [backlog, actions]
    exact bounded

/-- The loop is never inside `push_wait` with a full queue, if pushes start only while the queue has
room for all requests that are being pushed. -/
theorem not_deadlocked_of_room {events : List Event}
    (run : Run (step config) (HasRoom config) {} events loop) : ¬ loop.Deadlocked config := by
  have bounded : loop.backlog ≤ config.capacity := by
    apply run.invariant
    · exact Nat.zero_le _
    · intro before after event hasRoom taken bounded
      exact backlog_le_of_step hasRoom taken bounded
  intro stuck
  rcases stuck.inside with ⟨resume, owner, request, rest, here⟩
  have waits : 0 < waiting loop.pushActions := by
    rw [waiting, Multiset.countP_pos]
    refine ⟨.pushWait request, ?_, rfl⟩
    rw [pushActions, here]
    simp [Point.push]
  have full := stuck.full
  rw [backlog] at bounded
  omega

def callbackRuns : List Event :=
  let served : Event := .advance { submitted := some 1 }
  [served, .push UdpDispatcher.post, .proceed 0, .proceed 0, .proceed 0, .complete .wakeup 8,
    served, served, served]

/-- The callback pushes while there is room. -/
theorem callback_has_room :
    ∃ loop, Run (step {}) (HasRoom {}) {}
        (callbackRuns ++ [.callbackPush UdpDispatcher.scheduleTimeout]) loop ∧
      loop.point.push = [.pushWait UdpDispatcher.scheduleTimeout] ∧ ¬ loop.Deadlocked {} := by
  apply Run.exists_of_execute
    (fun loop => loop.point.push == [.pushWait UdpDispatcher.scheduleTimeout])
    (by decide +kernel)
  intro loop run facts
  exact ⟨beq_iff_eq.mp facts, not_deadlocked_of_room run⟩

end Room

section Reachable

theorem exists_push (loop : EventLoop) (room : loop.queue.length < config.capacity) :
    ∃ events after, Run (step config) (fun _ event => event.FromDispatcher) loop events after ∧
      after.queue.length = loop.queue.length + 1 ∧ after.point = loop.point := by
  let claimed : EventLoop := { loop with
    pushed := loop.pushed ++ [UdpDispatcher.post]
    queue := loop.queue ++ [{ entry := ⟨loop.pushed.length, UdpDispatcher.post⟩ }]
    calls := start loop.calls [.publish loop.pushed.length] }
  have enters : step config loop (.push UdpDispatcher.post) =
      some { loop with calls := start loop.calls [.pushWait UdpDispatcher.post] } := rfl
  have claims : step config { loop with calls := start loop.calls [.pushWait UdpDispatcher.post] }
      (.proceed loop.calls.length) = some claimed := by
    simp [step, proceed, next?_start, resume_start, takeAction, room, claimed]
  refine ⟨[.push UdpDispatcher.post, .proceed loop.calls.length], claimed, ?_, ?_, rfl⟩
  · have entered : Run (step config) (fun _ event => event.FromDispatcher) loop _ _ :=
      .single (by decide) enters
    exact entered.snoc trivial claims
  · simp [claimed]

theorem exists_fill (count : ℕ) (loop : EventLoop)
    (room : loop.queue.length + count ≤ config.capacity) :
    ∃ events after, Run (step config) (fun _ event => event.FromDispatcher) loop events after ∧
      after.queue.length = loop.queue.length + count ∧ after.point = loop.point := by
  induction count with
  | zero => exact ⟨[], loop, .nil, rfl, rfl⟩
  | succ count ih =>
    rcases ih (by omega) with ⟨earlier, between, run, length, samePoint⟩
    have hasRoom : between.queue.length < config.capacity := by
      rw [length]
      omega
    rcases exists_push between hasRoom with ⟨later, after, pushes, longer, stays⟩
    exact ⟨earlier ++ later, after, run.trans pushes, by omega, stays.trans samePoint⟩

/-- With the capacity of the code, the loop can come to wait for room in its own queue: other threads
fill the queue while a posted callback runs, and the callback calls `send_to`. It then waits
forever. -/
theorem callback_deadlocks :
    ∃ events loop, Run (step {}) (fun _ event => event.FromDispatcher) {} events loop ∧
      loop.Deadlocked {} ∧
      ∀ later after, Run (step {}) (fun _ _ => True) loop later after → after.Deadlocked {} := by
  have called : ∃ loop, Run (step {}) (fun _ event => event.FromDispatcher) {} callbackRuns loop ∧
      loop.point = .calling (.drain []) none [] ∧ loop.queue.length = 0 := by
    apply Run.exists_of_execute
      (fun loop => loop.point == .calling (.drain []) none [] && loop.queue.length == 0)
      (by decide +kernel)
    intro loop _ facts
    simpa using facts
  rcases called with ⟨running, run, here, empty⟩
  have room : running.queue.length + 4096 ≤ ({} : EventLoopConfig).capacity := by
    rw [empty]
  rcases exists_fill 4096 running room with ⟨filling, full, fills, length, stays⟩
  have pushes : step {} full (.callbackPush (UdpDispatcher.sendTo 100)) =
      some { full with
        point := .calling (.drain []) none [.pushWait (UdpDispatcher.sendTo 100)] } := by
    rw [step, callbackPush, stays, here]
  have stuck : Deadlocked {} { full with
      point := .calling (.drain []) none [.pushWait (UdpDispatcher.sendTo 100)] } := by
    refine ⟨⟨_, _, _, _, rfl⟩, ?_⟩
    rw [length, empty]
  exact ⟨_, _, (run.trans fills).snoc (by decide) pushes, stuck, fun _ _ later => stuck.run later⟩

end Reachable

end EventLoop

end IotProxy.Myring
