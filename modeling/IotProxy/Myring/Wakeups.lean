import IotProxy.Myring.EventLoop

/-!
# No wakeup is lost

A thread puts its request into the queue first and writes the counter afterwards. The loop takes the
value of the counter first and drains the queue afterwards, up to a place that is claimed but not
filled. So whenever the queue is not empty, something is on its way that makes the loop drain it
(`Signalled`): a call of `push` that has still to write the counter, the counter itself, a completed
read of it, or the draining.
-/

namespace IotProxy.Myring

open Interleaving EventSystem Multiset

def PushAction.IsLate : PushAction → Prop
  | .pushWait _ => False
  | .publish _ | .notifyWakeup _ => True

def Resume.Drains : Resume → Prop
  | .drain _ => True
  | .handle _ => False

/-- The loop is draining the queue, or runs a callback on behalf of the draining. -/
def Point.Drains : Point → Prop
  | .draining _ => True
  | .calling resume _ _ => resume.Drains
  | .top | .waiting | .handling _ | .peeking | .exited => False

namespace EventLoop

section Invariant

variable (loop : EventLoop)

def Woken : Prop :=
  .wakeup ∈ loop.completions.map Prod.fst ∨ .wakeup ∈ loop.point.batch.map Prod.fst

def Noticed (actions : Multiset PushAction) : Prop :=
  (∃ action ∈ actions, action.IsLate) ∨ 0 < loop.wakeCounter ∨ loop.Woken ∨ loop.point.Drains

structure SignalledBy (actions : Multiset PushAction) : Prop where
  armed : loop.wakeupArmed = true → .wakeup ∈ loop.submitted ∨ loop.Woken
  waits : loop.point = .waiting → loop.wakeupArmed = true
  unpublished : ∀ slot ∈ loop.queue, slot.published = false →
    .publish slot.entry.ticket ∈ actions
  noticed : loop.running = true → loop.queue ≠ [] → loop.Noticed actions

def Signalled : Prop := loop.SignalledBy loop.pushActions

end Invariant

variable {config : EventLoopConfig} {loop after : EventLoop} {answers : RingAnswers}

section Calls

variable {action : PushAction} {actions others : Multiset PushAction} {more : List PushAction}

theorem SignalledBy.mono (signalled : loop.SignalledBy actions) (more : actions ⊆ others) :
    loop.SignalledBy others where
  armed := signalled.armed
  waits := signalled.waits
  unpublished slot mem notPublished := more (signalled.unpublished slot mem notPublished)
  noticed running notEmpty := by
    apply (signalled.noticed running notEmpty).imp_left
    rintro ⟨action, mem, late⟩
    exact ⟨action, more mem, late⟩

theorem SignalledBy.takeAction (signalled : loop.SignalledBy (action ::ₘ others))
    (taken : loop.takeAction config action = some (after, more)) :
    after.SignalledBy (more + others) := by
  cases action with
  | pushWait request =>
    rcases Option.ite_none_right_eq_some.mp taken with ⟨_, same⟩
    cases same
    refine ⟨signalled.armed, signalled.waits, ?_, ?_⟩
    · intro slot mem notPublished
      rcases List.mem_append.mp mem with old | new
      · have pending := signalled.unpublished slot old notPublished
        rw [mem_cons] at pending
        rcases pending with same | pending
        · cases same
        · exact mem_add.mpr (.inr pending)
      · rw [List.mem_singleton.mp new]
        simp
    · intro _ _
      exact .inl ⟨.publish loop.pushed.length, by simp, trivial⟩
  | publish ticket =>
    cases taken
    refine ⟨signalled.armed, signalled.waits, ?_, ?_⟩
    · intro slot mem notPublished
      rcases List.mem_map.mp mem with ⟨old, isOld, rfl⟩
      by_cases same : old.entry.ticket = ticket
      · simp [same] at notPublished
      · rw [if_neg same] at notPublished ⊢
        have pending := signalled.unpublished old isOld notPublished
        rw [mem_cons] at pending
        rcases pending with published | pending
        · cases published
          exact absurd rfl same
        · exact mem_add.mpr (.inr pending)
    · intro _ _
      exact .inl ⟨.notifyWakeup (some ticket), by simp, trivial⟩
  | notifyWakeup ticket =>
    cases taken
    refine ⟨signalled.armed, signalled.waits, ?_, ?_⟩
    · intro slot mem notPublished
      have pending := signalled.unpublished slot mem notPublished
      rw [mem_cons] at pending
      rcases pending with same | pending
      · cases same
      · exact mem_add.mpr (.inr pending)
    · intro _ _
      exact .inr (.inl (Nat.succ_pos _))

theorem Signalled.proceed {index : ℕ} (signalled : loop.Signalled)
    (taken : loop.proceed config index = some after) : after.Signalled := by
  rcases proceed_cases taken with ⟨action, others, between, more, calls, mine, acted, rfl, theirs⟩
  rw [Signalled, mine] at signalled
  have acts := signalled.takeAction acted
  rw [Signalled, theirs]
  exact ⟨acts.armed, acts.waits, acts.unpublished, acts.noticed⟩

end Calls

section Points

variable {actions : Multiset PushAction}

theorem SignalledBy.transfer (signalled : loop.SignalledBy actions)
    (running : after.running = true → loop.running = true)
    (armed : after.wakeupArmed = true → loop.wakeupArmed = true)
    (submitted : loop.submitted ⊆ after.submitted) (queue : after.queue ⊆ loop.queue)
    (counter : after.wakeCounter = loop.wakeCounter) (woken : loop.Woken → after.Woken)
    (drains : loop.point.Drains → after.point.Drains)
    (waits : after.point = .waiting → after.wakeupArmed = true) :
    after.SignalledBy actions where
  armed isArmed := (signalled.armed (armed isArmed)).imp (fun mem => submitted mem) woken
  waits := waits
  unpublished slot mem notPublished := signalled.unpublished slot (queue mem) notPublished
  noticed isRunning notEmpty := by
    have hadSome : loop.queue ≠ [] := by
      rintro empty
      rw [empty] at queue
      exact notEmpty (List.subset_nil.mp queue)
    rcases signalled.noticed (running isRunning) hadSome with late | written | isWoken | draining
    · exact .inl late
    · exact .inr (.inl (counter ▸ written))
    · exact .inr (.inr (.inl (woken isWoken)))
    · exact .inr (.inr (.inr (drains draining)))

theorem SignalledBy.goTo {point : Point} (signalled : loop.SignalledBy actions)
    (batch : point.batch = loop.point.batch) (drains : loop.point.Drains → point.Drains)
    (waits : point = .waiting → loop.wakeupArmed = true) :
    ({ loop with point } : EventLoop).SignalledBy actions := by
  apply signalled.transfer
  · exact id
  · exact id
  · exact List.Subset.refl _
  · exact List.Subset.refl _
  · rfl
  · intro woken
    rw [Woken, batch]
    exact woken
  · exact drains
  · exact waits

theorem SignalledBy.handles {resume : Resume} (signalled : loop.SignalledBy actions)
    (handles : Handles resume loop after)
    (batch : .wakeup ∈ loop.point.batch.map Prod.fst → .wakeup ∈ resume.batch.map Prod.fst)
    (drains : loop.point.Drains → resume.Drains) : after.SignalledBy actions := by
  apply signalled.transfer
  · rw [handles.running]
    exact id
  · rw [handles.wakeupArmed]
    exact id
  · exact handles.submitted
  · rw [handles.queue]
    exact List.Subset.refl _
  · exact handles.wakeCounter
  · rw [Woken, Woken, handles.completions, handles.batch]
    exact Or.imp_right batch
  · intro draining
    have draining := drains draining
    rcases handles.point with here | ⟨owner, here⟩
    · rw [here]
      cases resume with
      | drain batch => trivial
      | handle batch => exact draining
    · rw [here]
      exact draining
  · intro waiting
    rcases handles.point with here | ⟨owner, here⟩
    · cases resume <;> cases here.symm.trans waiting
    · cases here.symm.trans waiting

theorem Signalled.callbackPush {request : Request} (signalled : loop.Signalled)
    (taken : loop.callbackPush request = some after) : after.Signalled := by
  rcases callbackPush_cases taken with ⟨resume, owner, here, rfl, actions⟩
  rw [Signalled, actions]
  apply (signalled.mono (subset_cons _ _)).goTo
  · rw [here]
    rfl
  · rw [here]
    exact id
  · intro waiting
    cases waiting

theorem Signalled.callbackProceed (signalled : loop.Signalled)
    (taken : loop.callbackProceed config = some after) : after.Signalled := by
  rcases callbackProceed_cases taken with
    ⟨action, others, between, more, resume, owner, rest, here, mine, acted, rfl, theirs⟩
  have samePoint : between.point = loop.point := by
    rcases takeAction_eq acted with ⟨_, _, _, _, rfl⟩
    rfl
  rw [Signalled, mine] at signalled
  rw [Signalled, theirs]
  apply (signalled.takeAction acted).goTo
  · rw [samePoint, here]
    rfl
  · rw [samePoint, here]
    exact id
  · intro waiting
    cases waiting

def Submits (loop : EventLoop) (answers : RingAnswers) : Prop :=
  answers.sqe = true ∧ answers.submitted.any (loop.prepared.length < ·) = true

theorem SignalledBy.armWakeup (signalled : loop.SignalledBy actions)
    (submits : loop.Submits answers) (here : loop.point = .top) :
    (loop.armWakeup answers).SignalledBy actions := by
  rcases submits with ⟨sqe, submits⟩
  rcases (Option.any_eq_true _ _).mp submits with ⟨count, submitted, all⟩
  rw [decide_eq_true_eq] at all
  have taken : .wakeup ∈ (loop.prepare .wakeup).prepared.take count := by
    rw [List.take_of_length_le]
    · simp [prepare]
    · rw [prepare, List.length_append, List.length_singleton]
      omega
  rw [EventLoop.armWakeup, if_pos sqe, submit, submitted, Option.map_some]
  refine ⟨fun _ => .inl (List.mem_append_right _ taken), fun _ => rfl, signalled.unpublished, ?_⟩
  intro running notEmpty
  have noticed := signalled.noticed running notEmpty
  rw [Noticed, Woken, here] at noticed
  exact noticed

theorem SignalledBy.drained {batch : List Cqe} (signalled : loop.SignalledBy actions)
    (here : loop.point = .draining batch) (nothing : loop.pop = none) :
    ({ loop with point := .handling batch } : EventLoop).SignalledBy actions := by
  refine ⟨?_, ?_, signalled.unpublished, ?_⟩
  · have armed := signalled.armed
    rw [Woken, here] at armed
    exact armed
  · intro waiting
    cases waiting
  · intro _ notEmpty
    rw [pop] at nothing
    split at nothing
    · next slot queue isQueue =>
        -- The draining has stopped at a place that is not filled yet.
        have notPublished : slot.published = false := by
          simpa using nothing
        exact .inl ⟨_, signalled.unpublished slot (by simp [isQueue]) notPublished, trivial⟩
    · next empty => exact absurd empty notEmpty

theorem Signalled.advance (signalled : loop.Signalled) (submits : loop.Submits answers)
    (taken : loop.advance config answers = some after) : after.Signalled := by
  have advances := advances_of_advance taken
  rw [Signalled, advances.sameCalls.pushActions]
  rw [Signalled] at signalled
  cases advances with
  | arm here running notArmed => exact signalled.armWakeup submits here
  | wait here armed =>
    exact signalled.goTo (by rw [here]; rfl) (by rw [here]; exact id) fun _ => armed
  | leave here stopped =>
    apply signalled.goTo (by rw [here]; rfl) (by rw [here]; exact id)
    intro other
    cases other
  | reap cqe completions here ready =>
    refine signalled.transfer id id (List.Subset.refl _) (List.Subset.refl _) rfl ?_ ?_ ?_
    · rw [Woken, Woken, ready, here]
      simp only [Point.batch, List.map_cons, List.map_nil, List.mem_cons, List.not_mem_nil]
      tauto
    · rw [here]
      exact False.elim
    · intro other
      cases other
  | handled here =>
    apply signalled.goTo (by rw [here]; rfl) (by rw [here]; exact id)
    intro other
    cases other
  | wakeup result batch here =>
    refine ⟨?_, ?_, signalled.unpublished, ?_⟩
    · intro armed
      cases armed
    · dsimp only
      intro waiting
      split at waiting <;> cases waiting
    · intro running _
      right; right; right
      dsimp only at running ⊢
      rw [if_pos running]
      trivial
  | request ticket result batch here =>
    apply signalled.handles (handles_process answers batch ticket result)
    · rw [here]
      simp [Point.batch, Resume.batch]
    · rw [here]
      exact id
  | drained batch here nothing => exact signalled.drained here nothing
  | popped rest batch entry here popped =>
    rcases pop_eq_some popped with ⟨slot, queue, isQueue, _, rfl⟩
    have shorter : ({ loop with queue } : EventLoop).SignalledBy loop.pushActions := by
      refine signalled.transfer id id (List.Subset.refl _) ?_ rfl id id signalled.waits
      rw [isQueue]
      exact List.subset_cons_self slot queue
    apply shorter.handles (handles_submitRequest answers (.drain batch) entry)
    · rw [here]
      exact id
    · intro _
      trivial
  | returned resume owner here =>
    apply signalled.handles (handles_returnFromCallback answers resume owner)
    · rw [here]
      exact id
    · rw [here]
      exact id
  | idle here nothing =>
    apply signalled.goTo (by rw [here]; rfl) (by rw [here]; exact id)
    intro other
    cases other
  | peeked here =>
    refine signalled.transfer id id (List.Subset.refl _) (List.Subset.refl _) rfl ?_ ?_ ?_
    · rw [Woken, Woken, here]
      rintro (ready | none)
      · rw [← List.take_append_drop config.eventLimit loop.completions, List.map_append,
          List.mem_append] at ready
        exact ready.symm
      · cases none
    · rw [here]
      exact False.elim
    · intro other
      cases other

end Points

section Runs

theorem Signalled.complete {sqe : Sqe} {result : ℤ} (signalled : loop.Signalled)
    (taken : loop.complete sqe result = some after) : after.Signalled := by
  rcases complete_eq taken with ⟨_, counter, sameCounter, rfl⟩
  by_cases isWakeup : sqe = .wakeup
  · have woken : ({ loop with
        submitted := loop.submitted.erase sqe
        completions := loop.completions ++ [(sqe, result)]
        wakeCounter := counter } : EventLoop).Woken := by
      left
      simp [isWakeup]
    exact ⟨fun _ => .inr woken, signalled.waits, signalled.unpublished,
      fun _ _ => .inr (.inr (.inl woken))⟩
  · have stillWoken (woken : loop.Woken) : ({ loop with
        submitted := loop.submitted.erase sqe
        completions := loop.completions ++ [(sqe, result)]
        wakeCounter := counter } : EventLoop).Woken := by
      rw [Woken, List.map_append, List.mem_append]
      exact woken.imp_left .inl
    refine ⟨?_, signalled.waits, signalled.unpublished, ?_⟩
    · intro armed
      apply (signalled.armed armed).imp _ stillWoken
      exact (List.mem_erase_of_ne (Ne.symm isWakeup)).mpr
    · intro running notEmpty
      rcases signalled.noticed running notEmpty with late | written | woken | draining
      · exact .inl late
      · exact .inr (.inl ((sameCounter isWakeup).symm ▸ written))
      · exact .inr (.inr (.inl (stillWoken woken)))
      · exact .inr (.inr (.inr draining))

theorem Signalled.startCall (signalled : loop.Signalled) (call : List PushAction) {running : Bool}
    (wasRunning : running = true → loop.running = true) :
    ({ loop with running, calls := start loop.calls call } : EventLoop).Signalled := by
  have more : loop.pushActions ⊆ pending (start loop.calls call) + loop.point.push := by
    intro action mem
    rw [pushActions, mem_add] at mem
    exact mem_add.mpr (mem.imp_left mem_pending_start)
  exact (signalled.mono more).transfer wasRunning id (List.Subset.refl _) (List.Subset.refl _) rfl
    id id signalled.waits

def Succeeds (loop : EventLoop) : Event → Prop
  | .advance answers => loop.Submits answers
  | _ => True

instance (loop : EventLoop) (event : Event) : Decidable (loop.Succeeds event) :=
  match event with
  | .advance answers =>
    inferInstanceAs (Decidable (answers.sqe = true ∧
      answers.submitted.any (loop.prepared.length < ·) = true))
  | .push _ | .stop | .proceed _ | .callbackPush _ | .callbackProceed | .complete _ _
  | .waitFails => isTrue trivial

theorem Signalled.step {event : Event} (signalled : loop.Signalled)
    (succeeds : loop.Succeeds event) (taken : loop.step config event = some after) :
    after.Signalled := by
  cases event with
  | push request =>
    cases taken
    exact signalled.startCall _ id
  | stop =>
    cases taken
    split
    · apply signalled.startCall
      intro other
      cases other
    · exact signalled
  | proceed index => exact signalled.proceed taken
  | callbackPush request => exact signalled.callbackPush taken
  | callbackProceed => exact signalled.callbackProceed taken
  | advance answers => exact signalled.advance succeeds taken
  | complete sqe result => exact signalled.complete taken
  | waitFails =>
    rcases waitFails_cases taken with ⟨here, rfl, actions⟩
    rw [Signalled, actions]
    apply signalled.goTo (by rw [here]; rfl) (by rw [here]; exact id)
    intro other
    cases other

theorem signalled_initial : ({} : EventLoop).Signalled where
  armed armed := by cases armed
  waits waiting := by cases waiting
  unpublished _ mem := by cases mem
  noticed _ notEmpty := absurd rfl notEmpty

/-- The loop waits, and nothing that it waits for is there: no completion, and no value of the
counter that the read in the ring would get. -/
structure Blocked (loop : EventLoop) : Prop where
  waiting : loop.point = .waiting
  noCompletion : loop.completions = []
  nothingToRead : .wakeup ∈ loop.submitted → loop.wakeCounter = 0

/-- If the loop is blocked while it is running and no thread is in `push`, the queue is empty. -/
theorem queue_empty_of_blocked {events : List Event}
    (run : Run (step config) Succeeds {} events loop) (running : loop.running = true)
    (blocked : loop.Blocked) (noPush : pending loop.calls = 0) : loop.queue = [] := by
  have signalled : loop.Signalled := by
    apply run.invariant
    · exact signalled_initial
    · intro before after event succeeds taken signalled
      exact signalled.step succeeds taken
  have notWoken : ¬ loop.Woken := by
    rw [Woken, blocked.waiting, blocked.noCompletion]
    simp [Point.batch]
  have inRing : .wakeup ∈ loop.submitted :=
    (signalled.armed (signalled.waits blocked.waiting)).resolve_right notWoken
  by_contra notEmpty
  rcases signalled.noticed running notEmpty with ⟨action, mem, _⟩ | written | woken | draining
  · rw [pushActions, noPush, blocked.waiting] at mem
    simp [Point.push] at mem
  · rw [blocked.nothingToRead inRing] at written
    exact Nat.lt_irrefl 0 written
  · exact notWoken woken
  · rw [blocked.waiting] at draining
    exact draining

/-- A thread posts a callback; the loop wakes up, runs it, and waits again. -/
def postedCallback : List Event :=
  let served : Event := .advance { submitted := some 1 }
  [served, .push { type := .close }, .proceed 0, .proceed 0, .proceed 0, .complete .wakeup 8,
    served, served, served, served, served, served, served, served]

def blockedAgain (loop : EventLoop) : Bool :=
  loop.running && loop.completions.isEmpty && loop.wakeCounter == 0 &&
    loop.calls.flatten.isEmpty && loop.pushed == [{ type := .close }] && loop.point == .waiting

/-- The callback has been taken from the queue when the loop blocks again. -/
theorem queue_empty_after_callback :
    ∃ loop, Run (step {}) Succeeds {} postedCallback loop ∧ loop.running = true ∧ loop.Blocked ∧
      pending loop.calls = 0 ∧ loop.pushed = [{ type := .close }] ∧ loop.queue = [] := by
  apply Run.exists_of_execute blockedAgain (by decide +kernel)
  intro loop run facts
  simp only [blockedAgain, Bool.and_eq_true, List.isEmpty_iff, beq_iff_eq] at facts
  rcases facts with ⟨⟨⟨⟨⟨running, noCompletion⟩, noCounter⟩, noCalls⟩, pushed⟩, waiting⟩
  have blocked : loop.Blocked := ⟨waiting, noCompletion, fun _ => noCounter⟩
  have noPush : pending loop.calls = 0 := by
    rw [pending, noCalls]
    rfl
  exact ⟨running, blocked, noPush, pushed, queue_empty_of_blocked run running blocked noPush⟩

end Runs

end EventLoop

end IotProxy.Myring
