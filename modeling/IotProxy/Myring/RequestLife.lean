import IotProxy.Myring.EventLoop

/-!
# What becomes of a request

A request that has been pushed is in the queue, then in the ring, and in the end its callback is
called. A send that was completed in part goes back to the ring, and an accept request always does.
On its way a request is in one place at a time (`CustodyOf`).

When `submit_request` fails, since the ring has no free entry or the submission fails, the request
is destroyed, and its callback is never called.
-/

namespace IotProxy.Myring

open Interleaving EventSystem Multiset

def Point.owner : Point → List Entry
  | .calling _ owner _ => owner.toList
  | _ => []

theorem Resume.owner_point (resume : Resume) : resume.point.owner = [] := by
  cases resume <;> rfl

def PushAction.Below (tickets : ℕ) : PushAction → Prop
  | .pushWait _ | .notifyWakeup none => True
  | .publish ticket | .notifyWakeup (some ticket) => ticket < tickets

variable {action : PushAction}

theorem PushAction.Below.mono {tickets more : ℕ} (le : tickets ≤ more)
    (below : action.Below tickets) : action.Below more := by
  cases action with
  | pushWait request => trivial
  | publish ticket => exact Nat.lt_of_lt_of_le below le
  | notifyWakeup ticket =>
    cases ticket with
    | none => trivial
    | some ticket => exact Nat.lt_of_lt_of_le below le

/-- A request that `submit_request` knows, and that does not send nothing. -/
structure Request.Valid (request : Request) : Prop where
  notWakeup : request.type ≠ .wakeup
  notUnknown : request.type ≠ .unknown
  sends : request.type = .send → request.remaining ≠ 0

def PushAction.Valid : PushAction → Prop
  | .pushWait request => request.Valid
  | .publish _ | .notifyWakeup _ => True

namespace EventLoop

section Custody

variable (loop : EventLoop)

def typeOf (ticket : ℕ) : Option RequestType := loop.pushed[ticket]?.map Request.type

def held (hand : List Entry) : Multiset Entry :=
  loop.queue.map Slot.entry + loop.inflight +
    loop.called.filter (fun entry => entry.request.type ≠ .accept) + loop.refused + hand

def ring (batch : List Cqe) : List Sqe :=
  loop.prepared ++ loop.submitted ++ loop.completions.map Prod.fst ++ batch.map Prod.fst

structure CustodyOf (hand : List Entry) (batch : List Cqe) : Prop where
  once : ∀ ticket, (loop.held hand).countP (·.ticket = ticket) =
    if ticket < loop.pushed.length then 1 else 0
  typed : ∀ entry, entry ∈ loop.held hand ∨ entry ∈ loop.called →
    loop.typeOf entry.ticket = some entry.request.type
  inRing : ∀ entry ∈ loop.inflight, .request entry.ticket ∈ loop.ring batch

structure Kept : Prop where
  custody : loop.CustodyOf loop.point.owner loop.point.batch
  owner : ∀ entry ∈ loop.point.owner, entry.request.type = .accept

end Custody

variable {config : EventLoopConfig} {loop after : EventLoop} {answers : RingAnswers}
  {hand : List Entry} {batch : List Cqe} {resume : Resume} {entry : Entry}

variable {ticket : ℕ} {result : ℤ}

section Handling

theorem CustodyOf.of_held_eq {hand' : List Entry} {batch' : List Cqe}
    (custody : loop.CustodyOf hand batch) (pushed : after.pushed = loop.pushed)
    (sameHeld : after.held hand' = loop.held hand)
    (called : ∀ entry ∈ after.called, entry ∈ loop.held hand ∨ entry ∈ loop.called)
    (inRing : ∀ entry ∈ after.inflight, .request entry.ticket ∈ after.ring batch') :
    after.CustodyOf hand' batch' where
  once := by
    rw [sameHeld, pushed]
    exact custody.once
  typed entry mem := by
    rw [typeOf, pushed]
    apply custody.typed
    rcases mem with mem | mem
    · exact .inl (sameHeld ▸ mem)
    · exact called entry mem
  inRing := inRing

theorem mem_held_hand (loop : EventLoop) (entry : Entry) : entry ∈ loop.held [entry] :=
  mem_add.mpr (.inr (List.mem_singleton.mpr rfl))

theorem CustodyOf.invokeCallback (custody : loop.CustodyOf [entry] batch)
    (notAccept : entry.request.type ≠ .accept) :
    (loop.invokeCallback resume none entry).CustodyOf [] batch := by
  refine custody.of_held_eq rfl ?_ ?_ ?_
  · simp only [held, EventLoop.invokeCallback, List.filter_append, ← coe_add]
    rw [List.filter_cons_of_pos (by simpa using notAccept), List.filter_nil, coe_nil]
    abel
  · intro other mem
    rcases List.mem_append.mp mem with old | new
    · exact .inr old
    · rw [List.mem_singleton.mp new]
      exact .inl (mem_held_hand loop entry)
  · exact custody.inRing

theorem CustodyOf.invokeAccept (custody : loop.CustodyOf [entry] batch)
    (isAccept : entry.request.type = .accept) :
    (loop.invokeCallback resume (some entry) entry).CustodyOf [entry] batch := by
  refine custody.of_held_eq rfl ?_ ?_ ?_
  · simp only [held, EventLoop.invokeCallback, List.filter_append]
    rw [List.filter_cons_of_neg (by simpa using isAccept), List.filter_nil, List.append_nil]
  · intro other mem
    rcases List.mem_append.mp mem with old | new
    · exact .inr old
    · rw [List.mem_singleton.mp new]
      exact .inl (mem_held_hand loop entry)
  · exact custody.inRing

theorem CustodyOf.refuse (custody : loop.CustodyOf [entry] batch) :
    (loop.refuse resume entry).CustodyOf [] batch := by
  refine custody.of_held_eq rfl ?_ ?_ ?_
  · simp only [held, EventLoop.refuse, ← coe_add, coe_nil]
    abel
  · exact fun _ => .inr
  · exact custody.inRing

theorem CustodyOf.prepare (custody : loop.CustodyOf hand batch) (sqe : Sqe) :
    (loop.prepare sqe).CustodyOf hand batch := by
  refine custody.of_held_eq rfl rfl (fun _ => .inr) ?_
  intro entry mem
  have old := custody.inRing entry mem
  simp only [ring, EventLoop.prepare, List.mem_append] at old ⊢
  tauto

theorem CustodyOf.submit (custody : loop.CustodyOf hand batch)
    (submitted : loop.submit answers = some after) : after.CustodyOf hand batch := by
  rcases Option.map_eq_some_iff.mp submitted with ⟨count, _, rfl⟩
  refine custody.of_held_eq rfl rfl (fun _ => .inr) ?_
  intro entry mem
  have old := custody.inRing entry mem
  rw [ring, ← List.take_append_drop count loop.prepared] at old
  simp only [ring, List.mem_append] at old ⊢
  tauto

theorem mem_ring_submit (loop : EventLoop) (ticket : ℕ)
    (submitted : (loop.prepare (.request ticket)).submit answers = some after) :
    .request ticket ∈ after.ring batch := by
  rcases Option.map_eq_some_iff.mp submitted with ⟨count, _, rfl⟩
  have filled : Sqe.request ticket ∈ (loop.prepare (.request ticket)).prepared := by
    simp [EventLoop.prepare]
  rw [← List.take_append_drop count (loop.prepare _).prepared] at filled
  simp only [ring, List.mem_append] at filled ⊢
  tauto

theorem CustodyOf.submitted (custody : loop.CustodyOf [entry] batch)
    (inRing : .request entry.ticket ∈ loop.ring batch) (point : Point) :
    ({ loop with inflight := loop.inflight ++ [entry], point } : EventLoop).CustodyOf [] batch := by
  refine custody.of_held_eq rfl ?_ ?_ ?_
  · simp only [held, ← coe_add, coe_nil]
    abel
  · exact fun _ => .inr
  · intro other mem
    rcases List.mem_append.mp mem with old | new
    · exact custody.inRing other old
    · rw [List.mem_singleton.mp new]
      exact inRing

theorem CustodyOf.kept (custody : loop.CustodyOf [] batch) (noOwner : loop.point.owner = [])
    (sameBatch : loop.point.batch = batch) : loop.Kept := by
  constructor
  · rw [noOwner, sameBatch]
    exact custody
  · rw [noOwner]
    exact fun _ mem => nomatch mem

theorem kept_refuse (custody : loop.CustodyOf [entry] resume.batch) :
    (loop.refuse resume entry).Kept :=
  custody.refuse.kept resume.owner_point resume.batch_point

theorem kept_submitRequest (custody : loop.CustodyOf [entry] resume.batch) :
    (loop.submitRequest answers resume entry).Kept := by
  unfold submitRequest
  split
  · next isClose =>
      have notAccept : entry.request.type ≠ .accept := by
        rw [isClose]
        decide
      exact (custody.invokeCallback notAccept).kept rfl rfl
  · exact kept_refuse custody
  · exact kept_refuse custody
  all_goals
    split
    · split
      · next submitted =>
          have between := (custody.prepare (.request entry.ticket)).submit submitted
          exact (between.submitted (mem_ring_submit loop entry.ticket submitted) resume.point).kept
            resume.owner_point resume.batch_point
      · exact kept_refuse (custody.prepare _)
    · exact kept_refuse custody

theorem CustodyOf.advance (custody : loop.CustodyOf [entry] batch) (result : ℤ) :
    loop.CustodyOf [{ entry with request := entry.request.advance result }] batch := by
  constructor
  · intro ticket
    have once := custody.once ticket
    simp only [held, countP_add, coe_countP, List.countP_singleton] at once ⊢
    exact once
  · intro other mem
    rcases mem with mem | mem
    · rcases mem_add.mp mem with rest | hand
      · exact custody.typed other (.inl (mem_add.mpr (.inl rest)))
      · rw [mem_coe, List.mem_singleton] at hand
        rw [hand]
        dsimp only
        rw [Request.type_advance]
        exact custody.typed entry (.inl (mem_held_hand loop entry))
    · exact custody.typed other (.inr mem)
  · exact custody.inRing

theorem kept_processOwner (custody : loop.CustodyOf [entry] batch) (result : ℤ) :
    (loop.processOwner answers batch entry result).Kept := by
  unfold processOwner
  split
  case h_1 isAccept =>
    refine ⟨custody.invokeAccept isAccept, ?_⟩
    intro owner mem
    cases List.mem_singleton.mp mem
    exact isAccept
  case h_2 isSend =>
    have goesOn := custody.advance result
    dsimp only
    split
    · exact kept_submitRequest goesOn
    · have notAccept : (entry.request.advance result).type ≠ .accept := by
        rw [Request.type_advance, isSend]
        decide
      exact (goesOn.invokeCallback notAccept).kept rfl rfl
  case h_8 => exact kept_refuse custody
  case h_9 => exact kept_refuse custody
  all_goals
    next isType =>
      have notAccept : entry.request.type ≠ .accept := by
        rw [isType]
        decide
      exact (custody.invokeCallback notAccept).kept rfl rfl

theorem CustodyOf.ticket_ne {other : Entry} (custody : loop.CustodyOf hand batch)
    (mem : entry ∈ loop.inflight) (isOther : other ∈ loop.inflight.erase entry) :
    other.ticket ≠ entry.ticket := by
  intro same
  have once := custody.once entry.ticket
  have two : 2 ≤ loop.inflight.countP (·.ticket = entry.ticket) := by
    rw [(List.perm_cons_erase mem).countP_eq, List.countP_cons_of_pos (by simp)]
    have one : 0 < (loop.inflight.erase entry).countP (·.ticket = entry.ticket) :=
      List.countP_pos_iff.mpr ⟨other, isOther, by simpa using same⟩
    omega
  have atMost : (loop.held hand).countP (·.ticket = entry.ticket) ≤ 1 := by
    rw [once]
    split <;> omega
  simp only [held, countP_add, coe_countP] at atMost
  omega

theorem mem_ring_of_ne {other : ℕ} (different : other ≠ ticket)
    (mem : .request other ∈ loop.ring ((.request ticket, result) :: batch)) :
    .request other ∈ loop.ring batch := by
  simp only [ring, List.map_cons, List.mem_append, List.mem_cons, Sqe.request.injEq] at mem ⊢
  tauto

theorem kept_process (custody : loop.CustodyOf [] ((.request ticket, result) :: batch)) :
    (loop.process answers batch ticket result).Kept := by
  unfold process
  split
  · next missing =>
      rw [List.find?_eq_none] at missing
      have elsewhere : ({ loop with point := .handling batch } : EventLoop).CustodyOf [] batch := by
        refine custody.of_held_eq rfl rfl (fun _ => .inr) ?_
        intro other mem
        exact mem_ring_of_ne (by simpa using missing other mem) (custody.inRing other mem)
      exact elsewhere.kept rfl rfl
  · next entry found =>
      have mem := List.mem_of_find?_eq_some found
      have isTicket : entry.ticket = ticket := by
        simpa using List.find?_some found
      apply kept_processOwner
      refine custody.of_held_eq rfl ?_ (fun _ => .inr) ?_
      · have parts : (loop.inflight : Multiset Entry) = [entry] + loop.inflight.erase entry := by
          rw [coe_add]
          exact coe_eq_coe.mpr (List.perm_cons_erase mem)
        simp only [held, coe_nil]
        rw [parts]
        abel
      · intro other isOther
        have different := custody.ticket_ne mem isOther
        rw [isTicket] at different
        exact mem_ring_of_ne different (custody.inRing other (List.mem_of_mem_erase isOther))

theorem kept_returnFromCallback {owner : Option Entry}
    (custody : loop.CustodyOf owner.toList resume.batch) :
    (loop.returnFromCallback answers resume owner).Kept := by
  unfold returnFromCallback
  split
  · have here : ({ loop with point := resume.point } : EventLoop).CustodyOf [] resume.batch :=
      custody.of_held_eq rfl rfl (fun _ => .inr) custody.inRing
    exact here.kept resume.owner_point resume.batch_point
  · split
    · exact kept_submitRequest custody
    · exact kept_refuse custody

end Handling

variable {running : Bool} {more : List PushAction}

section Steps

theorem CustodyOf.goTo {batch' completions : List Cqe} {point : Point} {armed : Bool}
    (custody : loop.CustodyOf [] batch) (noOwner : point.owner = [])
    (sameBatch : point.batch = batch')
    (sameRing : ∀ ticket, .request ticket ∈ loop.ring batch → .request ticket ∈
      ({ loop with running, wakeupArmed := armed, completions, point } : EventLoop).ring batch') :
    ({ loop with running, wakeupArmed := armed, completions, point } : EventLoop).Kept := by
  have here : CustodyOf { loop with running, wakeupArmed := armed, completions, point } []
      batch' :=
    custody.of_held_eq rfl rfl (fun _ => .inr)
      fun entry mem => sameRing entry.ticket (custody.inRing entry mem)
  exact here.kept noOwner sameBatch

theorem kept_armWakeup (custody : loop.CustodyOf [] []) : (loop.armWakeup answers).Kept := by
  unfold armWakeup
  split
  · split
    · next submitted =>
        exact ((custody.prepare .wakeup).submit submitted).goTo rfl rfl fun _ => id
    · exact (custody.prepare .wakeup).goTo rfl rfl fun _ => id
  · exact custody.goTo rfl rfl fun _ => id

theorem Kept.advance (kept : loop.Kept) (taken : loop.advance config answers = some after) :
    after.Kept := by
  have custody := kept.custody
  cases advances_of_advance taken with
  | arm here running notArmed =>
    rw [here] at custody
    exact kept_armWakeup custody
  | wait here armed =>
    rw [here] at custody
    exact custody.goTo rfl rfl fun _ => id
  | leave here stopped =>
    rw [here] at custody
    exact custody.goTo rfl rfl fun _ => id
  | handled here =>
    rw [here] at custody
    exact custody.goTo rfl rfl fun _ => id
  | idle here nothing =>
    rw [here] at custody
    exact custody.goTo rfl rfl fun _ => id
  | drained batch here nothing =>
    rw [here] at custody
    exact custody.goTo rfl rfl fun _ => id
  | reap cqe completions here ready =>
    rw [here] at custody
    apply custody.goTo rfl rfl
    intro ticket mem
    simp only [ring, ready, Point.batch, List.map_cons, List.map_nil, List.mem_append,
      List.mem_cons] at mem ⊢
    tauto
  | wakeup result batch here =>
    rw [here] at custody
    have sameRing (ticket : ℕ) (point : Point)
        (mem : .request ticket ∈ loop.ring ((.wakeup, result) :: batch)) :
        .request ticket ∈ ({ loop with wakeupArmed := false, point } : EventLoop).ring batch := by
      simp only [ring, List.map_cons, List.mem_append, List.mem_cons, reduceCtorEq,
        false_or] at mem ⊢
      exact mem
    split
    · exact custody.goTo rfl rfl fun ticket => sameRing ticket _
    · exact custody.goTo rfl rfl fun ticket => sameRing ticket _
  | request ticket result batch here =>
    rw [here] at custody
    exact kept_process custody
  | popped rest batch entry here popped =>
    rcases pop_eq_some popped with ⟨slot, queue, isQueue, rfl, rfl⟩
    rw [here] at custody
    change loop.CustodyOf [] batch at custody
    apply kept_submitRequest
    refine custody.of_held_eq rfl ?_ (fun _ => .inr) custody.inRing
    simp only [held, isQueue, List.map_cons, ← cons_coe, ← singleton_add, coe_nil]
    abel
  | returned resume owner here =>
    rw [here] at custody
    exact kept_returnFromCallback custody
  | peeked here =>
    rw [here] at custody
    apply custody.goTo rfl rfl
    intro ticket mem
    rw [ring, ← List.take_append_drop config.eventLimit loop.completions] at mem
    simp only [ring, Point.batch, List.map_append, List.map_nil, List.mem_append,
      List.not_mem_nil] at mem ⊢
    tauto

theorem Kept.complete {sqe : Sqe} (kept : loop.Kept)
    (taken : loop.complete sqe result = some after) : after.Kept := by
  rcases complete_eq taken with ⟨_, counter, _, rfl⟩
  refine ⟨?_, kept.owner⟩
  refine kept.custody.of_held_eq rfl rfl (fun _ => .inr) ?_
  intro entry mem
  have old := kept.custody.inRing entry mem
  simp only [ring, List.map_append, List.map_cons, List.map_nil, List.mem_append,
    List.mem_singleton] at old ⊢
  by_cases same : .request entry.ticket = sqe
  · simp [same]
  · rw [List.mem_erase_of_ne same]
    tauto

theorem typeOf_append {type : RequestType} (request : Request)
    (known : loop.typeOf ticket = some type) :
    (loop.pushed ++ [request])[ticket]?.map Request.type = some type := by
  rcases Option.map_eq_some_iff.mp known with ⟨pushed, found, rfl⟩
  rw [List.getElem?_append_left (List.getElem?_eq_some_iff.mp found).1, found, Option.map_some]

theorem CustodyOf.takeAction (custody : loop.CustodyOf hand batch)
    (taken : loop.takeAction config action = some (after, more)) : after.CustodyOf hand batch := by
  cases action with
  | pushWait request =>
    rcases Option.ite_none_right_eq_some.mp taken with ⟨_, same⟩
    cases same
    have added : held { loop with
        pushed := loop.pushed ++ [request]
        queue := loop.queue ++ [{ entry := ⟨loop.pushed.length, request⟩ }] } hand =
        ⟨loop.pushed.length, request⟩ ::ₘ loop.held hand := by
      rw [← singleton_add]
      simp only [held, List.map_append, List.map_cons, List.map_nil, ← coe_add, coe_singleton]
      abel
    refine ⟨?_, ?_, custody.inRing⟩
    · intro ticket
      have once := custody.once ticket
      rw [added, countP_cons, once, List.length_append, List.length_singleton]
      dsimp only
      split_ifs <;> omega
    · rw [added]
      intro entry mem
      rw [mem_cons, or_assoc] at mem
      rcases mem with rfl | old
      · simp [typeOf]
      · exact typeOf_append request (custody.typed entry old)
  | publish ticket =>
    cases taken
    refine custody.of_held_eq rfl ?_ (fun _ => .inr) custody.inRing
    have sameEntries : (loop.queue.map fun slot =>
        if slot.entry.ticket = ticket then { slot with published := true } else slot).map
          Slot.entry = loop.queue.map Slot.entry := by
      rw [List.map_map]
      apply List.map_congr_left
      intro slot _
      dsimp only [Function.comp_apply]
      split <;> rfl
    rw [held, held, sameEntries]
  | notifyWakeup ticket =>
    cases taken
    exact custody.of_held_eq rfl rfl (fun _ => .inr) custody.inRing

end Steps

section Runs

structure Sound (loop : EventLoop) : Prop where
  kept : loop.Kept
  accepted : ∀ ticket ∈ loop.accepted, ticket < loop.pushed.length
  below : ∀ action ∈ loop.pushActions, action.Below loop.pushed.length

theorem below_takeAction {others : Multiset PushAction}
    (taken : loop.takeAction config action = some (after, more))
    (accepted : ∀ ticket ∈ loop.accepted, ticket < loop.pushed.length)
    (below : ∀ other ∈ action ::ₘ others, other.Below loop.pushed.length) :
    (∀ ticket ∈ after.accepted, ticket < after.pushed.length) ∧
      ∀ other ∈ (more + others : Multiset PushAction), other.Below after.pushed.length := by
  have mine := below action (mem_cons_self action others)
  have theirs (other : PushAction) (mem : other ∈ others) :=
    below other (mem_cons_of_mem mem)
  cases action with
  | pushWait request =>
    rcases Option.ite_none_right_eq_some.mp taken with ⟨_, same⟩
    cases same
    have longer : loop.pushed.length ≤ (loop.pushed ++ [request]).length := by simp
    refine ⟨fun ticket mem => (accepted ticket mem).trans_le longer, ?_⟩
    intro other mem
    rcases mem_add.mp mem with new | old
    · cases List.mem_singleton.mp new
      simp [PushAction.Below]
    · exact (theirs other old).mono longer
  | publish ticket =>
    cases taken
    refine ⟨accepted, ?_⟩
    intro other mem
    rcases mem_add.mp mem with new | old
    · cases List.mem_singleton.mp new
      exact mine
    · exact theirs other old
  | notifyWakeup ticket =>
    cases taken
    refine ⟨?_, ?_⟩
    · intro other mem
      rcases List.mem_append.mp mem with old | new
      · exact accepted other old
      · cases ticket with
        | none => cases new
        | some ticket =>
          cases List.mem_singleton.mp new
          exact mine
    · intro other mem
      rcases mem_add.mp mem with new | old
      · cases new
      · exact theirs other old

theorem Sound.startCall (sound : loop.Sound) (below : action.Below loop.pushed.length) :
    Sound { loop with running, calls := start loop.calls [action] } := by
  refine ⟨⟨?_, sound.kept.owner⟩, sound.accepted, ?_⟩
  · exact sound.kept.custody.of_held_eq rfl rfl (fun _ => .inr) sound.kept.custody.inRing
  · intro other mem
    rw [pushActions, pending_start, mem_add, mem_add] at mem
    rcases mem with (new | old) | own
    · cases List.mem_singleton.mp new
      exact below
    · exact sound.below other (mem_add.mpr (.inl old))
    · exact sound.below other (mem_add.mpr (.inr own))

theorem Sound.step {event : Event} (sound : loop.Sound)
    (taken : loop.step config event = some after) : after.Sound := by
  cases event with
  | push request =>
    cases taken
    exact sound.startCall trivial
  | stop =>
    cases taken
    split
    · exact sound.startCall trivial
    · exact sound
  | proceed index =>
    rcases proceed_cases taken with
      ⟨action, others, between, more, calls, mine, acted, rfl, theirs⟩
    have below := sound.below
    rw [mine] at below
    have tickets := below_takeAction acted sound.accepted below
    have custody := sound.kept.custody.takeAction acted
    have samePoint : between.point = loop.point := by
      rcases takeAction_eq acted with ⟨_, _, _, _, rfl⟩
      rfl
    rw [← samePoint] at custody
    refine ⟨⟨?_, ?_⟩, tickets.1, ?_⟩
    · exact custody.of_held_eq rfl rfl (fun _ => .inr) custody.inRing
    · dsimp only
      rw [samePoint]
      exact sound.kept.owner
    · rw [theirs]
      exact tickets.2
  | callbackPush request =>
    rcases callbackPush_cases taken with ⟨resume, owner, here, rfl, actions⟩
    have kept := sound.kept
    refine ⟨⟨?_, ?_⟩, sound.accepted, ?_⟩
    · have custody := kept.custody
      rw [here] at custody
      exact custody.of_held_eq rfl rfl (fun _ => .inr) custody.inRing
    · have owner := kept.owner
      rw [here] at owner
      exact owner
    · rw [actions]
      intro action mem
      rcases mem_cons.mp mem with rfl | old
      · trivial
      · exact sound.below action old
  | callbackProceed =>
    rcases callbackProceed_cases taken with
      ⟨action, others, between, more, resume, owner, rest, here, mine, acted, rfl, theirs⟩
    have below := sound.below
    rw [mine] at below
    have tickets := below_takeAction acted sound.accepted below
    have custody := sound.kept.custody
    rw [here] at custody
    have custody := custody.takeAction acted
    refine ⟨⟨?_, ?_⟩, tickets.1, ?_⟩
    · exact custody.of_held_eq rfl rfl (fun _ => .inr) custody.inRing
    · have owner := sound.kept.owner
      rw [here] at owner
      exact owner
    · rw [theirs]
      exact tickets.2
  | advance answers =>
    have same := (advances_of_advance taken).sameCalls
    refine ⟨sound.kept.advance taken, ?_, ?_⟩
    · rw [same.accepted, same.pushed]
      exact sound.accepted
    · rw [same.pushActions, same.pushed]
      exact sound.below
  | complete sqe result =>
    have kept := sound.kept.complete taken
    rcases complete_eq taken with ⟨_, _, _, rfl⟩
    exact ⟨kept, sound.accepted, sound.below⟩
  | waitFails =>
    rcases waitFails_cases taken with ⟨here, rfl, actions⟩
    have custody := sound.kept.custody
    rw [here] at custody
    refine ⟨custody.goTo rfl rfl fun _ => id, sound.accepted, ?_⟩
    rw [actions]
    exact sound.below

theorem sound_initial : ({} : EventLoop).Sound where
  kept := by
    have custody : ({} : EventLoop).CustodyOf [] [] :=
      ⟨fun _ => rfl, fun _ mem => by simp [held] at mem, fun _ mem => nomatch mem⟩
    exact custody.kept rfl rfl
  accepted _ mem := nomatch mem
  below _ mem := by simp [pushActions, Point.push] at mem

variable (loop) (ticket : ℕ)

def Queued : Prop := ∃ slot ∈ loop.queue, slot.entry.ticket = ticket

def InFlight : Prop :=
  (∃ entry ∈ loop.inflight, entry.ticket = ticket) ∧ .request ticket ∈ loop.ring loop.point.batch

def Refused : Prop := ∃ entry ∈ loop.refused, entry.ticket = ticket

def callbacks : ℕ := loop.called.countP (·.ticket = ticket)

/-- The callback was called exactly once, or the request is still on its way to it. -/
def Settled : Prop :=
  loop.callbacks ticket = 1 ∧ ¬ loop.Queued ticket ∧ ¬ loop.InFlight ticket ∨
    loop.callbacks ticket = 0 ∧ (loop.Queued ticket ∨ loop.InFlight ticket)

variable {loop ticket}

theorem Sound.inFlight_iff (sound : loop.Sound) :
    loop.InFlight ticket ↔ 0 < loop.inflight.countP (·.ticket = ticket) := by
  rw [List.countP_pos_iff]
  simp only [decide_eq_true_eq]
  constructor
  · exact And.left
  · rintro ⟨entry, mem, rfl⟩
    exact ⟨⟨entry, mem, rfl⟩, sound.kept.custody.inRing entry mem⟩

theorem queued_iff :
    loop.Queued ticket ↔ 0 < (loop.queue.map Slot.entry).countP (·.ticket = ticket) := by
  simp [Queued, List.countP_pos_iff]

theorem refused_iff : loop.Refused ticket ↔ 0 < loop.refused.countP (·.ticket = ticket) := by
  simp [Refused, List.countP_pos_iff]

theorem Sound.callbacks_eq (sound : loop.Sound) (notAccept : loop.typeOf ticket ≠ some .accept) :
    (loop.called.filter fun entry => entry.request.type ≠ .accept).countP (·.ticket = ticket) =
      loop.callbacks ticket := by
  rw [List.countP_filter]
  apply List.countP_congr
  intro entry mem
  have typed := sound.kept.custody.typed entry (.inr mem)
  simp only [Bool.and_eq_true, decide_eq_true_eq, and_iff_left_iff_imp]
  rintro rfl isAccept
  rw [isAccept] at typed
  exact notAccept typed

theorem Sound.owner_eq (sound : loop.Sound) (notAccept : loop.typeOf ticket ≠ some .accept) :
    loop.point.owner.countP (·.ticket = ticket) = 0 := by
  rw [List.countP_eq_zero]
  intro entry mem same
  have typed := sound.kept.custody.typed entry (.inl (mem_add.mpr (.inr mem)))
  rw [of_decide_eq_true same, sound.kept.owner entry mem] at typed
  exact notAccept typed

theorem Sound.one_place (sound : loop.Sound) (given : ticket < loop.pushed.length)
    (notAccept : loop.typeOf ticket ≠ some .accept) :
    (loop.queue.map Slot.entry).countP (·.ticket = ticket) +
      loop.inflight.countP (·.ticket = ticket) + loop.callbacks ticket +
      loop.refused.countP (·.ticket = ticket) = 1 := by
  have once := sound.kept.custody.once ticket
  rw [if_pos given] at once
  simp only [held, countP_add, coe_countP] at once
  rw [sound.callbacks_eq notAccept, sound.owner_eq notAccept] at once
  exact once

theorem Sound.settled_iff (sound : loop.Sound) (given : ticket < loop.pushed.length)
    (notAccept : loop.typeOf ticket ≠ some .accept) :
    loop.Settled ticket ↔ ¬ loop.Refused ticket := by
  have one := sound.one_place given notAccept
  rw [Settled, sound.inFlight_iff, queued_iff, refused_iff]
  omega

end Runs

section Served

def Serves (answers : RingAnswers) : Prop :=
  answers.sqe = true ∧ answers.submitted.isSome = true

def Event.Served : Event → Prop
  | .advance answers => Serves answers
  | .push request | .callbackPush request => request.Valid
  | _ => True

structure Clean (loop : EventLoop) : Prop where
  inflight : ∀ entry ∈ loop.inflight, entry.request.Valid
  refused : ∀ entry ∈ loop.refused, entry.request.type = .accept

theorem Clean.submitRequest (clean : loop.Clean) (valid : entry.request.Valid)
    (serves : Serves answers) : (loop.submitRequest answers resume entry).Clean := by
  have prepared : prepares answers entry.request = true := by
    have sends := valid.sends
    rw [prepares, serves.1]
    simpa [imp_iff_not_or] using sends
  rcases Option.isSome_iff_exists.mp serves.2 with ⟨count, submitted⟩
  unfold EventLoop.submitRequest
  split
  · exact ⟨clean.inflight, clean.refused⟩
  · next isWakeup => exact absurd isWakeup valid.notWakeup
  · next isUnknown => exact absurd isUnknown valid.notUnknown
  all_goals
    rw [if_pos prepared, submit, submitted]
    refine ⟨?_, clean.refused⟩
    intro other mem
    rcases List.mem_append.mp mem with old | new
    · exact clean.inflight other old
    · rw [List.mem_singleton.mp new]
      exact valid

theorem Clean.processOwner (clean : loop.Clean) (valid : entry.request.Valid)
    (serves : Serves answers) (result : ℤ) :
    (loop.processOwner answers batch entry result).Clean := by
  unfold EventLoop.processOwner
  split
  case h_2 isSend =>
    dsimp only
    split
    · next goesOn =>
        have still : (entry.request.advance result).Valid := by
          refine ⟨?_, ?_, fun _ => goesOn.2⟩
          · rw [Request.type_advance]
            exact valid.notWakeup
          · rw [Request.type_advance]
            exact valid.notUnknown
        exact clean.submitRequest still serves
    · exact ⟨clean.inflight, clean.refused⟩
  case h_8 isUnknown => exact absurd isUnknown valid.notUnknown
  case h_9 isWakeup => exact absurd isWakeup valid.notWakeup
  all_goals exact ⟨clean.inflight, clean.refused⟩

theorem Clean.process (clean : loop.Clean) (serves : Serves answers) :
    (loop.process answers batch ticket result).Clean := by
  unfold EventLoop.process
  split
  · exact ⟨clean.inflight, clean.refused⟩
  · next entry found =>
      have valid := clean.inflight entry (List.mem_of_find?_eq_some found)
      have rest : Clean { loop with inflight := loop.inflight.erase entry } :=
        ⟨fun other mem => clean.inflight other (List.mem_of_mem_erase mem), clean.refused⟩
      exact rest.processOwner valid serves result

theorem Clean.returnFromCallback {owner : Option Entry} (clean : loop.Clean)
    (isAccept : ∀ entry ∈ owner.toList, entry.request.type = .accept) (serves : Serves answers) :
    (loop.returnFromCallback answers resume owner).Clean := by
  unfold EventLoop.returnFromCallback
  split
  · exact ⟨clean.inflight, clean.refused⟩
  · next owner =>
      have type := isAccept owner (List.mem_singleton.mpr rfl)
      have valid : owner.request.Valid := by
        constructor <;> simp [type]
      split
      · exact clean.submitRequest valid serves
      · refine ⟨clean.inflight, ?_⟩
        intro other mem
        rcases List.mem_append.mp mem with old | new
        · exact clean.refused other old
        · rw [List.mem_singleton.mp new]
          exact type

structure Servable (loop : EventLoop) : Prop where
  clean : loop.Clean
  queue : ∀ slot ∈ loop.queue, slot.entry.request.Valid
  calls : ∀ action ∈ loop.pushActions, action.Valid

theorem Clean.advance (clean : loop.Clean) (queue : ∀ slot ∈ loop.queue, slot.entry.request.Valid)
    (isAccept : ∀ entry ∈ loop.point.owner, entry.request.type = .accept) (serves : Serves answers)
    (taken : loop.advance config answers = some after) :
    after.Clean ∧ ∀ slot ∈ after.queue, slot.entry.request.Valid := by
  cases advances_of_advance taken with
  | arm here running notArmed =>
    rcases loop.armWakeup_eq answers with ⟨_, _, _, _, _, _, _, same⟩
    rw [same]
    exact ⟨⟨clean.inflight, clean.refused⟩, queue⟩
  | request ticket result batch here =>
    refine ⟨clean.process serves, ?_⟩
    have handles : Handles _ loop _ := handles_process answers batch ticket result
    rw [handles.queue]
    exact queue
  | popped rest batch entry here popped =>
    rcases pop_eq_some popped with ⟨slot, queue', isQueue, rfl, rfl⟩
    rw [isQueue] at queue
    have rest : Clean { loop with queue := queue' } := ⟨clean.inflight, clean.refused⟩
    refine ⟨rest.submitRequest (queue slot List.mem_cons_self) serves, ?_⟩
    have handles : Handles _ { loop with queue := queue' } _ :=
      handles_submitRequest answers (.drain batch) slot.entry
    rw [handles.queue]
    exact fun other mem => queue other (List.mem_cons_of_mem _ mem)
  | returned resume owner here =>
    rw [here] at isAccept
    refine ⟨clean.returnFromCallback isAccept serves, ?_⟩
    have handles : Handles _ loop _ := handles_returnFromCallback answers resume owner
    rw [handles.queue]
    exact queue
  | wait | leave | reap | handled | wakeup | drained | idle | peeked =>
    exact ⟨⟨clean.inflight, clean.refused⟩, queue⟩

theorem servable_takeAction {others : Multiset PushAction}
    (taken : loop.takeAction config action = some (after, more))
    (queue : ∀ slot ∈ loop.queue, slot.entry.request.Valid)
    (calls : ∀ other ∈ action ::ₘ others, other.Valid) :
    (∀ slot ∈ after.queue, slot.entry.request.Valid) ∧
      ∀ other ∈ (more + others : Multiset PushAction), other.Valid := by
  have mine := calls action (mem_cons_self action others)
  have theirs (other : PushAction) (mem : other ∈ others) :=
    calls other (mem_cons_of_mem mem)
  cases action with
  | pushWait request =>
    rcases Option.ite_none_right_eq_some.mp taken with ⟨_, same⟩
    cases same
    refine ⟨?_, ?_⟩
    · intro slot mem
      rcases List.mem_append.mp mem with old | new
      · exact queue slot old
      · rw [List.mem_singleton.mp new]
        exact mine
    · intro other mem
      rcases mem_add.mp mem with new | old
      · cases List.mem_singleton.mp new
        trivial
      · exact theirs other old
  | publish ticket =>
    cases taken
    refine ⟨?_, ?_⟩
    · intro slot mem
      rcases List.mem_map.mp mem with ⟨old, isOld, rfl⟩
      have valid := queue old isOld
      split <;> exact valid
    · intro other mem
      rcases mem_add.mp mem with new | old
      · cases List.mem_singleton.mp new
        trivial
      · exact theirs other old
  | notifyWakeup ticket =>
    cases taken
    refine ⟨queue, ?_⟩
    intro other mem
    rcases mem_add.mp mem with new | old
    · cases new
    · exact theirs other old

theorem Servable.startCall (servable : loop.Servable) (valid : action.Valid) :
    Servable { loop with running, calls := start loop.calls [action] } := by
  refine ⟨⟨servable.clean.inflight, servable.clean.refused⟩, servable.queue, ?_⟩
  intro other mem
  rw [pushActions, pending_start, mem_add, mem_add] at mem
  rcases mem with (new | old) | own
  · cases List.mem_singleton.mp new
    exact valid
  · exact servable.calls other (mem_add.mpr (.inl old))
  · exact servable.calls other (mem_add.mpr (.inr own))

theorem Servable.step {event : Event} (servable : loop.Servable) (sound : loop.Sound)
    (served : event.Served) (taken : loop.step config event = some after) : after.Servable := by
  cases event with
  | push request =>
    cases taken
    exact servable.startCall served
  | stop =>
    cases taken
    split
    · exact servable.startCall trivial
    · exact servable
  | proceed index =>
    rcases proceed_cases taken with
      ⟨action, others, between, more, calls, mine, acted, rfl, theirs⟩
    have valid := servable.calls
    rw [mine] at valid
    have later := servable_takeAction acted servable.queue valid
    rcases takeAction_eq acted with ⟨_, _, _, _, rfl⟩
    refine ⟨⟨servable.clean.inflight, servable.clean.refused⟩, later.1, ?_⟩
    rw [theirs]
    exact later.2
  | callbackPush request =>
    rcases callbackPush_cases taken with ⟨resume, owner, here, rfl, actions⟩
    refine ⟨⟨servable.clean.inflight, servable.clean.refused⟩, servable.queue, ?_⟩
    rw [actions]
    intro action mem
    rcases mem_cons.mp mem with rfl | old
    · exact served
    · exact servable.calls action old
  | callbackProceed =>
    rcases callbackProceed_cases taken with
      ⟨action, others, between, more, resume, owner, rest, here, mine, acted, rfl, theirs⟩
    have valid := servable.calls
    rw [mine] at valid
    have later := servable_takeAction acted servable.queue valid
    rcases takeAction_eq acted with ⟨_, _, _, _, rfl⟩
    refine ⟨⟨servable.clean.inflight, servable.clean.refused⟩, later.1, ?_⟩
    rw [theirs]
    exact later.2
  | advance answers =>
    have later := servable.clean.advance servable.queue sound.kept.owner served taken
    refine ⟨later.1, later.2, ?_⟩
    rw [(advances_of_advance taken).sameCalls.pushActions]
    exact servable.calls
  | complete sqe result =>
    rcases complete_eq taken with ⟨_, _, _, rfl⟩
    exact ⟨⟨servable.clean.inflight, servable.clean.refused⟩, servable.queue, servable.calls⟩
  | waitFails =>
    rcases waitFails_cases taken with ⟨here, rfl, actions⟩
    refine ⟨⟨servable.clean.inflight, servable.clean.refused⟩, servable.queue, ?_⟩
    rw [actions]
    exact servable.calls

theorem servable_initial : ({} : EventLoop).Servable where
  clean := ⟨(fun _ mem => nomatch mem), (fun _ mem => nomatch mem)⟩
  queue _ mem := nomatch mem
  calls _ mem := by simp [pushActions, Point.push] at mem

end Served

section Requests

variable {events : List Event} {ticket : ℕ}

theorem sound_of_run {condition : EventLoop → Event → Prop}
    (run : Run (step config) condition {} events loop) : loop.Sound := by
  apply run.invariant
  · exact sound_initial
  · intro before after event _ taken sound
    exact sound.step taken

theorem servable_of_run (run : Run (step config) (fun _ event => event.Served) {} events loop) :
    loop.Servable := by
  have both : loop.Sound ∧ loop.Servable := by
    apply run.invariant
    · exact ⟨sound_initial, servable_initial⟩
    · intro before after event served taken both
      exact ⟨both.1.step taken, both.2.step both.1 served taken⟩
  exact both.2

/-- A request for which `push` has returned true, other than an accept request, is completed exactly
once, or is still queued or in flight, if and only if it has not been refused. No request is refused
if the ring serves all submissions. -/
theorem settled_iff_not_refused (run : Run (step config) (fun _ _ => True) {} events loop)
    (accepted : ticket ∈ loop.accepted) (notAccept : loop.typeOf ticket ≠ some .accept) :
    (loop.Settled ticket ↔ ¬ loop.Refused ticket) ∧
      ((∀ event ∈ events, event.Served) → loop.Settled ticket) := by
  have sound := sound_of_run run
  have iff := sound.settled_iff (sound.accepted ticket accepted) notAccept
  refine ⟨iff, ?_⟩
  intro served
  rw [iff]
  rintro ⟨entry, mem, rfl⟩
  have servable := servable_of_run (run.restrict served)
  have typed := sound.kept.custody.typed entry (.inl (by simp [held, mem]))
  rw [servable.clean.refused entry mem] at typed
  exact notAccept typed

/-- A send request of five bytes that is sent in two parts. -/
def sentInParts : List Event :=
  let served : Event := .advance { submitted := some 1 }
  [served, .push { type := .send, remaining := 5 }, .proceed 0, .proceed 0, .proceed 0,
    .complete .wakeup 8, served, served, served, .complete (.request 0) 3, served, served, served,
    served, .complete (.request 0) 2, served, served, served]

/-- A send that the kernel takes in two parts calls back once. -/
theorem send_completes_once :
    ∃ loop, Run (step {}) (fun _ _ => True) {} sentInParts loop ∧ loop.accepted = [0] ∧
      loop.typeOf 0 = some .send ∧ loop.callbacks 0 = 1 ∧ loop.Settled 0 := by
  apply Run.exists_of_execute
    (fun loop => loop.accepted == [0] && loop.typeOf 0 == some .send && loop.callbacks 0 == 1 &&
      loop.refused.isEmpty)
    (by decide +kernel)
  intro loop run facts
  simp only [Bool.and_eq_true, beq_iff_eq, List.isEmpty_iff] at facts
  rcases facts with ⟨⟨⟨accepted, isSend⟩, once⟩, noneRefused⟩
  have settled : (loop.Settled 0 ↔ ¬ loop.Refused 0) ∧ _ :=
    settled_iff_not_refused run (by simp [accepted]) (by simp [isSend])
  refine ⟨accepted, isSend, once, settled.1.mpr ?_⟩
  simp [Refused, noneRefused]

def receives (answers : RingAnswers) : List Event :=
  let served : Event := .advance { submitted := some 1 }
  [served, .push { type := .recv }, .proceed 0, .proceed 0, .proceed 0, .complete .wakeup 8, served,
    served, .advance answers]

/-- At the end of that run the request has been accepted and is nowhere. -/
def Loses (answers : RingAnswers) : Prop :=
  ∃ loop, Run (step {}) (fun _ _ => True) {} (receives answers) loop ∧ loop.accepted = [0] ∧
    loop.typeOf 0 = some .recv ∧ loop.callbacks 0 = 0 ∧ loop.queue.length = 0 ∧
    loop.inflight = []

/-- A request is lost if the ring has no free entry, and if the submission fails. -/
theorem request_lost :
    Loses { sqe := false, submitted := some 1 } ∧ Loses { sqe := true, submitted := none } := by
  constructor
  all_goals
    apply Run.exists_of_execute
      (fun loop => loop.accepted == [0] && loop.typeOf 0 == some .recv && loop.callbacks 0 == 0 &&
        loop.queue.length == 0 && loop.inflight == [])
      (by decide +kernel)
    intro loop run facts
    simpa [and_assoc] using facts

end Requests

end EventLoop

end IotProxy.Myring
