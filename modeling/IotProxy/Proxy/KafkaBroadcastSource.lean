import IotProxy.Lib.Encoding
import IotProxy.Lib.Run
import IotProxy.Lib.Watermark

/-!
# The Kafka broadcast source

A loop that polls a topic, passes every message to a sender and commits the offset of the messages
that the sender took.

Kafka is modelled by what it promises to a consumer group. An assigned partition is read from the
committed offset on, or from the offset that `auto.offset.reset` names if there is none; it can be
assigned anew at any time.
-/

namespace IotProxy.Proxy

open EventSystem (Run)
open Watermark Function

/-- The callback of the source, with the state it keeps, the answers it gets from its
environment during one call, and the report it leaves. -/
structure Sender (σ ε ρ : Type) where
  send : σ → ε → Bytes → σ × ρ
  result : ρ → ℕ

inductive AutoOffsetReset where
  | earliest
  | latest
  deriving DecidableEq

/-- A message that was polled. There is no report if the message is empty: then the sender is
not called. -/
structure Delivery (ρ : Type) where
  partition : ℕ
  offset : ℕ
  report : Option ρ
  committed : Bool

/-- The consumer group, its one consumer and the history of deliveries, latest first. -/
structure SourceState (σ ρ : Type) where
  sender : σ
  committed : ℕ → Option ℕ := fun _ => none
  position : ℕ → Option ℕ := fun _ => none
  /-- A message of the partition failed since the partition was last assigned. -/
  stalled : ℕ → Bool := fun _ => false
  history : List (Delivery ρ) := []

inductive SourceEvent (ε : Type) where
  | assign (partition logEnd : ℕ)
  | revoke (partition : ℕ)
  | pollNothing
  | poll (partition offset : ℕ) (answers : ε) (applied : Bool)

abbrev BroadcastTopic := ℕ → ℕ → Option Bytes

namespace SourceState

variable {σ ε ρ : Type} (sender : Sender σ ε ρ)

def pollMessage (topic : BroadcastTopic) (state : SourceState σ ρ) (partition offset : ℕ) :
    Option Bytes :=
  match state.position partition with
  | none => none
  | some position =>
    if position ≤ offset ∧
        ∀ earlier < offset, position ≤ earlier → topic partition earlier = none then
      topic partition offset
    else none

/-- The sender's state and report for a message; an empty one counts as processed without the
sender. -/
def callSender (state : SourceState σ ρ) (answers : ε) (payload : Bytes) : σ × Option ρ :=
  if payload.isEmpty then (state.sender, none)
  else
    let (after, report) := sender.send state.sender answers payload
    (after, some report)

def processed (report : Option ρ) : Bool :=
  report.all fun report => sender.result report != 0

/-- Hand a message to the sender and commit its offset if the sender takes it. -/
def handle (state : SourceState σ ρ) (partition offset : ℕ) (payload : Bytes) (answers : ε)
    (applied : Bool) : SourceState σ ρ :=
  let called := state.callSender sender answers payload
  let done := processed sender called.2
  { sender := called.1
    position := Function.update state.position partition (some (offset + 1))
    committed :=
      if done && applied then Function.update state.committed partition (some (offset + 1))
      else state.committed
    stalled := if done then state.stalled else Function.update state.stalled partition true
    history :=
      { partition, offset, report := called.2, committed := done && applied } :: state.history }

/-- Reading starts at the committed offset, else where the configuration says. -/
def startOffset (reset : AutoOffsetReset) (state : SourceState σ ρ) (partition logEnd : ℕ) : ℕ :=
  match state.committed partition, reset with
  | some committed, _ => committed
  | none, .earliest => 0
  | none, .latest => logEnd

def step (reset : AutoOffsetReset) (topic : BroadcastTopic) (state : SourceState σ ρ) :
    SourceEvent ε → Option (SourceState σ ρ)
  | .assign partition logEnd => some { state with
      position := Function.update state.position partition
        (some (state.startOffset reset partition logEnd))
      stalled := Function.update state.stalled partition false }
  | .revoke partition => some { state with
      position := Function.update state.position partition none }
  | .pollNothing => some state
  | .poll partition offset answers applied =>
    (state.pollMessage topic partition offset).map fun payload =>
      state.handle sender partition offset payload answers applied

end SourceState

section AtLeastOnce

variable {σ ε ρ : Type} (sender : Sender σ ε ρ)

def Sender.results (history : List (Delivery ρ)) (partition offset : ℕ) : List ℕ :=
  history.filterMap fun delivery =>
    if delivery.partition = partition ∧ delivery.offset = offset then
      delivery.report.map sender.result
    else none

namespace SourceState

/-- The sender returned 0 for the message, and has not returned anything else since. -/
def Failed (state : SourceState σ ρ) (partition offset : ℕ) : Prop :=
  (sender.results state.history partition offset).head? = some 0

instance (state : SourceState σ ρ) (partition offset : ℕ) :
    Decidable (state.Failed sender partition offset) := by
  unfold Failed
  infer_instance

/-- No failed message is covered by the committed offset of its partition. -/
def AtLeastOnce (state : SourceState σ ρ) : Prop :=
  ∀ partition offset, state.Failed sender partition offset →
    ∀ committed, state.committed partition = some committed → committed ≤ offset

/-- After a failure in a partition no message of it is committed until the partition is
assigned again, and it is assigned without a committed offset only under `earliest`. -/
def CommitsInOrder (reset : AutoOffsetReset) (topic : BroadcastTopic)
    (state : SourceState σ ρ) : SourceEvent ε → Prop
  | .assign partition _ =>
    state.stalled partition = true → state.committed partition = none → reset = .earliest
  | .revoke _ => True
  | .pollNothing => True
  | .poll partition offset answers applied =>
    state.stalled partition = true → applied = true → ∀ payload ∈ topic partition offset,
      processed sender (state.callSender sender answers payload).2 = false

instance (reset : AutoOffsetReset) (topic : BroadcastTopic) (state : SourceState σ ρ)
    (event : SourceEvent ε) : Decidable (state.CommitsInOrder sender reset topic event) := by
  cases event <;> unfold CommitsInOrder <;> infer_instance

/-- The offset below which nothing has failed: that of the next message, unless a message of the
current assignment has failed. -/
def cleanMark (state : SourceState σ ρ) (partition : ℕ) : ℕ :=
  if state.stalled partition then 0 else (state.position partition).getD 0

def committedMark (state : SourceState σ ρ) (partition : ℕ) : ℕ :=
  (state.committed partition).getD 0

def Clean (topic : BroadcastTopic) (state : SourceState σ ρ) (mark : ℕ → ℕ) : Prop :=
  Below topic mark fun partition offset _ => ¬ state.Failed sender partition offset

structure InOrder (reset : AutoOffsetReset) (topic : BroadcastTopic)
    (state : SourceState σ ρ) : Prop where
  committedClean : state.Clean sender topic state.committedMark
  positionClean : state.Clean sender topic state.cleanMark
  committed_le : ∀ partition position, state.position partition = some position →
    state.committedMark partition ≤ position
  /-- Before the first commit only the current assignment can have failures. -/
  fresh : reset = .latest → ∀ partition, state.committed partition = none →
    state.stalled partition = false → ∀ offset, ¬ state.Failed sender partition offset
  known : ∀ partition offset, state.Failed sender partition offset →
    ∃ payload, topic partition offset = some payload ∧ payload ≠ []

end SourceState

theorem Sender.results_cons (delivery : Delivery ρ) (history : List (Delivery ρ))
    (partition offset : ℕ) :
    sender.results (delivery :: history) partition offset =
      if delivery.partition = partition ∧ delivery.offset = offset then
        (delivery.report.map sender.result).toList ++ sender.results history partition offset
      else sender.results history partition offset := by
  unfold Sender.results
  rw [List.filterMap_cons]
  split
  · next none =>
      split at none
      · next here => rw [if_pos here, none]; rfl
      · next elsewhere => rw [if_neg elsewhere]
  · next some =>
      split at some
      · next here => rw [if_pos here, some]; rfl
      · cases some

namespace SourceState

variable {sender} {reset : AutoOffsetReset} {topic : BroadcastTopic} {state : SourceState σ ρ}
  {partition offset : ℕ} {payload : Bytes} {answers : ε} {applied : Bool}

theorem next_of_pollMessage (polled : state.pollMessage topic partition offset = some payload) :
    ∃ position, state.position partition = some position ∧
      Next topic (fun _ => position) partition offset payload := by
  unfold pollMessage at polled
  split at polled
  · cases polled
  · next position assigned =>
      split at polled
      · next reached => exact ⟨position, assigned, reached.1, reached.2, polled⟩
      · cases polled

theorem handle_of_send {after : σ} {report : ρ} (notEmpty : payload ≠ [])
    (sent : sender.send state.sender answers payload = (after, report)) :
    (state.handle sender partition offset payload answers applied).sender = after ∧
      (state.handle sender partition offset payload answers applied).history =
        { partition, offset, report := some report,
          committed := sender.result report != 0 && applied } :: state.history := by
  simp [handle, callSender, notEmpty, sent, processed]

theorem failed_handle_iff {otherPartition otherOffset : ℕ} :
    (state.handle sender partition offset payload answers applied).Failed sender
        otherPartition otherOffset ↔
      if partition = otherPartition ∧ offset = otherOffset ∧ payload ≠ [] then
        processed sender (state.callSender sender answers payload).2 = false
      else state.Failed sender otherPartition otherOffset := by
  unfold Failed handle
  rw [Sender.results_cons]
  by_cases here : partition = otherPartition ∧ offset = otherOffset
  · by_cases isEmpty : payload = []
    · simp [here, isEmpty, callSender]
    · simp [here, isEmpty, callSender, processed]
  · have elsewhere : ¬ (partition = otherPartition ∧ offset = otherOffset ∧ payload ≠ []) :=
      fun ⟨samePartition, sameOffset, _⟩ => here ⟨samePartition, sameOffset⟩
    rw [if_neg elsewhere, if_neg here]

theorem committed_handle (other : ℕ) :
    (state.handle sender partition offset payload answers applied).committed other =
      if other = partition ∧ processed sender (state.callSender sender answers payload).2 = true ∧
          applied = true then some (offset + 1)
      else state.committed other := by
  simp only [handle, Bool.and_eq_true]
  by_cases commits :
      processed sender (state.callSender sender answers payload).2 = true ∧ applied = true
  · rw [if_pos commits, update_apply]
    simp [commits]
  · rw [if_neg commits, if_neg fun all => commits all.2]

theorem cleanMark_handle (other : ℕ) :
    (state.handle sender partition offset payload answers applied).cleanMark other =
      if other = partition then
        if state.stalled partition = false ∧
            processed sender (state.callSender sender answers payload).2 = true then offset + 1
        else 0
      else state.cleanMark other := by
  by_cases here : other = partition
  · subst here
    cases done : processed sender (state.callSender sender answers payload).2 <;>
      cases stalled : state.stalled other <;> simp [cleanMark, handle, done, stalled]
  · cases done : processed sender (state.callSender sender answers payload).2 <;>
      simp [cleanMark, handle, done, here]

section Handle

variable (inOrder : state.InOrder sender reset topic)
  (polled : state.pollMessage topic partition offset = some payload)
include inOrder polled

theorem failed_of_processed
    (done : processed sender (state.callSender sender answers payload).2 = true)
    {otherPartition otherOffset : ℕ}
    (failed : (state.handle sender partition offset payload answers applied).Failed sender
      otherPartition otherOffset) :
    state.Failed sender otherPartition otherOffset ∧
      ¬ (partition = otherPartition ∧ offset = otherOffset) := by
  rw [failed_handle_iff] at failed
  split at failed
  · rw [done] at failed
    cases failed
  · next elsewhere =>
      refine ⟨failed, ?_⟩
      rintro ⟨rfl, rfl⟩
      rcases next_of_pollMessage polled with ⟨_, _, next⟩
      rcases inOrder.known partition offset failed with ⟨stored, same, notEmpty⟩
      rw [next.present] at same
      cases same
      exact elsewhere ⟨rfl, rfl, notEmpty⟩

theorem known_handle :
    ∀ otherPartition otherOffset,
      (state.handle sender partition offset payload answers applied).Failed sender
        otherPartition otherOffset →
      ∃ stored, topic otherPartition otherOffset = some stored ∧ stored ≠ [] := by
  intro otherPartition otherOffset failed
  rw [failed_handle_iff] at failed
  split at failed
  · next here =>
      rcases here with ⟨rfl, rfl, notEmpty⟩
      rcases next_of_pollMessage polled with ⟨_, _, next⟩
      exact ⟨payload, next.present, notEmpty⟩
  · exact inOrder.known otherPartition otherOffset failed

theorem committed_le_handle :
    ∀ other otherPosition,
      (state.handle sender partition offset payload answers applied).position other =
        some otherPosition →
      (state.handle sender partition offset payload answers applied).committedMark other ≤
        otherPosition := by
  intro other otherPosition otherAssigned
  rcases next_of_pollMessage polled with ⟨position, assigned, next⟩
  have bounded := inOrder.committed_le partition position assigned
  rw [committedMark, committed_handle]
  by_cases same : other = partition
  · subst same
    have moved : offset + 1 = otherPosition := by simpa [handle] using otherAssigned
    split
    · exact moved.le
    · exact bounded.trans (next.reached.trans (by omega))
  · rw [if_neg fun commits => same commits.1]
    simp only [handle, update_of_ne same] at otherAssigned
    exact inOrder.committed_le other otherPosition otherAssigned

theorem clean_of_processed {mark : ℕ → ℕ}
    (done : processed sender (state.callSender sender answers payload).2 = true)
    (clean : state.Clean sender topic mark) :
    (state.handle sender partition offset payload answers applied).Clean sender topic mark :=
  Below.mono clean fun {_ _ _} notFailed failed =>
    notFailed (failed_of_processed inOrder polled done failed).1

theorem clean_advance (done : processed sender (state.callSender sender answers payload).2 = true)
    (notStalled : state.stalled partition = false) :
    (state.handle sender partition offset payload answers applied).Clean sender topic
      (update state.cleanMark partition (offset + 1)) := by
  rcases next_of_pollMessage polled with ⟨position, assigned, next⟩
  have mark : state.cleanMark partition = position := by simp [cleanMark, notStalled, assigned]
  have fromMark : Next topic state.cleanMark partition offset payload :=
    ⟨mark ▸ next.reached, mark ▸ next.skipped, next.present⟩
  refine (clean_of_processed inOrder polled done inOrder.positionClean).advance fromMark ?_
  intro failed
  exact (failed_of_processed inOrder polled done failed).2 ⟨rfl, rfl⟩

theorem inOrder_of_processed
    (done : processed sender (state.callSender sender answers payload).2 = true)
    (orderly : state.stalled partition = true → applied = false) :
    (state.handle sender partition offset payload answers applied).InOrder sender reset topic := by
  constructor
  case committedClean =>
    refine Below.of_forall fun other => ?_
    rw [committedMark, committed_handle]
    split
    · next commits =>
        -- the commit rests on the position, which is not stalled
        rcases commits with ⟨rfl, _, commits⟩
        have notStalled : state.stalled other = false := by
          by_contra stalled
          simp [orderly (by simpa using stalled)] at commits
        exact ⟨_, clean_advance inOrder polled done notStalled, by simp⟩
    · exact ⟨_, clean_of_processed inOrder polled done inOrder.committedClean, le_rfl⟩
  case positionClean =>
    refine Below.of_forall fun other => ?_
    rw [cleanMark_handle]
    split
    · split
      · next here moves =>
          subst here
          exact ⟨_, clean_advance inOrder polled done moves.1, by simp⟩
      · exact ⟨_, clean_of_processed inOrder polled done inOrder.positionClean, Nat.zero_le _⟩
    · exact ⟨_, clean_of_processed inOrder polled done inOrder.positionClean, le_rfl⟩
  case committed_le => exact committed_le_handle inOrder polled
  case fresh =>
    intro latest other notCommitted notStalled otherOffset failed
    refine inOrder.fresh latest other ?_ ?_ otherOffset
      (failed_of_processed inOrder polled done failed).1
    · rw [committed_handle] at notCommitted
      split at notCommitted
      · cases notCommitted
      · exact notCommitted
    · simpa [handle, done] using notStalled
  case known => exact known_handle inOrder polled

theorem inOrder_of_failed
    (notDone : processed sender (state.callSender sender answers payload).2 = false) :
    (state.handle sender partition offset payload answers applied).InOrder sender reset topic := by
  rcases next_of_pollMessage polled with ⟨position, assigned, next⟩
  constructor
  case committedClean =>
    intro other otherOffset stored present below failed
    rw [committedMark, committed_handle, if_neg (by simp [notDone])] at below
    rw [failed_handle_iff] at failed
    split at failed
    · next here =>
        rcases here with ⟨rfl, rfl, _⟩
        -- the failed message lies at the position, which no commit has passed
        have bounded := inOrder.committed_le partition position assigned
        exact absurd (below.trans_le bounded) (not_lt.mpr next.reached)
    · exact inOrder.committedClean present below failed
  case positionClean =>
    intro other otherOffset stored present below failed
    rw [cleanMark_handle] at below
    split at below
    · simp [notDone] at below
    · next elsewhere =>
        rw [failed_handle_iff, if_neg fun here => elsewhere here.1.symm] at failed
        exact inOrder.positionClean present below failed
  case committed_le => exact committed_le_handle inOrder polled
  case fresh =>
    intro latest other notCommitted notStalled otherOffset failed
    have elsewhere : other ≠ partition := by
      rintro rfl
      simp [handle, notDone] at notStalled
    rw [failed_handle_iff, if_neg fun here => elsewhere here.1.symm] at failed
    refine inOrder.fresh latest other ?_ ?_ otherOffset failed
    · simpa [committed_handle, notDone] using notCommitted
    · simpa [handle, notDone, elsewhere] using notStalled
  case known => exact known_handle inOrder polled

end Handle

variable {after : SourceState σ ρ}

theorem inOrder_assign {logEnd : ℕ} (inOrder : state.InOrder sender reset topic)
    (orderly : state.CommitsInOrder sender reset topic (.assign partition logEnd))
    (taken : state.step sender reset topic (.assign partition logEnd) = some after) :
    after.InOrder sender reset topic := by
  cases taken
  have notStalled (latest : reset = .latest) (none : state.committed partition = none) :
      state.stalled partition = false := by
    by_contra stalled
    have earliest := orderly (by simpa using stalled) none
    rw [latest] at earliest
    cases earliest
  constructor
  case committedClean => exact inOrder.committedClean
  case positionClean =>
    intro other offset stored present below failed
    by_cases here : other = partition
    · subst here
      simp only [cleanMark, update_self, Bool.false_eq_true, if_false, Option.getD_some,
        startOffset] at below
      split at below
      · next committed isCommitted =>
          refine inOrder.committedClean present ?_ failed
          simpa [committedMark, isCommitted] using below
      · -- without a commit, `earliest` reads everything again
        exact absurd below (Nat.not_lt_zero offset)
      · next latest =>
          exact inOrder.fresh rfl other latest (notStalled rfl latest) offset failed
    · simp only [cleanMark, update_of_ne here] at below
      exact inOrder.positionClean present below failed
  case committed_le =>
    intro other position assigned
    by_cases here : other = partition
    · subst here
      simp only [update_self, Option.some.injEq, startOffset] at assigned
      subst assigned
      cases committed : state.committed other <;> simp [committedMark, committed]
    · simp only [update_of_ne here] at assigned
      exact inOrder.committed_le other position assigned
  case fresh =>
    intro latest other notCommitted otherNotStalled offset failed
    refine inOrder.fresh latest other notCommitted ?_ offset failed
    by_cases here : other = partition
    · subst here
      exact notStalled latest notCommitted
    · simpa [update_of_ne here] using otherNotStalled
  case known => exact inOrder.known

theorem inOrder_revoke (inOrder : state.InOrder sender reset topic)
    (taken : state.step sender reset topic (.revoke partition) = some after) :
    after.InOrder sender reset topic := by
  cases taken
  refine ⟨inOrder.committedClean, ?_, ?_, inOrder.fresh, inOrder.known⟩
  · intro other offset stored present below failed
    by_cases here : other = partition
    · simp [cleanMark, here] at below
    · simp only [cleanMark, update_of_ne here] at below
      exact inOrder.positionClean present below failed
  · intro other position assigned
    by_cases here : other = partition
    · simp [here] at assigned
    · simp only [update_of_ne here] at assigned
      exact inOrder.committed_le other position assigned

theorem inOrder_step {event : SourceEvent ε}
    (orderly : state.CommitsInOrder sender reset topic event)
    (taken : state.step sender reset topic event = some after)
    (inOrder : state.InOrder sender reset topic) : after.InOrder sender reset topic := by
  cases event with
  | assign partition logEnd => exact inOrder_assign inOrder orderly taken
  | revoke partition => exact inOrder_revoke inOrder taken
  | pollNothing =>
    cases taken
    exact inOrder
  | poll partition offset answers applied =>
    rcases Option.map_eq_some_iff.mp taken with ⟨payload, polled, rfl⟩
    rcases next_of_pollMessage polled with ⟨_, _, next⟩
    cases done : processed sender (state.callSender sender answers payload).2 with
    | false => exact inOrder_of_failed inOrder polled done
    | true =>
      refine inOrder_of_processed inOrder polled done ?_
      intro stalled
      by_contra commits
      have notDone := orderly stalled (by simpa using commits) payload next.present
      rw [done] at notDone
      cases notDone

theorem inOrder_initial (start : σ) :
    ({ sender := start } : SourceState σ ρ).InOrder sender reset topic where
  committedClean := Below.zero
  positionClean := Below.zero
  committed_le _ _ assigned := by cases assigned
  fresh _ _ _ _ _ failed := by cases failed
  known _ _ failed := by cases failed

/-- In every run that commits in order, no failed message is ever covered. -/
theorem atLeastOnce_of_commitsInOrder (start : σ) {events : List (SourceEvent ε)}
    {finish : SourceState σ ρ} (run : Run (SourceState.step sender reset topic)
      (SourceState.CommitsInOrder sender reset topic) { sender := start } events finish) :
    finish.AtLeastOnce sender := by
  have inOrder : finish.InOrder sender reset topic := by
    refine run.invariant (inOrder_initial start) ?_
    intro before after event orderly taken earlier
    exact inOrder_step orderly taken earlier
  intro partition offset failed committed isCommitted
  by_contra covered
  rcases inOrder.known partition offset failed with ⟨payload, present, _⟩
  refine inOrder.committedClean present ?_ failed
  simpa [committedMark, isCommitted] using covered

end SourceState

section SkippedMessage

def anySender : Sender Unit ℕ ℕ where
  send _ result _ := ((), result)
  result := id

def twoMessages : BroadcastTopic := fun partition offset =>
  if partition = 0 ∧ offset < 2 then some [1] else none

/-- The first message fails and is read again; then both are taken. -/
theorem atLeastOnce_reread :
    ∃ finish, Run (SourceState.step anySender .earliest twoMessages)
        (SourceState.CommitsInOrder anySender .earliest twoMessages) { sender := () }
        [.assign 0 0, .poll 0 0 0 true, .assign 0 0, .poll 0 0 1 true, .poll 0 1 1 true] finish ∧
      finish.committed 0 = some 2 ∧ finish.AtLeastOnce anySender := by
  refine Run.exists_of_execute (fun finish => finish.committed 0 == some 2) (by decide) ?_
  intro finish run committed
  exact ⟨beq_iff_eq.mp committed, SourceState.atLeastOnce_of_commitsInOrder () run⟩

/-- The first message fails, the second is taken and its commit covers both. -/
theorem commit_covers_skipped_message :
    ∃ finish, Run (SourceState.step anySender .earliest twoMessages) (fun _ _ => True)
        { sender := () } [.assign 0 0, .poll 0 0 0 true, .poll 0 1 1 true] finish ∧
      finish.Failed anySender 0 0 ∧ finish.committed 0 = some 2 ∧
      ¬ finish.AtLeastOnce anySender := by
  refine Run.exists_of_execute (fun finish =>
    decide (finish.Failed anySender 0 0) && finish.committed 0 == some 2) (by decide) ?_
  intro finish _ facts
  rw [Bool.and_eq_true, decide_eq_true_eq, beq_iff_eq] at facts
  refine ⟨facts.1, facts.2, ?_⟩
  intro atLeastOnce
  exact absurd (atLeastOnce 0 0 facts.1 2 facts.2) (by decide)

end SkippedMessage

end AtLeastOnce

end IotProxy.Proxy
