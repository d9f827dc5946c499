import IotProxy.Myring.TcpServer

/-!
# Half-closed connections

The two sides of a connection end separately. The read side has ended when a receive completes with
no bytes; the write side is shut down on request, when all sends have completed. A connection whose
sides have both ended is finished, and the server has to drop it.

The handlers run one after the other here, with a read closed callback that makes no call of its
own. `writeShutdowns` records every `SHUT_WR` with the number of sends of the connection that have
not completed by then.
-/

namespace IotProxy.Myring

open EventSystem Function

/-- How a call of `send_on_connection` goes on after its first section. -/
inductive SendCall where
  | queued
  | notQueued
  | empty
  deriving DecidableEq

inductive ServerEvent where
  | accept (fd : ℕ)
  | recvCompleted (fd : ℕ) (result : RecvResult) (rearmed : Bool)
  | sendCompleted (fd connection : ℕ) (succeeded : Bool)
  | send (fd : ℕ) (call : SendCall)
  | shutdownWrite (fd : ℕ)
  | shutdown (fd : ℕ)
  deriving DecidableEq

structure ServerState where
  server : TcpServer := {}
  accepted : ℕ := 0
  sends : List (ℕ × ℕ) := []
  /-- The connections whose write side was shut down, each with its uncompleted sends. -/
  writeShutdowns : List (ℕ × ℕ) := []

namespace ServerState

def uncompleted (state : ServerState) (connection : ℕ) : ℕ :=
  state.sends.countP (·.2 = connection)

def shutdowns (state : ServerState) (connection : ℕ) : ℕ :=
  state.writeShutdowns.countP (·.1 = connection)

def finishWrite (state : ServerState) : TcpServer × Option SendOutcome → ServerState
  | (server, none) => { state with server }
  | (server, some outcome) =>
    if outcome.shouldShutdownWrite then
      { state with
        server
        writeShutdowns :=
          (outcome.connection, state.uncompleted outcome.connection) :: state.writeShutdowns }
    else { state with server }

def shutdown (state : ServerState) (fd : ℕ) : ServerState :=
  { state with server := (state.server.shutdown fd).1 }

def recvCompleted (state : ServerState) (fd : ℕ) (result : RecvResult) (rearmed : Bool) :
    ServerState :=
  match state.server.handleRecv fd result with
  | (server, none) => { state with server }
  | (server, some outcome) =>
    let state := { state with server }
    if outcome.shouldDisconnect || outcome.shouldNotifyReadClosed then state
    else if server.connected outcome.connection && !rearmed then state.shutdown fd
    else state

def send (state : ServerState) (fd : ℕ) (call : SendCall) : ServerState :=
  match state.server.beginSend fd with
  | (server, none) => { state with server }
  | (server, some connection) =>
    match call with
    | .queued => { state with server, sends := (fd, connection) :: state.sends }
    | .notQueued => { state with server := server.cancelSend fd }.shutdown fd
    | .empty => { state with server }

/-- A descriptor can be accepted when it is not in use, and a send completes once. -/
def step (state : ServerState) : ServerEvent → Option ServerState
  | .accept fd =>
    if state.server.connections fd = none then
      some { state with
        server := state.server.register fd state.accepted
        accepted := state.accepted + 1 }
    else none
  | .recvCompleted fd result rearmed => some (state.recvCompleted fd result rearmed)
  | .sendCompleted fd connection succeeded =>
    if (fd, connection) ∈ state.sends then
      let state := { state with sends := state.sends.erase (fd, connection) }
      some (state.finishWrite (state.server.handleSend fd succeeded))
    else none
  | .send fd call => some (state.send fd call)
  | .shutdownWrite fd => some (state.finishWrite (state.server.shutdownWrite fd))
  | .shutdown fd => some (state.shutdown fd)

/-- No read side ends after its write side has been shut down, and a descriptor is not used again
while sends on it have not completed. -/
def ReadEndsFirst (state : ServerState) : ServerEvent → Prop
  | .accept fd => ∀ send ∈ state.sends, send.1 ≠ fd
  | .recvCompleted fd .ended _ =>
    ∀ entry ∈ state.server.connections fd, entry.writeClosed = false
  | _ => True

instance (state : ServerState) (event : ServerEvent) :
    Decidable (state.ReadEndsFirst event) := by
  unfold ReadEndsFirst
  split <;> infer_instance

structure Tracked (state : ServerState) (fd : ℕ) (entry : ConnectionState) : Prop where
  known : entry.connection < state.accepted
  sendsHere : ∀ send ∈ state.sends, send.1 = fd ↔ send.2 = entry.connection
  counted : state.uncompleted entry.connection ≤ entry.pendingSends
  notYet : entry.writeClosed = false → state.shutdowns entry.connection = 0
  unfinished : entry.readClosed = true → entry.writeClosed = false

structure Invariant (state : ServerState) : Prop where
  tracked : ∀ ⦃fd entry⦄, state.server.connections fd = some entry → state.Tracked fd entry
  distinct : ∀ ⦃fd fd' entry entry'⦄, state.server.connections fd = some entry →
    state.server.connections fd' = some entry' → entry.connection = entry'.connection → fd = fd'
  sendsKnown : ∀ send ∈ state.sends, send.2 < state.accepted
  shutdownsKnown : ∀ entry ∈ state.writeShutdowns, entry.1 < state.accepted
  once : ∀ connection, state.shutdowns connection ≤ 1
  afterSends : ∀ entry ∈ state.writeShutdowns, entry.2 = 0

namespace Invariant

variable {state : ServerState} {fd : ℕ} {entry entry' : ConnectionState}

theorem erase (invariant : state.Invariant) (connection : ℕ) :
    Invariant { state with server := state.server.erase fd connection } := by
  have kept : ∀ ⦃other found⦄, update state.server.connections fd none other = some found →
      state.server.connections other = some found := by
    intro other found present
    by_cases same : other = fd
    · simp [same] at present
    · simpa [same] using present
  refine ⟨?_, ?_, invariant.sendsKnown, invariant.shutdownsKnown, invariant.once,
    invariant.afterSends⟩
  · intro other found present
    have tracked := invariant.tracked (kept present)
    exact ⟨tracked.known, tracked.sendsHere, tracked.counted, tracked.notYet, tracked.unfinished⟩
  · intro left right found found' present present'
    exact invariant.distinct (kept present) (kept present')

theorem setState (invariant : state.Invariant) (found : state.server.connections fd = some entry)
    (tracked : state.Tracked fd entry') (same : entry'.connection = entry.connection) :
    Invariant { state with server := state.server.setState fd entry' } := by
  have traced : ∀ ⦃other present⦄,
      update state.server.connections fd (some entry') other = some present →
      ∃ before, state.server.connections other = some before ∧
        before.connection = present.connection ∧ state.Tracked other present := by
    intro other present isPresent
    by_cases here : other = fd
    · subst here
      simp only [update_self, Option.some.injEq] at isPresent
      subst isPresent
      exact ⟨entry, found, same.symm, tracked⟩
    · simp only [update_of_ne here] at isPresent
      exact ⟨present, isPresent, rfl, invariant.tracked isPresent⟩
  refine ⟨?_, ?_, invariant.sendsKnown, invariant.shutdownsKnown, invariant.once,
    invariant.afterSends⟩
  · intro other present isPresent
    rcases traced isPresent with ⟨_, _, _, tracked⟩
    exact ⟨tracked.known, tracked.sendsHere, tracked.counted, tracked.notYet, tracked.unfinished⟩
  · intro left right present present' isPresent isPresent' sameConnection
    rcases traced isPresent with ⟨before, found, sameBefore, _⟩
    rcases traced isPresent' with ⟨before', found', sameBefore', _⟩
    exact invariant.distinct found found'
      (sameBefore.trans (sameConnection.trans sameBefore'.symm))

theorem log (invariant : state.Invariant) {connection : ℕ} (known : connection < state.accepted)
    (allSent : state.uncompleted connection = 0) (first : state.shutdowns connection = 0)
    (closed : ∀ ⦃other present⦄, state.server.connections other = some present →
      present.connection = connection → present.writeClosed = true) :
    Invariant { state with
      writeShutdowns := (connection, state.uncompleted connection) :: state.writeShutdowns } := by
  refine ⟨?_, invariant.distinct, invariant.sendsKnown, ?_, ?_, ?_⟩
  · intro other present isPresent
    have tracked := invariant.tracked isPresent
    refine ⟨tracked.known, tracked.sendsHere, tracked.counted, ?_, tracked.unfinished⟩
    intro notClosed
    have different : connection ≠ present.connection := by
      intro same
      simp [closed isPresent same.symm] at notClosed
    simpa [shutdowns, different] using tracked.notYet notClosed
  · simpa [known] using invariant.shutdownsKnown
  · intro other
    by_cases same : connection = other
    · subst same
      simpa [shutdowns] using first
    · simpa [shutdowns, same] using invariant.once other
  · simpa [allSent] using invariant.afterSends

theorem closeWrite (invariant : state.Invariant)
    (found : state.server.connections fd = some entry) (notClosed : entry.writeClosed = false)
    (allSent : state.uncompleted entry.connection = 0) (requested : Bool) (pending : ℕ) :
    let closing := { entry with writeShutdownRequested := requested, pendingSends := pending }
    (state.finishWrite ((state.server.closeWrite fd closing).1,
      some (state.server.closeWrite fd closing).2)).Invariant := by
  intro closing
  have tracked := invariant.tracked found
  have first := tracked.notYet notClosed
  simp only [TcpServer.closeWrite]
  split
  · next readClosed =>
      apply (invariant.erase entry.connection).log tracked.known allSent first
      intro other present isPresent sameConnection
      by_cases here : other = fd
      · simp [TcpServer.erase, here] at isPresent
      · simp only [TcpServer.erase, update_of_ne here] at isPresent
        exact absurd (invariant.distinct isPresent found sameConnection) here
  · next readOpen =>
      have closes : state.Tracked fd { closing with writeClosed := true } := by
        refine ⟨tracked.known, tracked.sendsHere, ?_, by simp, fun read => absurd read readOpen⟩
        simp [closing, allSent]
      apply (invariant.setState found closes rfl).log tracked.known allSent first
      intro other present isPresent sameConnection
      by_cases here : other = fd
      · simp only [TcpServer.setState, here, update_self, Option.some.injEq] at isPresent
        simp [← isPresent]
      · simp only [TcpServer.setState, update_of_ne here] at isPresent
        exact absurd (invariant.distinct isPresent found sameConnection) here

theorem shutdown (invariant : state.Invariant) (fd : ℕ) : (state.shutdown fd).Invariant := by
  simp only [ServerState.shutdown, TcpServer.shutdown]
  split
  · exact invariant
  · exact invariant.erase _

theorem accept (invariant : state.Invariant) (free : state.server.connections fd = none)
    (unused : ∀ send ∈ state.sends, send.1 ≠ fd) :
    Invariant { state with
      server := state.server.register fd state.accepted
      accepted := state.accepted + 1 } := by
  have traced : ∀ ⦃other present⦄,
      update state.server.connections fd (some { connection := state.accepted }) other =
        some present →
      (other = fd ∧ present = { connection := state.accepted }) ∨
        state.server.connections other = some present := by
    intro other present isPresent
    by_cases here : other = fd
    · simp only [here, update_self, Option.some.injEq] at isPresent
      exact .inl ⟨here, isPresent.symm⟩
    · exact .inr (by simpa [here] using isPresent)
  have noSends : state.uncompleted state.accepted = 0 := by
    simp only [uncompleted, List.countP_eq_zero, decide_eq_true_eq]
    intro send mem
    exact (invariant.sendsKnown send mem).ne
  have noShutdowns : state.shutdowns state.accepted = 0 := by
    simp only [shutdowns, List.countP_eq_zero, decide_eq_true_eq]
    intro entry mem
    exact (invariant.shutdownsKnown entry mem).ne
  refine ⟨?_, ?_, ?_, ?_, invariant.once, invariant.afterSends⟩
  · intro other present isPresent
    rcases traced isPresent with ⟨rfl, rfl⟩ | before
    · refine ⟨by simp, ?_, noSends.le, fun _ => noShutdowns, by simp⟩
      intro send mem
      exact iff_of_false (unused send mem) (invariant.sendsKnown send mem).ne
    · have tracked := invariant.tracked before
      exact ⟨Nat.lt_succ_of_lt tracked.known, tracked.sendsHere, tracked.counted, tracked.notYet,
        tracked.unfinished⟩
  · intro left right present present' isPresent isPresent' sameConnection
    rcases traced isPresent with ⟨rfl, rfl⟩ | before
    · rcases traced isPresent' with ⟨rfl, rfl⟩ | before'
      · rfl
      · exact absurd sameConnection.symm (invariant.tracked before').known.ne
    · rcases traced isPresent' with ⟨rfl, rfl⟩ | before'
      · exact absurd sameConnection (invariant.tracked before).known.ne
      · exact invariant.distinct before before' sameConnection
  · intro send mem
    exact Nat.lt_succ_of_lt (invariant.sendsKnown send mem)
  · intro entry mem
    exact Nat.lt_succ_of_lt (invariant.shutdownsKnown entry mem)

theorem recvCompleted {result : RecvResult} {rearmed : Bool} (invariant : state.Invariant)
    (first : state.ReadEndsFirst (.recvCompleted fd result rearmed)) :
    (state.recvCompleted fd result rearmed).Invariant := by
  unfold ServerState.recvCompleted TcpServer.handleRecv
  cases found : state.server.connections fd with
  | none => exact invariant
  | some entry =>
    cases result with
    | data bytes =>
      simp only [Bool.or_self, Bool.false_eq_true, if_false]
      split
      · exact invariant.shutdown fd
      · exact invariant
    | ended =>
      by_cases already : entry.readClosed = true
      · simp only [already, if_true, Bool.or_self, Bool.false_eq_true, if_false]
        split
        · exact invariant.shutdown fd
        · exact invariant
      · have tracked := invariant.tracked found
        have writeOpen : entry.writeClosed = false := first entry found
        simp only [already, Bool.false_eq_true, if_false, Bool.or_true, if_true]
        exact invariant.setState found
          ⟨tracked.known, tracked.sendsHere, tracked.counted, tracked.notYet,
            fun _ => writeOpen⟩ rfl
    | failed => exact invariant.erase entry.connection

theorem eraseSend (invariant : state.Invariant) (send : ℕ × ℕ) :
    Invariant { state with sends := state.sends.erase send } := by
  have fewer (connection : ℕ) : (state.sends.erase send).countP (·.2 = connection) ≤
      state.sends.countP (·.2 = connection) :=
    List.erase_sublist.countP_le
  refine ⟨?_, invariant.distinct, ?_, invariant.shutdownsKnown, invariant.once,
    invariant.afterSends⟩
  · intro other present isPresent
    have tracked := invariant.tracked isPresent
    refine ⟨tracked.known, ?_, (fewer _).trans tracked.counted, tracked.notYet, tracked.unfinished⟩
    intro left mem
    exact tracked.sendsHere left (List.mem_of_mem_erase mem)
  · intro left mem
    exact invariant.sendsKnown left (List.mem_of_mem_erase mem)

theorem sendCompleted {connection : ℕ} (invariant : state.Invariant)
    (mem : (fd, connection) ∈ state.sends) (succeeded : Bool) :
    ({ state with sends := state.sends.erase (fd, connection) }.finishWrite
      (state.server.handleSend fd succeeded)).Invariant := by
  have erased := invariant.eraseSend (fd, connection)
  unfold TcpServer.handleSend
  cases found : state.server.connections fd with
  | none => exact erased
  | some entry =>
    have tracked := invariant.tracked found
    -- the send is one of the connection that the handler finds
    have own : connection = entry.connection := (tracked.sendsHere _ mem).mp rfl
    subst own
    have counted : (state.sends.erase (fd, entry.connection)).countP (·.2 = entry.connection) ≤
        entry.pendingSends - 1 := by
      have before := tracked.counted
      have once := List.countP_erase (fun send : ℕ × ℕ => decide (send.2 = entry.connection))
        state.sends (fd, entry.connection)
      simp only [mem, decide_true, and_self, if_true] at once
      unfold uncompleted at before
      omega
    simp only
    split
    · exact erased.erase entry.connection
    · split
      · next closes =>
          simp only [Bool.and_eq_true, decide_eq_true_eq, Bool.not_eq_true'] at closes
          apply erased.closeWrite found closes.2
          exact Nat.le_zero.mp (closes.1.2 ▸ counted)
      · exact erased.setState found
          ⟨tracked.known, (erased.tracked found).sendsHere, counted, tracked.notYet,
            tracked.unfinished⟩ rfl

theorem addSend (invariant : state.Invariant) (found : state.server.connections fd = some entry)
    (counted : state.uncompleted entry.connection < entry.pendingSends) :
    Invariant { state with sends := (fd, entry.connection) :: state.sends } := by
  refine ⟨?_, invariant.distinct, ?_, invariant.shutdownsKnown, invariant.once,
    invariant.afterSends⟩
  · intro other present isPresent
    have tracked := invariant.tracked isPresent
    by_cases here : other = fd
    · subst here
      rw [found] at isPresent
      cases isPresent
      refine ⟨tracked.known, ?_, ?_, tracked.notYet, tracked.unfinished⟩
      · simpa using tracked.sendsHere
      · simpa [uncompleted] using counted
    · have different : entry.connection ≠ present.connection :=
        fun same => here (invariant.distinct isPresent found same.symm)
      refine ⟨tracked.known, ?_, ?_, tracked.notYet, tracked.unfinished⟩
      · simpa [Ne.symm here, different] using tracked.sendsHere
      · simpa [uncompleted, different] using tracked.counted
  · simpa [(invariant.tracked found).known] using invariant.sendsKnown

theorem send (invariant : state.Invariant) (fd : ℕ) (call : SendCall) :
    (state.send fd call).Invariant := by
  unfold ServerState.send TcpServer.beginSend
  cases found : state.server.connections fd with
  | none => exact invariant
  | some entry =>
    have tracked := invariant.tracked found
    by_cases live : state.server.connected entry.connection = true
    · have counting : state.Tracked fd { entry with pendingSends := entry.pendingSends + 1 } :=
        ⟨tracked.known, tracked.sendsHere, Nat.le_succ_of_le tracked.counted, tracked.notYet,
          tracked.unfinished⟩
      have begun := invariant.setState found counting rfl
      have here : (state.server.setState fd
          { entry with pendingSends := entry.pendingSends + 1 }).connections fd =
            some { entry with pendingSends := entry.pendingSends + 1 } := by
        simp [TcpServer.setState]
      simp only [live, if_true]
      cases call with
      | queued =>
        have added := begun.addSend here (Nat.lt_succ_of_le tracked.counted)
        exact added
      | notQueued =>
        apply shutdown
        unfold TcpServer.cancelSend
        rw [here]
        exact begun.setState here
          ⟨tracked.known, tracked.sendsHere, tracked.counted, tracked.notYet,
            tracked.unfinished⟩ rfl
      | empty => exact begun
    · simpa [live] using invariant

theorem shutdownWrite (invariant : state.Invariant) (fd : ℕ) :
    (state.finishWrite (state.server.shutdownWrite fd)).Invariant := by
  unfold TcpServer.shutdownWrite
  cases found : state.server.connections fd with
  | none => exact invariant
  | some entry =>
    have tracked := invariant.tracked found
    simp only
    split
    · exact invariant
    · next refused =>
        simp only [Bool.or_eq_true, Bool.not_eq_true', not_or, Bool.not_eq_true] at refused
        split
        · next allSent =>
            apply invariant.closeWrite found refused.2
            exact Nat.le_zero.mp (allSent ▸ tracked.counted)
        · exact invariant.setState found
            ⟨tracked.known, tracked.sendsHere, tracked.counted, tracked.notYet,
              tracked.unfinished⟩ rfl

theorem initial : Invariant {} where
  tracked := by simp
  distinct := by simp
  sendsKnown := by simp
  shutdownsKnown := by simp
  once := by simp [shutdowns]
  afterSends := by simp

theorem step {event : ServerEvent} {after : ServerState} (first : state.ReadEndsFirst event)
    (taken : state.step event = some after) (invariant : state.Invariant) : after.Invariant := by
  cases event with
  | accept fd =>
    simp only [ServerState.step, Option.ite_none_right_eq_some, Option.some.injEq] at taken
    rcases taken with ⟨free, rfl⟩
    exact invariant.accept free first
  | recvCompleted fd result rearmed =>
    cases taken
    exact invariant.recvCompleted first
  | sendCompleted fd connection succeeded =>
    simp only [ServerState.step, Option.ite_none_right_eq_some, Option.some.injEq] at taken
    rcases taken with ⟨mem, rfl⟩
    exact invariant.sendCompleted mem succeeded
  | send fd call =>
    cases taken
    exact invariant.send fd call
  | shutdownWrite fd =>
    cases taken
    exact invariant.shutdownWrite fd
  | shutdown fd =>
    cases taken
    exact invariant.shutdown fd

end Invariant

end ServerState

/-- In every run in which read sides end first, a write side is shut down at most once and after all
sends of the connection, and no finished connection is kept. -/
theorem halfClose_of_readEndsFirst {events : List ServerEvent} {finish : ServerState}
    (run : Run ServerState.step ServerState.ReadEndsFirst {} events finish) :
    (∀ connection, finish.shutdowns connection ≤ 1) ∧
      (∀ entry ∈ finish.writeShutdowns, entry.2 = 0) ∧
      ∀ fd entry, finish.server.connections fd = some entry →
        ¬ (entry.readClosed = true ∧ entry.writeClosed = true) := by
  have invariant : finish.Invariant := by
    apply run.invariant ServerState.Invariant.initial
    intro before after event first taken earlier
    exact earlier.step first taken
  refine ⟨invariant.once, invariant.afterSends, ?_⟩
  rintro fd entry found ⟨readClosed, writeClosed⟩
  have writeOpen := (invariant.tracked found).unfinished readClosed
  rw [writeClosed] at writeOpen
  cases writeOpen

/-- The peer ends first, the answer is sent, and then the write side is shut down. -/
theorem peer_ends_first : ∃ finish, Run ServerState.step ServerState.ReadEndsFirst {}
      [.accept 5, .recvCompleted 5 (.data [1]) true, .recvCompleted 5 .ended false,
        .send 5 .queued, .shutdownWrite 5, .sendCompleted 5 0 true] finish ∧
    finish.writeShutdowns = [(0, 0)] ∧ finish.server.connections 5 = none ∧
    finish.shutdowns 0 ≤ 1 := by
  apply Run.exists_of_execute fun finish =>
    finish.writeShutdowns == [(0, 0)] && finish.server.connections 5 == none
  · decide +kernel
  · intro finish run facts
    simp only [Bool.and_eq_true, beq_iff_eq] at facts
    exact ⟨facts.1, facts.2, (halfClose_of_readEndsFirst run).1 0⟩

/-- The write side is shut down first. When the peer ends, the finished connection stays in the
table. -/
theorem finished_connection_kept : ∃ finish, Run ServerState.step (fun _ _ => True) {}
      [.accept 5, .shutdownWrite 5, .recvCompleted 5 .ended false] finish ∧
    ∃ entry, finish.server.connections 5 = some entry ∧ entry.readClosed = true ∧
      entry.writeClosed = true := by
  apply Run.exists_of_execute fun finish =>
    (finish.server.connections 5).any fun entry => entry.readClosed && entry.writeClosed
  · decide +kernel
  · intro finish _ facts
    simpa [Option.any_eq_true] using facts

end IotProxy.Myring
