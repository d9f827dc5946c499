import IotProxy.Proxy.ConcurrentIngress

/-!
# Reuse of descriptors

Every section of the server finds its connection by the descriptor. If nothing of a connection is
left when its descriptor is given away, it finds the connection that was meant.
-/

namespace IotProxy.Proxy

open EventSystem Interleaving Shared Multiset Option Function
open IotProxy.Myring (ConnectionState TcpServer RecvResult)

variable {fd : ℕ} {before : ConnectionState}

namespace Shared

variable (shared : Shared)

def entry (connection : ℕ) : Option ConnectionState :=
  (shared.server.connections (shared.fdOf connection)).filter (·.connection = connection)

def Current (connection : ℕ) : Prop :=
  connection < shared.accepted ∧ ∀ later, connection < later → later < shared.accepted →
    shared.fdOf later ≠ shared.fdOf connection

variable {shared} {connection : ℕ} {state : ConnectionState}

theorem entry_eq_some : shared.entry connection = some state ↔
    shared.server.connections (shared.fdOf connection) = some state ∧
      state.connection = connection := by
  simp [entry, filter_eq_some_iff]

theorem Current.eq {other : ℕ} (current : shared.Current connection)
    (otherCurrent : shared.Current other) (same : shared.fdOf connection = shared.fdOf other) :
    connection = other := by
  rcases Nat.lt_trichotomy connection other with before | equal | after
  · exact absurd same.symm (current.2 other before otherCurrent.1)
  · exact equal
  · exact absurd same (otherCurrent.2 connection after current.1)

theorem fdOf_accept (known : connection < shared.accepted) (fd : ℕ) :
    (shared.accept fd).fdOf connection = shared.fdOf connection := by
  simp [accept, known.ne]

theorem Current.accept (current : shared.Current connection)
    (different : shared.fdOf connection ≠ fd) : (shared.accept fd).Current connection := by
  refine ⟨Nat.lt_succ_of_lt current.1, ?_⟩
  intro later after known
  rw [fdOf_accept current.1]
  rcases Nat.lt_succ_iff_lt_or_eq.mp known with before | rfl
  · rw [fdOf_accept before]
    exact current.2 later after before
  · simpa [Shared.accept] using different.symm

theorem entry_setState {after : ConnectionState}
    (found : shared.entry connection = some before) (same : after.connection = connection)
    (other : ℕ) :
    ({ shared with server := shared.server.setState (shared.fdOf connection) after }).entry other =
      if other = connection then some after else shared.entry other := by
  rcases entry_eq_some.mp found with ⟨present, isOwn⟩
  by_cases isSame : other = connection
  · subst isSame
    simp [entry, TcpServer.setState, same]
  · by_cases here : shared.fdOf other = shared.fdOf connection
    · simp [entry, TcpServer.setState, here, present, isSame, same, isOwn, Ne.symm isSame,
        filter_some]
    · simp [entry, TcpServer.setState, here, isSame]

theorem entry_erase (found : shared.entry connection = some before) (other : ℕ) :
    ({ shared with server := shared.server.erase (shared.fdOf connection) connection }).entry
        other = if other = connection then none else shared.entry other := by
  rcases entry_eq_some.mp found with ⟨present, isOwn⟩
  by_cases isSame : other = connection
  · subst isSame
    simp [entry, TcpServer.erase]
  · by_cases here : shared.fdOf other = shared.fdOf connection
    · simp [entry, TcpServer.erase, here, present, isSame, isOwn, Ne.symm isSame, filter_some]
    · simp [entry, TcpServer.erase, here, isSame]

end Shared

/-- The tasks that neither begin nor end a stream. -/
def Task.plain : Task → Bool
  | .handleData _ | .checkConnected | .rearmRecv | .pushRecv | .send | .sendOnConnection
  | .pushSend | .cancelSend | .shutdownWriteConnection | .shutdownConnection => true
  | _ => false

theorem Task.ne_closeSocket_of_plain {task : Task} (plain : task.plain = true) :
    task ≠ .closeSocket := by
  rintro rfl
  cases plain

/-- What a section of the server does for a connection whose entry it finds: it leaves the entry, or
changes it, or notes the end of the read side, or takes it out. -/
inductive Touched (shared : Shared) (connection : ℕ) : Shared × List Action → Prop where
  | kept {recvs sends : List ℕ} {more : List Action}
      (received : recvs ⊆ connection :: shared.recvs) (sent : sends ⊆ connection :: shared.sends)
      (plain : ∀ action ∈ more, action.connection = connection ∧ action.task.plain = true) :
      Touched shared connection ({ shared with recvs, sends }, more)
  | updated {before after : ConnectionState} {more : List Action}
      (found : shared.entry connection = some before) (same : after.connection = connection)
      (read : after.readClosed = before.readClosed)
      (plain : ∀ action ∈ more, action.connection = connection ∧ action.task.plain = true) :
      Touched shared connection
        ({ shared with server := shared.server.setState (shared.fdOf connection) after }, more)
  | ended {before after : ConnectionState} (found : shared.entry connection = some before)
      (same : after.connection = connection) (read : after.readClosed = true) :
      Touched shared connection
        ({ shared with server := shared.server.setState (shared.fdOf connection) after },
          [⟨connection, .handleReadClosed⟩])
  | taken {before : ConnectionState} (found : shared.entry connection = some before) :
      Touched shared connection
        ({ shared with server := shared.server.erase (shared.fdOf connection) connection },
          Shared.disconnect connection connection)

variable {config : TcpIngressConfig} {made : Bool}

theorem Touched.unchanged {shared : Shared} {connection : ℕ} :
    Touched shared connection (shared, []) :=
  .kept (by simp) (by simp) (by simp)

namespace Shared

variable {shared : Shared} {connection : ℕ}
  (own : ∀ state, shared.server.connections (shared.fdOf connection) = some state →
    state.connection = connection)

include own

theorem touched_recvCompleted (result : RecvResult) :
    Touched shared connection (shared.recvCompleted connection result) := by
  unfold recvCompleted TcpServer.handleRecv
  cases found : shared.server.connections (shared.fdOf connection) with
  | none => exact .unchanged
  | some state =>
    have isOwn := own state found
    have isEntry : shared.entry connection = some state := entry_eq_some.mpr ⟨found, isOwn⟩
    cases result with
    | data bytes => exact .kept (by simp) (by simp) (by simp [isOwn, Task.plain])
    | ended =>
      by_cases already : state.readClosed = true
      · simp only [already, if_true, Bool.false_eq_true, if_false]
        exact .kept (by simp) (by simp) (by simp [isOwn, Task.plain])
      · simp only [already, if_false, Bool.false_eq_true, if_true]
        rw [isOwn]
        exact .ended isEntry rfl rfl
    | failed =>
      simp only [if_true, isOwn]
      exact .taken isEntry

theorem touched_closeWrite {state : ConnectionState} (requested : Bool) (pending : ℕ)
    (found : shared.server.connections (shared.fdOf connection) = some state) :
    let closing := { state with writeShutdownRequested := requested, pendingSends := pending }
    let closed := shared.server.closeWrite (shared.fdOf connection) closing
    Touched shared connection (shared.finishWrite connection (closed.1, some closed.2)) := by
  intro closing closed
  have isOwn := own state found
  have isEntry : shared.entry connection = some state := entry_eq_some.mpr ⟨found, isOwn⟩
  simp only [closed, closing, finishWrite, TcpServer.closeWrite]
  split
  · simp only [if_true, isOwn]
    exact .taken isEntry
  · exact .updated isEntry isOwn rfl (by simp)

theorem touched_sendCompleted (succeeded : Bool) :
    Touched shared connection (shared.sendCompleted connection succeeded) := by
  unfold sendCompleted TcpServer.handleSend
  cases found : shared.server.connections (shared.fdOf connection) with
  | none => exact .unchanged
  | some state =>
    have isOwn := own state found
    have isEntry : shared.entry connection = some state := entry_eq_some.mpr ⟨found, isOwn⟩
    cases succeeded with
    | false =>
      simp only [Bool.not_false, if_true, finishWrite, isOwn]
      exact .taken isEntry
    | true =>
      simp only [Bool.not_true, Bool.false_eq_true, if_false]
      split
      · exact touched_closeWrite own _ _ found
      · exact .updated isEntry isOwn rfl (by simp)

theorem touched_shutdownWrite :
    Touched shared connection (shared.finishWrite connection
      (shared.server.shutdownWrite (shared.fdOf connection))) := by
  unfold TcpServer.shutdownWrite
  cases found : shared.server.connections (shared.fdOf connection) with
  | none => exact .unchanged
  | some state =>
    have isOwn := own state found
    have isEntry : shared.entry connection = some state := entry_eq_some.mpr ⟨found, isOwn⟩
    simp only
    split
    · exact .unchanged
    · split
      · exact touched_closeWrite own _ _ found
      · exact .updated isEntry isOwn rfl (by simp)

theorem touched_act {task : Task}
    (plain : task.plain = true) (noData : ∀ data, task ≠ .handleData data) :
    Touched shared connection (shared.act config made ⟨connection, task⟩) := by
  cases task <;> simp only [Task.plain, Bool.false_eq_true] at plain
  case handleData data => exact absurd rfl (noData data)
  case checkConnected =>
    apply Touched.kept (by simp) (by simp)
    split <;> simp [Task.plain]
  case rearmRecv =>
    cases found : shared.server.connections (shared.fdOf connection) with
    | none => simpa only [act, found] using .unchanged
    | some state =>
      simp only [act, found]
      exact .kept (by simp) (by simp) (by simp [own state found, Task.plain])
  case pushRecv =>
    cases made with
    | true => exact .kept (by simp) (by simp) (by simp)
    | false => exact .kept (by simp) (by simp) (by simp [Task.plain])
  case send =>
    apply Touched.kept (by simp) (by simp)
    split <;> simp [Task.plain]
  case sendOnConnection =>
    simp only [act, TcpServer.beginSend]
    cases found : shared.server.connections (shared.fdOf connection) with
    | none => exact .unchanged
    | some state =>
      have isOwn := own state found
      by_cases live : shared.server.connected state.connection = true
      · simp only [live, if_true]
        exact .updated (entry_eq_some.mpr ⟨found, isOwn⟩) isOwn rfl (by simp [isOwn, Task.plain])
      · simp only [live]
        exact .unchanged
  case pushSend =>
    cases made with
    | true => exact .kept (by simp) (by simp) (by simp)
    | false => exact .kept (by simp) (by simp) (by simp [Task.plain])
  case cancelSend =>
    simp only [act, TcpServer.cancelSend]
    cases found : shared.server.connections (shared.fdOf connection) with
    | none => exact .unchanged
    | some state =>
      have isOwn := own state found
      exact .updated (entry_eq_some.mpr ⟨found, isOwn⟩) isOwn rfl (by simp)
  case shutdownWriteConnection => exact touched_shutdownWrite own
  case shutdownConnection =>
    simp only [act, TcpServer.shutdown]
    cases found : shared.server.connections (shared.fdOf connection) with
    | none => exact .unchanged
    | some state =>
      have isOwn := own state found
      simp only [isOwn]
      exact .taken (entry_eq_some.mpr ⟨found, isOwn⟩)

end Shared

/-- Everything that is in progress belongs to the connection that holds its descriptor. -/
structure Held (shared : Shared) (pending : Multiset Action) : Prop where
  current : ∀ action ∈ pending, shared.Current action.connection
  entries : ∀ ⦃fd state⦄, shared.server.connections fd = some state →
    shared.fdOf state.connection = fd ∧ shared.Current state.connection ∧ shared.sockets fd = true
  closing : ∀ ⦃connection⦄, ⟨connection, .closeSocket⟩ ∈ pending →
    shared.server.connections (shared.fdOf connection) = none
  live : ∀ connection, shared.server.connected connection = (shared.entry connection).isSome

variable {shared : Shared} {connection : ℕ}

theorem Touched.connections_of_ne
    {next : Shared × List Action} (touches : Touched shared connection next)
    (other : fd ≠ shared.fdOf connection) :
    next.1.server.connections fd = shared.server.connections fd := by
  cases touches with
  | kept => rfl
  | updated | ended => simp [TcpServer.setState, other]
  | taken => simp [TcpServer.erase, other]

namespace Held

variable {shared : Shared} {pending others : Multiset Action} {connection : ℕ}

theorem own (held : Held shared pending) (current : shared.Current connection)
    (state : ConnectionState)
    (found : shared.server.connections (shared.fdOf connection) = some state) :
    state.connection = connection := by
  obtain ⟨sameFd, isCurrent, _⟩ := held.entries found
  exact isCurrent.eq current sameFd

theorem current_of_connected (held : Held shared pending)
    (connected : shared.server.connected connection = true) : shared.Current connection := by
  rw [held.live] at connected
  rcases isSome_iff_exists.mp connected with ⟨state, isEntry⟩
  rcases entry_eq_some.mp isEntry with ⟨found, isOwn⟩
  exact isOwn ▸ (held.entries found).2.1

theorem initial : Held {} 0 where
  current := by simp
  entries := by simp
  closing := by simp
  live := by simp [Shared.entry]

theorem mono (held : Held shared pending) (fewer : others ≤ pending) : Held shared others where
  current action mem := held.current action (mem_of_le fewer mem)
  entries := held.entries
  closing _ mem := held.closing (mem_of_le fewer mem)
  live := held.live

theorem add {more : List Action} (held : Held shared pending) (current : shared.Current connection)
    (ofConnection : ∀ action ∈ more, action.connection = connection ∧ action.task ≠ .closeSocket) :
    Held shared (more + pending) where
  current action mem := by
    rcases mem_add.mp mem with isNew | before
    · exact (ofConnection action isNew).1 ▸ current
    · exact held.current action before
  entries := held.entries
  closing closed mem := by
    rcases mem_add.mp mem with isNew | before
    · exact absurd rfl (ofConnection _ isNew).2
    · exact held.closing before
  live := held.live

theorem update (held : Held shared pending) {after : ConnectionState}
    (found : shared.entry connection = some before) (same : after.connection = connection) :
    Held { shared with server := shared.server.setState (shared.fdOf connection) after }
      pending where
  current := held.current
  entries fd state present := by
    obtain ⟨isFound, isOwn⟩ := entry_eq_some.mp found
    have kept := held.entries isFound
    by_cases here : fd = shared.fdOf connection
    · simp only [TcpServer.setState, here, update_self, Option.some.injEq] at present
      subst present
      rw [isOwn] at kept
      exact ⟨by rw [same, here], same ▸ kept.2.1, here ▸ kept.2.2⟩
    · simp only [TcpServer.setState, update_of_ne here] at present
      exact held.entries present
  closing closed mem := by
    have gone := held.closing mem
    have different : shared.fdOf closed ≠ shared.fdOf connection := by
      intro sameFd
      rw [sameFd, (entry_eq_some.mp found).1] at gone
      cases gone
    simpa [TcpServer.setState, different] using gone
  live other := by
    rw [entry_setState found same]
    split
    · next isSame =>
        subst isSame
        simpa [TcpServer.setState, found] using held.live other
    · exact held.live other

theorem erase (held : Held shared pending) (found : shared.entry connection = some before) :
    Held { shared with server := shared.server.erase (shared.fdOf connection) connection }
      (⟨connection, .closeSocket⟩ ::ₘ pending) where
  current action mem := by
    rcases mem_cons.mp mem with rfl | earlier
    · obtain ⟨isFound, isOwn⟩ := entry_eq_some.mp found
      exact isOwn ▸ (held.entries isFound).2.1
    · exact held.current action earlier
  entries fd state present := by
    by_cases here : fd = shared.fdOf connection
    · simp [TcpServer.erase, here] at present
    · simp only [TcpServer.erase, update_of_ne here] at present
      exact held.entries present
  closing closed mem := by
    by_cases here : shared.fdOf closed = shared.fdOf connection
    · simp [TcpServer.erase, here]
    · rcases mem_cons.mp mem with isNew | earlier
      · cases isNew
        exact absurd rfl here
      · simpa [TcpServer.erase, here] using held.closing earlier
  live other := by
    rw [entry_erase found]
    split
    · next isSame => simp [TcpServer.erase, isSame]
    · next different => simpa [TcpServer.erase, different] using held.live other

theorem same {after : Shared} (held : Held shared pending) (server : after.server = shared.server)
    (fdOf : after.fdOf = shared.fdOf) (accepted : after.accepted = shared.accepted)
    (sockets : after.sockets = shared.sockets) : Held after pending := by
  cases after
  cases server
  cases fdOf
  cases accepted
  cases sockets
  exact ⟨held.current, held.entries, held.closing, held.live⟩

theorem touched {next : Shared × List Action} (held : Held shared pending)
    (current : shared.Current connection) (touches : Touched shared connection next) :
    Held next.1 (next.2 + pending) := by
  cases touches with
  | kept _ _ plain =>
    have added := held.add current fun action mem =>
      ⟨(plain action mem).1, Task.ne_closeSocket_of_plain (plain action mem).2⟩
    exact added.same rfl rfl rfl rfl
  | updated found same _ plain =>
    apply (held.update found same).add current
    intro action mem
    exact ⟨(plain action mem).1, Task.ne_closeSocket_of_plain (plain action mem).2⟩
  | ended found same _ =>
    apply (held.update found same).add current
    simp
  | taken found =>
    have added : Held shared (([⟨connection, .handleConnection⟩] : List Action) + pending) :=
      held.add current (by simp)
    simpa [Shared.disconnect] using added.erase found

theorem acceptResult {accepted : Bool}
    (held : Held shared pending) (current : shared.Current connection) :
    Held (shared.act config made ⟨connection, .acceptResult accepted⟩).1
      ((shared.act config made ⟨connection, .acceptResult accepted⟩).2 + pending) := by
  simp only [Shared.act, TcpServer.acceptResult]
  cases found : shared.server.connections (shared.fdOf connection) with
  | none =>
    cases accepted with
    | true => simpa using held
    | false =>
      simp only [Bool.false_eq_true, if_false, coe_cons_add, coe_nil_add]
      refine ⟨?_, held.entries, ?_, held.live⟩
      · intro action mem
        rcases mem_cons.mp mem with rfl | before
        · exact current
        · exact held.current action before
      · intro closed mem
        rcases mem_cons.mp mem with isNew | before
        · cases isNew
          exact found
        · exact held.closing before
  | some state =>
    have isOwn := held.own current state found
    have isEntry := entry_eq_some.mpr ⟨found, isOwn⟩
    cases accepted with
    | true =>
      apply held.add current
      simp [isOwn]
    | false =>
      have erased := held.erase isEntry
      simpa [isOwn] using erased

theorem closeSocket (held : Held shared (⟨connection, .closeSocket⟩ ::ₘ others)) :
    Held { shared with
      sockets := Function.update shared.sockets (shared.fdOf connection) false } others where
  current action mem := held.current action (mem_cons_of_mem mem)
  entries fd state found := by
    obtain ⟨ofState, current, isOpen⟩ := held.entries found
    have different : fd ≠ shared.fdOf connection := by
      rintro rfl
      rw [held.closing (mem_cons_self _ _)] at found
      cases found
    exact ⟨ofState, current, by simpa [different] using isOpen⟩
  closing _ mem := held.closing (mem_cons_of_mem mem)
  live := held.live

theorem act {action : Action} (held : Held shared (action ::ₘ others)) :
    Held (shared.act config made action).1 ((shared.act config made action).2 + others) := by
  have current := held.current action (mem_cons_self _ _)
  have rest := held.mono (le_cons_self others action)
  rcases action with ⟨connection, task⟩
  have added {more : List Action} (ofConnection : ∀ action ∈ more,
      action.connection = connection ∧ action.task ≠ .closeSocket) :=
    rest.add current ofConnection
  by_cases plain : task.plain = true
  · by_cases isData : ∃ data, task = .handleData data
    · rcases isData with ⟨data, rfl⟩
      simp only [Shared.act]
      rcases shared.ingress.bufferData config (shared.fdOf connection) data with
        ⟨ingress, _ | ⟨streamId, extracted⟩⟩
      · exact (added (by simp)).same rfl rfl rfl rfl
      · refine (added ?_).same rfl rfl rfl rfl
        intro action mem
        rcases mem_delivery mem with ⟨isOwn, isTask | ⟨frame, isTask⟩⟩ <;>
          exact ⟨isOwn, by simp [isTask]⟩
    · exact rest.touched current
        (touched_act (rest.own current) plain (by simpa using isData))
  · cases task <;> simp only [Task.plain, not_true_eq_false] at plain
    case pushFirstRecv =>
      cases made <;> exact (added (by simp [Shared.act])).same rfl rfl rfl rfl
    case acceptResult accepted => exact rest.acceptResult current
    case handleConnection =>
      simp only [Shared.act]
      split <;> exact added (by simp)
    case addStream => exact (added (by simp [Shared.act])).same rfl rfl rfl rfl
    case removeStream => exact (added (by simp [Shared.act])).same rfl rfl rfl rfl
    case handleReadClosed => exact (added (by simp [Shared.act])).same rfl rfl rfl rfl
    case notify event => exact (added (by simp [Shared.act])).same rfl rfl rfl rfl
    case closeSocket => simpa [Shared.act] using held.closeSocket

theorem connections_act_of_ne {action : Action}
    (held : Held shared pending) (current : shared.Current action.connection)
    (other : fd ≠ shared.fdOf action.connection) :
    (shared.act config made action).1.server.connections fd = shared.server.connections fd := by
  rcases action with ⟨connection, task⟩
  by_cases plain : task.plain = true
  · by_cases isData : ∃ data, task = .handleData data
    · rcases isData with ⟨data, rfl⟩
      simp only [Shared.act]
      rcases shared.ingress.bufferData config (shared.fdOf connection) data with
        ⟨ingress, _ | ⟨streamId, extracted⟩⟩ <;> rfl
    · exact (touched_act (held.own current) plain (by simpa using isData)).connections_of_ne other
  · cases task <;> simp only [Task.plain, not_true_eq_false] at plain
    case pushFirstRecv => cases made <;> rfl
    case acceptResult accepted =>
      simp only [Shared.act, TcpServer.acceptResult]
      cases shared.server.connections (shared.fdOf connection) with
      | none => rfl
      | some state => cases accepted <;> simp [TcpServer.erase, other]
    case handleConnection =>
      simp only [Shared.act]
      split <;> rfl
    all_goals rfl

theorem operate {streamId : ℕ} (held : Held shared pending) (operation : StreamOperation)
    (current : ∀ connection ∈ shared.ingress.connectionByStream streamId,
      shared.Current connection) :
    Held shared (shared.operate streamId operation + pending) := by
  unfold Shared.operate
  split
  · simpa using held
  · cases found : shared.ingress.connectionByStream streamId with
    | none => simpa using held
    | some connection =>
      apply held.add (current connection found)
      cases operation <;> simp [StreamOperation.task]

theorem entry_accept (held : Held shared pending) (free : shared.sockets fd = false) (other : ℕ) :
    (shared.accept fd).entry other =
      if other = shared.accepted then some { connection := shared.accepted }
      else shared.entry other := by
  have unused : shared.server.connections fd = none := by
    apply eq_none_iff_forall_ne_some.mpr
    intro state found
    simp [(held.entries found).2.2] at free
  by_cases isNew : other = shared.accepted
  · simp [Shared.entry, Shared.accept, TcpServer.register, isNew]
  · by_cases here : shared.fdOf other = fd
    · simp [Shared.entry, Shared.accept, TcpServer.register, isNew, here, unused, Ne.symm isNew]
    · simp [Shared.entry, Shared.accept, TcpServer.register, isNew, here]

theorem accept (held : Held shared pending) (free : shared.sockets fd = false)
    (unused : ∀ action ∈ pending, shared.fdOf action.connection ≠ fd) :
    Held (shared.accept fd) (⟨shared.accepted, .pushFirstRecv⟩ ::ₘ pending) := by
  have newest : (shared.accept fd).Current shared.accepted := by
    refine ⟨Nat.lt_succ_self _, ?_⟩
    intro later after known
    exact absurd (Nat.lt_succ_iff.mp known) (Nat.not_le.mpr after)
  refine ⟨?_, ?_, ?_, ?_⟩
  · intro action mem
    rcases mem_cons.mp mem with rfl | before
    · exact newest
    · exact (held.current action before).accept (unused action before)
  · intro other state found
    by_cases here : other = fd
    · subst here
      simp only [Shared.accept, TcpServer.register, update_self, Option.some.injEq]
        at found
      subst found
      exact ⟨by simp [Shared.accept], newest, by simp [Shared.accept]⟩
    · simp only [Shared.accept, TcpServer.register, update_of_ne here] at found
      obtain ⟨ofState, isCurrent, isOpen⟩ := held.entries found
      refine ⟨(fdOf_accept isCurrent.1 fd).trans ofState, isCurrent.accept (ofState ▸ here), ?_⟩
      simpa [Shared.accept, here] using isOpen
  · intro closed mem
    rcases mem_cons.mp mem with isNew | before
    · cases isNew
    · rw [fdOf_accept (held.current _ before).1]
      simpa [Shared.accept, TcpServer.register, unused _ before] using held.closing before
  · intro connection
    rw [held.entry_accept free]
    split
    · next isNew => simp [Shared.accept, TcpServer.register, isNew]
    · next before => simpa [Shared.accept, TcpServer.register, before] using held.live connection

end Held

namespace Threads

/-- A send that completes late, after its descriptor was given away, and finds nothing to count. -/
def Harmless (succeeded : Bool) (state : ConnectionState) : Prop :=
  succeeded = true ∧ state.pendingSends = 0 ∧
    (state.writeShutdownRequested = true → state.writeClosed = true)

/-- A descriptor is not given away while a call for it is in progress, nobody uses the stream of a
connection that is gone, a receive completes before its descriptor is given away or finds no
connection, and a send does so or is harmless. -/
def Attributed (state : Threads) : ThreadEvent → Prop
  | .accept fd => ∀ action ∈ state.pending, state.shared.fdOf action.connection ≠ fd
  | .recvCompleted connection _ =>
    ∀ entry ∈ state.shared.server.connections (state.shared.fdOf connection),
      entry.connection = connection
  | .sendCompleted connection succeeded =>
    ∀ entry ∈ state.shared.server.connections (state.shared.fdOf connection),
      entry.connection = connection ∨ Harmless succeeded entry
  | .operate streamId _ =>
    ∀ connection ∈ state.shared.ingress.connectionByStream streamId,
      state.shared.server.connected connection = true
  | .proceed .. => True

instance (succeeded : Bool) (state : ConnectionState) : Decidable (Harmless succeeded state) :=
  inferInstanceAs (Decidable (_ ∧ _ ∧ _))

instance (state : Threads) : (event : ThreadEvent) → Decidable (state.Attributed event)
  | .accept _ => inferInstanceAs (Decidable (∀ action ∈ _, _))
  | .recvCompleted .. => inferInstanceAs (Decidable (∀ entry ∈ _, _))
  | .sendCompleted .. => inferInstanceAs (Decidable (∀ entry ∈ _, _))
  | .operate .. => inferInstanceAs (Decidable (∀ connection ∈ _, _))
  | .proceed .. => inferInstanceAs (Decidable True)

def actor (state : Threads) : ThreadEvent → Option ℕ
  | .accept _ | .operate .. => none
  | .recvCompleted connection _ | .sendCompleted connection _ => some connection
  | .proceed index _ => (next? state.calls index).map (·.connection)

end Threads

namespace Shared

variable {shared : Shared} {connection : ℕ} {state : ConnectionState}

theorem recvCompleted_of_none (none : shared.server.connections (shared.fdOf connection) = none)
    (result : RecvResult) : shared.recvCompleted connection result = (shared, []) := by
  simp only [recvCompleted, TcpServer.handleRecv, none]

theorem sendCompleted_of_none (none : shared.server.connections (shared.fdOf connection) = none)
    (succeeded : Bool) : shared.sendCompleted connection succeeded = (shared, []) := by
  simp only [sendCompleted, finishWrite, TcpServer.handleSend, none]

theorem sendCompleted_of_harmless {succeeded : Bool}
    (found : shared.server.connections (shared.fdOf connection) = some state)
    (harmless : Threads.Harmless succeeded state) :
    shared.sendCompleted connection succeeded = (shared, []) := by
  rcases harmless with ⟨rfl, none, closed⟩
  have counted : { state with pendingSends := state.pendingSends - 1 } = state := by
    cases state
    simp_all
  have kept : shared.server.setState (shared.fdOf connection) state = shared.server := by
    simp [TcpServer.setState, ← found]
  have notNow : (state.writeShutdownRequested && state.pendingSends - 1 = 0 &&
      !state.writeClosed) = false := by
    cases requested : state.writeShutdownRequested <;> simp_all
  simp [sendCompleted, TcpServer.handleSend, found, counted, notNow, kept, finishWrite]

end Shared

namespace Threads

variable {config : TcpIngressConfig} {state after : Threads}

theorem held_recvCompleted {pending : Multiset Action}
    {result : RecvResult} (held : Held shared pending)
    (own : ∀ entry ∈ shared.server.connections (shared.fdOf connection),
      entry.connection = connection) :
    Held (shared.recvCompleted connection result).1
      ((shared.recvCompleted connection result).2 + pending) := by
  cases found : shared.server.connections (shared.fdOf connection) with
  | none => simpa [recvCompleted_of_none found] using held
  | some entry =>
    have current := own entry found ▸ (held.entries found).2.1
    exact held.touched current (touched_recvCompleted (held.own current) result)

theorem held_sendCompleted {pending : Multiset Action}
    {succeeded : Bool} (held : Held shared pending)
    (own : ∀ entry ∈ shared.server.connections (shared.fdOf connection),
      entry.connection = connection ∨ Harmless succeeded entry) :
    Held (shared.sendCompleted connection succeeded).1
      ((shared.sendCompleted connection succeeded).2 + pending) := by
  cases found : shared.server.connections (shared.fdOf connection) with
  | none => simpa [sendCompleted_of_none found] using held
  | some entry =>
    rcases own entry found with isOwn | harmless
    · have current := isOwn ▸ (held.entries found).2.1
      exact held.touched current (touched_sendCompleted (held.own current) succeeded)
    · simpa [sendCompleted_of_harmless found harmless] using held

theorem held_steps {event : ThreadEvent} {shared : Shared} {pending : Multiset Action}
    (attributed : state.Attributed event) (steps : Steps config state event shared pending)
    (held : Held state.shared state.pending) : Held shared pending := by
  cases steps with
  | accept free => exact held.accept free attributed
  | recvCompleted mem =>
    apply held_recvCompleted
    · exact held.same rfl rfl rfl rfl
    · exact attributed
  | sendCompleted mem =>
    apply held_sendCompleted
    · exact held.same rfl rfl rfl rfl
    · exact attributed
  | operate streamId operation =>
    apply held.operate
    intro connection found
    exact held.current_of_connected (attributed connection found)
  | proceed next before =>
    rw [before] at held
    exact held.act

theorem actor_of_changed {event : ThreadEvent} {entry : ConnectionState} {shared : Shared}
    {pending : Multiset Action} (held : Held state.shared state.pending)
    (attributed : state.Attributed event) (steps : Steps config state event shared pending)
    (before : state.shared.server.connections fd = some entry)
    (changed : shared.server.connections fd ≠ some entry) :
    state.actor event = some entry.connection := by
  cases steps with
  | @accept other free =>
    have different : fd ≠ other := by
      rintro rfl
      simp [(held.entries before).2.2] at free
    simp [Shared.accept, TcpServer.register, different, before] at changed
  | @recvCompleted connection result mem =>
    by_cases here : fd = state.shared.fdOf connection
    · subst here
      exact congrArg some (attributed entry before).symm
    · rw [server_recvCompleted] at changed
      exact absurd ((TcpServer.connections_handleRecv_of_ne here result).trans before) changed
  | @sendCompleted connection succeeded mem =>
    by_cases here : fd = state.shared.fdOf connection
    · subst here
      rcases attributed entry before with isOwn | harmless
      · exact congrArg some isOwn.symm
      · have unchanged : (state.shared.completeSend connection).sendCompleted connection
            succeeded = (state.shared.completeSend connection, []) :=
          sendCompleted_of_harmless before harmless
        rw [unchanged] at changed
        exact absurd before changed
    · rw [server_sendCompleted] at changed
      exact absurd ((TcpServer.connections_handleSend_of_ne here succeeded).trans before) changed
  | operate => exact absurd before changed
  | @proceed _ _ action others next pending =>
    have current := held.current action (pending ▸ mem_cons_self _ _)
    by_cases here : fd = state.shared.fdOf action.connection
    · subst here
      simp [actor, next, held.own current entry before]
    · rw [held.connections_act_of_ne current here] at changed
      exact absurd before changed

end Threads

/-- In every run in which completions are attributed, a step changes the entry of a connection only
if it acts for that connection. -/
theorem entry_changed_by_own {config : TcpIngressConfig} {events : List ThreadEvent}
    {event : ThreadEvent} {state after : Threads} {fd : ℕ} {entry : ConnectionState}
    (run : Run (Threads.step config) Threads.Attributed {} events state)
    (attributed : state.Attributed event) (taken : state.step config event = some after)
    (before : state.shared.server.connections fd = some entry)
    (changed : after.shared.server.connections fd ≠ some entry) :
    state.actor event = some entry.connection := by
  have held : Held state.shared state.pending := by
    apply run.invariant
    · exact Held.initial
    · intro before after event attributed taken held
      exact Threads.held_steps attributed (Threads.steps_of_step taken) held
  exact Threads.actor_of_changed held attributed (Threads.steps_of_step taken) before changed

/-- The first connection is accepted, gets its stream and leaves it with a send in flight. The second
one has its descriptor when the send completes. Later its own receive ends. -/
theorem late_send_harmless : ∃ state,
    Run (Threads.step {}) Threads.Attributed {}
      [.accept 5, .proceed 0 true, .proceed 0 true, .proceed 0 true, .proceed 0 true,
        .proceed 0 true, .operate 4294967297 .sendToStream, .proceed 1 true, .proceed 1 true,
        .proceed 1 true, .operate 4294967297 .shutdownStream, .proceed 2 true, .proceed 2 true,
        .proceed 2 true, .proceed 2 true, .proceed 2 true, .accept 5, .sendCompleted 0 true,
        .proceed 3 true] state ∧
    state.shared.server.connections 5 = some { connection := 1 } ∧
    (∃ after, state.step {} (.recvCompleted 1 .ended) = some after ∧
      after.shared.server.connections 5 ≠ some { connection := 1 }) ∧
    state.actor (.recvCompleted 1 .ended) = some 1 := by
  apply Run.exists_of_execute fun state =>
    state.shared.server.connections 5 == some { connection := 1 } &&
      decide (state.Attributed (.recvCompleted 1 .ended)) &&
      (state.step {} (.recvCompleted 1 .ended)).any fun after =>
        after.shared.server.connections 5 != some { connection := 1 }
  · decide +kernel
  · intro state run facts
    simp only [Bool.and_eq_true, beq_iff_eq, decide_eq_true_eq, any_eq_true, bne_iff_ne] at facts
    rcases facts with ⟨⟨before, attributed⟩, after, taken, changed⟩
    exact ⟨before, ⟨after, taken, changed⟩,
      entry_changed_by_own run attributed taken before changed⟩

/-- The receive of the first connection ends when the second one has its descriptor. -/
theorem late_end_of_stream : ∃ state,
    Run (Threads.step {}) (fun _ _ => True) {}
      [.accept 5, .proceed 0 true, .proceed 0 true, .proceed 0 true, .proceed 0 true,
        .proceed 0 true, .operate 4294967297 .shutdownStream, .proceed 1 true, .proceed 1 true,
        .proceed 1 true, .proceed 1 true, .proceed 1 true, .accept 5] state ∧
    state.shared.server.connections 5 = some { connection := 1 } ∧
    ∃ after, state.step {} (.recvCompleted 0 .ended) = some after ∧
      after.shared.server.connections 5 = some { connection := 1, readClosed := true } := by
  apply Run.exists_of_execute fun state =>
    state.shared.server.connections 5 == some { connection := 1 } &&
      (state.step {} (.recvCompleted 0 .ended)).any fun after =>
        after.shared.server.connections 5 == some { connection := 1, readClosed := true }
  · decide +kernel
  · intro state _ facts
    simpa only [Bool.and_eq_true, beq_iff_eq, any_eq_true] using facts

end IotProxy.Proxy
