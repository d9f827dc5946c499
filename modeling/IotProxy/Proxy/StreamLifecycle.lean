import IotProxy.Proxy.DescriptorReuse

/-!
# The life of an ingress stream

A connection gets its stream from the accept thread and loses it in the call that takes the
connection out of the server's table.
-/

namespace IotProxy.Proxy

open EventSystem Interleaving Function Shared Multiset Option
open IotProxy.Myring (ConnectionState TcpServer RecvResult)

/-- The tasks by which a connection comes to its stream. -/
def Task.starts : Task → Bool
  | .pushFirstRecv | .acceptResult _ | .handleConnection | .addStream => true
  | _ => false

def closed (streamId : ℕ) : TcpEvent := { type := .closed, streamId }

def Task.counted : Task → Bool
  | .pushFirstRecv | .acceptResult _ | .handleConnection | .addStream | .removeStream
  | .handleReadClosed => true
  | .notify event => event.type = .closed
  | _ => false

def counted (pending : Multiset Action) : Multiset Action :=
  pending.filter fun action => action.task.counted = true

/-- How many pending actions bring a connection to a stream. -/
def starting (pending : Multiset Action) (connection : ℕ) : ℕ :=
  pending.countP fun action => action.connection = connection ∧ action.task.starts = true

/-- How many pending actions report the end of a stream. -/
def closing (pending : Multiset Action) (streamId : ℕ) : ℕ :=
  pending.countP (·.task = .notify (closed streamId))

variable {task : Task}

section Counted

variable {action : Action} {pending : Multiset Action}

theorem counted_cons_of_counted (isCounted : action.task.counted = true) :
    counted (action ::ₘ pending) = action ::ₘ counted pending :=
  filter_cons_of_pos _ isCounted

theorem counted_cons_of_not (notCounted : action.task.counted = false) :
    counted (action ::ₘ pending) = counted pending :=
  filter_cons_of_neg _ (by simp [notCounted])

theorem counted_add_of_not {more : List Action}
    (notCounted : ∀ action ∈ more, action.task.counted = false) :
    counted (more + pending) = counted pending := by
  have none : (more : Multiset Action).filter (fun action => action.task.counted = true) = 0 := by
    apply filter_eq_nil.mpr
    intro action mem
    simp [notCounted action mem]
  rw [counted, filter_add, none, zero_add, counted]

theorem counted_add_of_counted {more : List Action}
    (isCounted : ∀ action ∈ more, action.task.counted = true) :
    counted (more + pending) = more + counted pending := by
  rw [counted, filter_add, filter_eq_self.mpr isCounted, counted]

@[simp] theorem starting_cons (connection : ℕ) :
    starting (action ::ₘ pending) connection = starting pending connection +
      if action.connection = connection ∧ action.task.starts = true then 1 else 0 :=
  countP_cons _ _ _

@[simp] theorem closing_cons (streamId : ℕ) :
    closing (action ::ₘ pending) streamId = closing pending streamId +
      if action.task = .notify (closed streamId) then 1 else 0 :=
  countP_cons _ _ _

theorem Task.counted_of_starts (starts : task.starts = true) : task.counted = true := by
  cases task <;> simp_all [Task.starts, Task.counted]

theorem Task.not_counted_of_plain (plain : task.plain = true) : task.counted = false := by
  cases task <;> simp_all [Task.plain, Task.counted]

end Counted

/-- What the tables of the ingress say about the streams that connections have got. -/
structure Streams (shared : Shared) : Prop where
  known : ∀ ⦃connection streamId⦄, shared.streamOf connection = some streamId →
    connection < shared.accepted
  nonzero : ∀ ⦃connection streamId⦄, shared.streamOf connection = some streamId → streamId ≠ 0
  injective : ∀ ⦃connection other streamId⦄, shared.streamOf connection = some streamId →
    shared.streamOf other = some streamId → connection = other
  byFd : ∀ ⦃fd streamId⦄, shared.ingress.streamByFd fd = some streamId →
    ∃ connection, shared.Current connection ∧ shared.fdOf connection = fd ∧
      shared.streamOf connection = some streamId
  byStream : ∀ ⦃streamId connection⦄, shared.ingress.connectionByStream streamId = some connection →
    shared.streamOf connection = some streamId
  listed : ∀ ⦃connection streamId⦄, shared.streamOf connection = some streamId →
    (shared.ingress.connectionByStream streamId = some connection ↔
      shared.ingress.streamByFd (shared.fdOf connection) = some streamId)
  readClosed : ∀ streamId ∈ shared.ingress.readClosedStreams,
    ∃ connection, shared.streamOf connection = some streamId

structure Lifecycle (shared : Shared) (pending : Multiset Action) : Prop where
  started : ∀ ⦃connection entry⦄, shared.entry connection = some entry →
    starting pending connection + (if (shared.streamOf connection).isSome then 1 else 0) ≤ 1
  kept : ∀ ⦃connection entry⦄, shared.entry connection = some entry →
    ⟨connection, .removeStream⟩ ∉ pending
  registered : ∀ ⦃connection entry streamId⦄, shared.entry connection = some entry →
    shared.streamOf connection = some streamId →
    shared.ingress.streamByFd (shared.fdOf connection) = some streamId
  ending : ∀ ⦃connection entry⦄, shared.entry connection = some entry →
    ⟨connection, .handleReadClosed⟩ ∈ pending → entry.readClosed = true
  ended : ∀ ⦃connection entry streamId⦄, shared.entry connection = some entry →
    shared.streamOf connection = some streamId → streamId ∈ shared.ingress.readClosedStreams →
    entry.readClosed = true
  leaving : ∀ ⦃connection streamId⦄, shared.entry connection = none →
    shared.streamOf connection = some streamId →
    shared.ingress.streamByFd (shared.fdOf connection) = some streamId →
    ⟨connection, .handleConnection⟩ ∈ pending ∨ ⟨connection, .removeStream⟩ ∈ pending
  closedOnce : ∀ ⦃connection streamId⦄, shared.streamOf connection = some streamId →
    shared.ingress.events.count (closed streamId) + closing pending streamId =
      if shared.ingress.streamByFd (shared.fdOf connection) = some streamId ∧
        streamId ∉ shared.ingress.readClosedStreams then 0 else 1
  unknown : ∀ ⦃streamId⦄, streamId ≠ 0 →
    (∀ connection, shared.streamOf connection ≠ some streamId) →
    shared.ingress.events.count (closed streamId) = 0 ∧ closing pending streamId = 0

variable {entry : ConnectionState}

namespace Lifecycle

variable {shared : Shared} {pending others : Multiset Action} {connection : ℕ}

theorem update (life : Lifecycle shared pending) {before after : ConnectionState}
    (found : shared.entry connection = some before) (same : after.connection = connection)
    (read : before.readClosed = true → after.readClosed = true) :
    Lifecycle { shared with server := shared.server.setState (shared.fdOf connection) after }
      pending := by
  have traced ⦃other : ℕ⦄ ⦃entry : ConnectionState⦄ (isEntry : ({ shared with
        server := shared.server.setState (shared.fdOf connection) after }).entry other =
          some entry) :
      ∃ earlier, shared.entry other = some earlier ∧
        (earlier.readClosed = true → entry.readClosed = true) := by
    rw [entry_setState found same] at isEntry
    split at isEntry
    · next isSame =>
        cases isEntry
        exact ⟨before, isSame ▸ found, read⟩
    · exact ⟨entry, isEntry, id⟩
  constructor
  · intro other entry isEntry
    rcases traced isEntry with ⟨earlier, wasEntry, _⟩
    exact life.started wasEntry
  · intro other entry isEntry
    rcases traced isEntry with ⟨earlier, wasEntry, _⟩
    exact life.kept wasEntry
  · intro other entry streamId isEntry
    rcases traced isEntry with ⟨earlier, wasEntry, _⟩
    exact life.registered wasEntry
  · intro other entry isEntry mem
    rcases traced isEntry with ⟨earlier, wasEntry, keeps⟩
    exact keeps (life.ending wasEntry mem)
  · intro other entry streamId isEntry hasStream mem
    rcases traced isEntry with ⟨earlier, wasEntry, keeps⟩
    exact keeps (life.ended wasEntry hasStream mem)
  · intro other streamId gone
    rw [entry_setState found same] at gone
    split at gone
    · cases gone
    · exact life.leaving gone
  · exact life.closedOnce
  · exact life.unknown

theorem erase (life : Lifecycle shared pending) {before : ConnectionState}
    (found : shared.entry connection = some before) :
    Lifecycle { shared with server := shared.server.erase (shared.fdOf connection) connection }
      (⟨connection, .handleConnection⟩ ::ₘ pending) := by
  have traced ⦃other : ℕ⦄ ⦃entry : ConnectionState⦄ (isEntry : ({ shared with
        server := shared.server.erase (shared.fdOf connection) connection }).entry other =
          some entry) : other ≠ connection ∧ shared.entry other = some entry := by
    rw [entry_erase found] at isEntry
    split at isEntry
    · cases isEntry
    · next different => exact ⟨different, isEntry⟩
  constructor
  · intro other entry isEntry
    rcases traced isEntry with ⟨different, wasEntry⟩
    simpa [Ne.symm different] using life.started wasEntry
  · intro other entry isEntry
    rcases traced isEntry with ⟨different, wasEntry⟩
    simpa using life.kept wasEntry
  · intro other entry streamId isEntry
    exact life.registered (traced isEntry).2
  · intro other entry isEntry mem
    exact life.ending (traced isEntry).2 (by simpa using mem)
  · intro other entry streamId isEntry
    exact life.ended (traced isEntry).2
  · intro other streamId gone hasStream registered
    rw [entry_erase found] at gone
    split at gone
    · next isSame => simp [isSame]
    · rcases life.leaving gone hasStream registered with connecting | removing
      · exact .inl (mem_cons_of_mem connecting)
      · exact .inr (mem_cons_of_mem removing)
  · intro other streamId hasStream
    simpa using life.closedOnce hasStream
  · intro streamId nonzero isNew
    simpa using life.unknown nonzero isNew

/-- The next task of a connection takes the place of the one before. -/
theorem exchange {next : Task} (life : Lifecycle shared (⟨connection, task⟩ ::ₘ pending))
    (silent : ∀ streamId, task ≠ .notify (closed streamId) ∧ next ≠ .notify (closed streamId))
    (starts : next.starts = true → task.starts = true) (reads : next ≠ .handleReadClosed)
    (removes : next = .removeStream → shared.entry connection = none)
    (leaves : task = .handleConnection → shared.entry connection = none → next = .removeStream)
    (lasting : task ≠ .removeStream) : Lifecycle shared (⟨connection, next⟩ ::ₘ pending) := by
  constructor
  · intro other entry isEntry
    have before := life.started isEntry
    have fewer : (if connection = other ∧ next.starts = true then 1 else 0) ≤
        if connection = other ∧ task.starts = true then 1 else 0 := by
      split_ifs <;> simp_all
    simp only [starting_cons] at before ⊢
    omega
  · intro other entry isEntry mem
    rcases mem_cons.mp mem with isNew | before
    · cases isNew
      cases (removes rfl).symm.trans isEntry
    · exact life.kept isEntry (mem_cons_of_mem before)
  · exact life.registered
  · intro other entry isEntry mem
    rcases mem_cons.mp mem with isNew | before
    · cases isNew
      exact absurd rfl reads
    · exact life.ending isEntry (mem_cons_of_mem before)
  · exact life.ended
  · intro other streamId gone hasStream registered
    rcases life.leaving gone hasStream registered with connecting | removing
    · rcases mem_cons.mp connecting with isOld | before
      · cases isOld
        exact .inr (by simp [leaves rfl gone])
      · exact .inl (mem_cons_of_mem before)
    · rcases mem_cons.mp removing with isOld | before
      · cases isOld
        exact absurd rfl lasting
      · exact .inr (mem_cons_of_mem before)
  · intro other streamId hasStream
    simpa [silent] using life.closedOnce hasStream
  · intro streamId nonzero isNew
    simpa [silent] using life.unknown nonzero isNew

theorem drop (life : Lifecycle shared (⟨connection, task⟩ ::ₘ pending))
    (silent : ∀ streamId, task ≠ .notify (closed streamId))
    (lost : ∀ streamId, shared.streamOf connection = some streamId →
      shared.ingress.streamByFd (shared.fdOf connection) = some streamId →
      task ≠ .handleConnection ∧ task ≠ .removeStream) :
    Lifecycle shared pending := by
  constructor
  · intro other entry isEntry
    have before := life.started isEntry
    rw [starting_cons] at before
    omega
  · intro other entry isEntry mem
    exact life.kept isEntry (mem_cons_of_mem mem)
  · exact life.registered
  · intro other entry isEntry mem
    exact life.ending isEntry (mem_cons_of_mem mem)
  · exact life.ended
  · intro other streamId gone hasStream registered
    rcases life.leaving gone hasStream registered with connecting | removing
    · rcases mem_cons.mp connecting with isOld | before
      · cases isOld
        exact absurd rfl (lost streamId hasStream registered).1
      · exact .inl before
    · rcases mem_cons.mp removing with isOld | before
      · cases isOld
        exact absurd rfl (lost streamId hasStream registered).2
      · exact .inr before
  · intro other streamId hasStream
    simpa [silent] using life.closedOnce hasStream
  · intro streamId nonzero isNew
    simpa [silent] using life.unknown nonzero isNew

theorem noStream
    (life : Lifecycle shared (⟨connection, task⟩ ::ₘ pending)) (starts : task.starts = true)
    (isEntry : shared.entry connection = some entry) : shared.streamOf connection = none := by
  have started := life.started isEntry
  simp only [starting_cons, starts, and_self, if_true] at started
  cases hasStream : shared.streamOf connection with
  | none => rfl
  | some streamId =>
    simp only [hasStream, isSome_some, if_true] at started
    omega

theorem addUncounted {action : Action} (life : Lifecycle shared pending)
    (uncounted : action.task.counted = false) : Lifecycle shared (action ::ₘ pending) := by
  have other {task : Task} (isCounted : task.counted = true) : action.task ≠ task := by
    intro isSame
    simp [isSame, isCounted] at uncounted
  have notStart : action.task.starts = false := by
    by_contra starts
    rw [Bool.not_eq_false] at starts
    exact other (Task.counted_of_starts starts) rfl
  have earlier {owner : ℕ} {task : Task} (isCounted : task.counted = true)
      (mem : ⟨owner, task⟩ ∈ action ::ₘ pending) : ⟨owner, task⟩ ∈ pending := by
    rcases mem_cons.mp mem with isNew | before
    · exact absurd (congrArg Action.task isNew).symm (other isCounted)
    · exact before
  refine ⟨?_, ?_, life.registered, ?_, life.ended, ?_, ?_, ?_⟩
  · intro owner entry isEntry
    simpa [notStart] using life.started isEntry
  · intro owner entry isEntry mem
    exact life.kept isEntry (earlier rfl mem)
  · intro owner entry isEntry mem
    exact life.ending isEntry (earlier rfl mem)
  · intro owner streamId gone hasStream registered
    rcases life.leaving gone hasStream registered with connecting | removing
    · exact .inl (mem_cons_of_mem connecting)
    · exact .inr (mem_cons_of_mem removing)
  · intro owner streamId hasStream
    rw [closing_cons, if_neg (other rfl), add_zero]
    exact life.closedOnce hasStream
  · intro streamId nonzero isNew
    rw [closing_cons, if_neg (other rfl), add_zero]
    exact life.unknown nonzero isNew

theorem notify {event : TcpEvent} (streams : Streams shared)
    (life : Lifecycle shared (⟨connection, .notify event⟩ ::ₘ pending)) :
    Lifecycle { shared with ingress := shared.ingress.notify event } pending := by
  have tables : (shared.ingress.notify event).streamByFd = shared.ingress.streamByFd ∧
      (shared.ingress.notify event).readClosedStreams = shared.ingress.readClosedStreams := by
    unfold TcpIngress.notify
    split <;> exact ⟨rfl, rfl⟩
  -- an event that was pending has been delivered
  have delivered ⦃streamId : ℕ⦄ (nonzero : streamId ≠ 0) :
      (shared.ingress.notify event).events.count (closed streamId) + closing pending streamId =
        shared.ingress.events.count (closed streamId) +
          closing (⟨connection, .notify event⟩ ::ₘ pending) streamId := by
    unfold TcpIngress.notify
    by_cases isClosed : event = closed streamId
    · subst isClosed
      simp only [closed, nonzero, if_false, closing_cons, if_true, List.count_append,
        List.count_singleton_self]
      omega
    · split <;> simp [isClosed]
  constructor
  · intro other entry isEntry
    simpa [Task.starts] using life.started isEntry
  · intro other entry isEntry mem
    exact life.kept isEntry (mem_cons_of_mem mem)
  · intro other entry streamId isEntry hasStream
    exact (congrFun tables.1 _).trans (life.registered isEntry hasStream)
  · intro other entry isEntry mem
    exact life.ending isEntry (mem_cons_of_mem mem)
  · intro other entry streamId isEntry hasStream mem
    exact life.ended isEntry hasStream (tables.2 ▸ mem)
  · intro other streamId gone hasStream registered
    simpa using life.leaving gone hasStream ((congrFun tables.1 _).symm.trans registered)
  · intro other streamId hasStream
    have before := life.closedOnce hasStream
    rw [← delivered (streams.nonzero hasStream)] at before
    simpa only [tables.1, tables.2] using before
  · intro streamId nonzero isNew
    have none := life.unknown nonzero isNew
    apply Nat.add_eq_zero_iff.mp
    exact (delivered nonzero).trans (by rw [none.1, none.2])

end Lifecycle

variable {streamId : ℕ} {next : Shared × List Action}

section Ingress

variable {shared : Shared} {pending others : Multiset Action} {connection : ℕ}
  {config : TcpIngressConfig}

theorem Streams.own (streams : Streams shared) (current : shared.Current connection)
    (found : shared.ingress.streamByFd (shared.fdOf connection) = some streamId) :
    shared.streamOf connection = some streamId := by
  rcases streams.byFd found with ⟨other, otherCurrent, sameFd, hasStream⟩
  rw [current.eq otherCurrent sameFd.symm]
  exact hasStream

theorem Streams.registered_addStream (streams : Streams shared)
    (current : shared.Current connection) (first : shared.streamOf connection = none)
    (isOther : streamId ≠ shared.ingress.newStreamId config) (other : ℕ) :
    (shared.ingress.addStream config (shared.fdOf connection) connection).streamByFd
        (shared.fdOf other) = some streamId ↔
      shared.ingress.streamByFd (shared.fdOf other) = some streamId := by
  by_cases here : shared.fdOf other = shared.fdOf connection
  · rw [here]
    refine iff_of_false ?_ ?_
    · simpa [TcpIngress.addStream] using isOther.symm
    · intro found
      simp [streams.own current found] at first
  · simp [TcpIngress.addStream, here]

variable {made : Bool}

theorem Streams.addStream (streams : Streams shared)
    (current : shared.Current connection) (first : shared.streamOf connection = none)
    (fresh : ∀ other, shared.streamOf other ≠ some (shared.ingress.newStreamId config)) :
    Streams (shared.act config made ⟨connection, .addStream⟩).1 := by
  have isOther ⦃other streamId : ℕ⦄ (hasStream : shared.streamOf other = some streamId) :
      other ≠ connection ∧ streamId ≠ shared.ingress.newStreamId config := by
    constructor
    · rintro rfl
      simp [first] at hasStream
    · rintro rfl
      exact fresh other hasStream
  have traced ⦃other streamId : ℕ⦄
      (hasStream : update shared.streamOf connection
        (some (shared.ingress.newStreamId config)) other = some streamId) :
      (other = connection ∧ streamId = shared.ingress.newStreamId config) ∨
        shared.streamOf other = some streamId := by
    by_cases isSame : other = connection
    · simp only [isSame, update_self, Option.some.injEq] at hasStream
      exact .inl ⟨isSame, hasStream.symm⟩
    · exact .inr (by simpa [isSame] using hasStream)
  have kept ⦃other streamId : ℕ⦄ (hasStream : shared.streamOf other = some streamId) :
      update shared.streamOf connection (some (shared.ingress.newStreamId config)) other =
        some streamId := by
    simpa [(isOther hasStream).1] using hasStream
  constructor
  · intro other streamId hasStream
    rcases traced hasStream with ⟨rfl, rfl⟩ | before
    · exact current.1
    · exact streams.known before
  · intro other streamId hasStream
    rcases traced hasStream with ⟨rfl, rfl⟩ | before
    · exact TcpIngress.newStreamId_ne_zero _ _
    · exact streams.nonzero before
  · intro left right streamId leftHas rightHas
    rcases traced leftHas with ⟨rfl, rfl⟩ | leftBefore
    · rcases traced rightHas with ⟨rfl, _⟩ | rightBefore
      · rfl
      · exact absurd rightBefore (fresh right)
    · rcases traced rightHas with ⟨rfl, rfl⟩ | rightBefore
      · exact absurd leftBefore (fresh left)
      · exact streams.injective leftBefore rightBefore
  · intro fd streamId found
    by_cases here : fd = shared.fdOf connection
    · simp only [Shared.act, TcpIngress.addStream, here, update_self, Option.some.injEq] at found
      exact ⟨connection, current, here.symm, by simp [Shared.act, found]⟩
    · simp only [Shared.act, TcpIngress.addStream, update_of_ne here] at found
      rcases streams.byFd found with ⟨other, otherCurrent, sameFd, hasStream⟩
      exact ⟨other, otherCurrent, sameFd, kept hasStream⟩
  · intro streamId other found
    by_cases isNew : streamId = shared.ingress.newStreamId config
    · simp only [Shared.act, TcpIngress.addStream, isNew, update_self, Option.some.injEq] at found
      subst found
      simp [Shared.act, isNew]
    · simp only [Shared.act, TcpIngress.addStream, update_of_ne isNew] at found
      exact kept (streams.byStream found)
  · intro other streamId hasStream
    rcases traced hasStream with ⟨rfl, rfl⟩ | before
    · simp [Shared.act, TcpIngress.addStream]
    · have isNotNew := (isOther before).2
      have sameList : (shared.ingress.addStream config (shared.fdOf connection)
          connection).connectionByStream streamId = shared.ingress.connectionByStream streamId := by
        simp [TcpIngress.addStream, isNotNew]
      exact (sameList ▸ streams.listed before).trans
        (streams.registered_addStream current first isNotNew other).symm
  · intro streamId mem
    rcases streams.readClosed streamId mem with ⟨other, hasStream⟩
    exact ⟨other, kept hasStream⟩

theorem Lifecycle.addStream (streams : Streams shared)
    (life : Lifecycle shared (⟨connection, .addStream⟩ ::ₘ pending))
    (current : shared.Current connection) (isEntry : shared.entry connection = some entry)
    (first : shared.streamOf connection = none)
    (fresh : ∀ other, shared.streamOf other ≠ some (shared.ingress.newStreamId config)) :
    Lifecycle (shared.act config made ⟨connection, .addStream⟩).1 pending := by
  have isOther ⦃other streamId : ℕ⦄ (different : other ≠ connection)
      (hasStream : Function.update shared.streamOf connection
        (some (shared.ingress.newStreamId config)) other = some streamId) :
      shared.streamOf other = some streamId ∧ streamId ≠ shared.ingress.newStreamId config := by
    simp only [update_of_ne different] at hasStream
    refine ⟨hasStream, ?_⟩
    rintro rfl
    exact fresh other hasStream
  have alone : starting pending connection = 0 := by
    have started := life.started isEntry
    simp only [starting_cons, Task.starts, and_self, if_true] at started
    omega
  constructor
  · intro other otherEntry isOtherEntry
    by_cases isSame : other = connection
    · simp [isSame, alone, Shared.act]
    · have started := life.started isOtherEntry
      simpa [Shared.act, isSame, Ne.symm isSame] using started
  · intro other otherEntry isOtherEntry mem
    exact life.kept isOtherEntry (mem_cons_of_mem mem)
  · intro other otherEntry streamId isOtherEntry hasStream
    by_cases isSame : other = connection
    · subst isSame
      simp only [Shared.act, update_self] at hasStream
      simp [Shared.act, TcpIngress.addStream, hasStream]
    · obtain ⟨before, notNew⟩ := isOther isSame hasStream
      exact (streams.registered_addStream current first notNew other).mpr
        (life.registered isOtherEntry before)
  · intro other otherEntry isOtherEntry mem
    exact life.ending isOtherEntry (mem_cons_of_mem mem)
  · intro other otherEntry streamId isOtherEntry hasStream mem
    by_cases isSame : other = connection
    · subst isSame
      simp only [Shared.act, update_self, Option.some.injEq] at hasStream
      subst hasStream
      rcases streams.readClosed _ mem with ⟨owner, ownerHas⟩
      exact absurd ownerHas (fresh owner)
    · exact life.ended isOtherEntry (isOther isSame hasStream).1 mem
  · intro other streamId gone hasStream registered
    have isSame : other ≠ connection := by
      rintro rfl
      exact absurd (isEntry.symm.trans gone) (by simp)
    obtain ⟨before, notNew⟩ := isOther isSame hasStream
    have wasRegistered := (streams.registered_addStream current first notNew other).mp registered
    simpa using life.leaving gone before wasRegistered
  · intro other streamId hasStream
    by_cases isSame : other = connection
    · subst isSame
      simp only [Shared.act, update_self, Option.some.injEq] at hasStream
      subst hasStream
      have none := life.unknown (TcpIngress.newStreamId_ne_zero _ _) fresh
      have notEnded : shared.ingress.newStreamId config ∉ shared.ingress.readClosedStreams := by
        intro mem
        rcases streams.readClosed _ mem with ⟨owner, ownerHas⟩
        exact fresh owner ownerHas
      simp only [closing_cons, reduceCtorEq, if_false, add_zero] at none
      simp [Shared.act, TcpIngress.addStream, TcpIngress.advance, none, notEnded]
    · obtain ⟨before, notNew⟩ := isOther isSame hasStream
      have counted := life.closedOnce before
      have sameRegistered := streams.registered_addStream current first notNew other
      simp only [closing_cons, reduceCtorEq, if_false, add_zero, ← sameRegistered] at counted
      exact counted
  · intro streamId nonzero isNew
    have wasNew : ∀ other, shared.streamOf other ≠ some streamId := by
      intro other
      by_cases isSame : other = connection
      · simp [isSame, first]
      · simpa [Shared.act, isSame] using isNew other
    simpa [Shared.act, TcpIngress.addStream, TcpIngress.advance] using
      life.unknown nonzero wasNew

theorem Streams.registered_removeStream {other : ℕ} (streams : Streams shared)
    (current : shared.Current connection) (hasStream : shared.streamOf other = some streamId)
    (different : other ≠ connection) :
    update shared.ingress.streamByFd (shared.fdOf connection) none (shared.fdOf other) =
        some streamId ↔
      shared.ingress.streamByFd (shared.fdOf other) = some streamId := by
  by_cases here : shared.fdOf other = shared.fdOf connection
  · rw [here]
    refine iff_of_false (by simp) ?_
    intro otherFound
    exact different (streams.injective hasStream (streams.own current otherFound))
  · simp [here]

theorem Streams.removeStream (streams : Streams shared) (current : shared.Current connection) :
    Streams (shared.act config made ⟨connection, .removeStream⟩).1 := by
  simp only [Shared.act, TcpIngress.removeStream]
  cases found : shared.ingress.streamByFd (shared.fdOf connection) with
  | none => exact streams
  | some streamId =>
    have hasStream := streams.own current found
    refine ⟨streams.known, streams.nonzero, streams.injective, ?_, ?_, ?_, ?_⟩
    · intro fd other present
      by_cases here : fd = shared.fdOf connection
      · simp [here] at present
      · simp only [update_of_ne here] at present
        exact streams.byFd present
    · intro other owner present
      by_cases here : other = streamId
      · simp [here] at present
      · simp only [update_of_ne here] at present
        exact streams.byStream present
    · intro other otherId otherHas
      by_cases isSame : other = connection
      · subst isSame
        rw [hasStream] at otherHas
        cases otherHas
        simp
      · have differentId : otherId ≠ streamId := by
          rintro rfl
          exact isSame (streams.injective otherHas hasStream)
        simp only [update_of_ne differentId]
        exact (streams.listed otherHas).trans
          (streams.registered_removeStream current otherHas isSame).symm
    · intro other mem
      exact streams.readClosed other (Finset.mem_of_mem_erase mem)

theorem Lifecycle.removeStream (streams : Streams shared)
    (life : Lifecycle shared (⟨connection, .removeStream⟩ ::ₘ pending))
    (current : shared.Current connection) :
    let next := shared.act config made ⟨connection, .removeStream⟩
    Lifecycle next.1 (next.2 + pending) := by
  have gone : shared.entry connection = none := by
    apply eq_none_iff_forall_ne_some.mpr
    intro entry isEntry
    exact life.kept isEntry (mem_cons_self _ _)
  intro next
  simp only [next, Shared.act, TcpIngress.removeStream]
  cases found : shared.ingress.streamByFd (shared.fdOf connection) with
  | none =>
    have rest := life.drop (by simp) (by simp [found])
    simpa using rest
  | some streamId =>
    have hasStream := streams.own current found
    have isOther ⦃other otherId : ℕ⦄ (otherHas : shared.streamOf other = some otherId)
        (different : other ≠ connection) : otherId ≠ streamId := by
      rintro rfl
      exact different (streams.injective otherHas hasStream)
    have sameEntry : ∀ other entry, shared.entry other = some entry → other ≠ connection := by
      rintro other entry isEntry rfl
      simp [gone] at isEntry
    simp only [toList_some, List.map_cons, List.map_nil, coe_cons_add, coe_nil_add]
    constructor
    · intro other entry isEntry
      simpa [Task.starts] using life.started isEntry
    · intro other entry isEntry mem
      exact life.kept isEntry (mem_cons_of_mem (by simpa using mem))
    · intro other entry otherId isEntry otherHas
      exact (streams.registered_removeStream current otherHas
        (sameEntry other entry isEntry)).mpr (life.registered isEntry otherHas)
    · intro other entry isEntry mem
      exact life.ending isEntry (mem_cons_of_mem (by simpa using mem))
    · intro other entry otherId isEntry otherHas mem
      exact life.ended isEntry otherHas (Finset.mem_of_mem_erase mem)
    · intro other otherId otherGone otherHas registered
      have different : other ≠ connection := by
        rintro rfl
        simp at registered
      have wasRegistered :=
        (streams.registered_removeStream current otherHas different).mp registered
      simpa [different] using life.leaving otherGone otherHas wasRegistered
    · intro other otherId otherHas
      by_cases isSame : other = connection
      · subst isSame
        rw [hasStream] at otherHas
        cases otherHas
        have before := life.closedOnce hasStream
        by_cases ended : streamId ∈ shared.ingress.readClosedStreams
        · have nonzero := (streams.nonzero hasStream).symm
          simpa [closed, found, ended, nonzero] using before
        · have none : shared.ingress.events.count (closed streamId) = 0 ∧
              closing pending streamId = 0 := by
            simpa [found, ended] using before
          rw [closing_cons, none.1, none.2]
          simp [closed, ended]
      · have before := life.closedOnce otherHas
        have differentId := isOther otherHas isSame
        have nonzero := (streams.nonzero otherHas).symm
        have silent : (if streamId ∈ shared.ingress.readClosedStreams then 0 else streamId) ≠
            otherId := by
          split
          · exact nonzero
          · exact differentId.symm
        simpa [closed, silent, differentId,
          streams.registered_removeStream current otherHas isSame] using before
    · intro otherId nonzero isNew
      have before := life.unknown nonzero isNew
      have silent : (if streamId ∈ shared.ingress.readClosedStreams then 0 else streamId) ≠
          otherId := by
        split
        · exact nonzero.symm
        · rintro rfl
          exact isNew connection hasStream
      simpa [closed, silent] using before

theorem Streams.same {after : Shared} (streams : Streams shared)
    (fdOf : after.fdOf = shared.fdOf) (accepted : after.accepted = shared.accepted)
    (streamOf : after.streamOf = shared.streamOf)
    (byFd : after.ingress.streamByFd = shared.ingress.streamByFd)
    (byStream : after.ingress.connectionByStream = shared.ingress.connectionByStream)
    (readClosed : after.ingress.readClosedStreams = shared.ingress.readClosedStreams) :
    Streams after := by
  constructor <;> simp only [fdOf, accepted, streamOf, byFd, byStream, readClosed, Shared.Current]
  · exact streams.known
  · exact streams.nonzero
  · exact streams.injective
  · exact streams.byFd
  · exact streams.byStream
  · exact streams.listed
  · exact streams.readClosed

theorem Lifecycle.same {after : Shared} (life : Lifecycle shared pending)
    (server : after.server = shared.server) (fdOf : after.fdOf = shared.fdOf)
    (streamOf : after.streamOf = shared.streamOf)
    (byFd : after.ingress.streamByFd = shared.ingress.streamByFd)
    (readClosed : after.ingress.readClosedStreams = shared.ingress.readClosedStreams)
    (events : after.ingress.events = shared.ingress.events) : Lifecycle after pending := by
  constructor <;> simp only [Shared.entry, server, fdOf, streamOf, byFd, readClosed, events]
  · exact life.started
  · exact life.kept
  · exact life.registered
  · exact life.ending
  · exact life.ended
  · exact life.leaving
  · exact life.closedOnce
  · exact life.unknown

theorem Streams.handleReadClosed (streams : Streams shared) (current : shared.Current connection) :
    Streams (shared.act config made ⟨connection, .handleReadClosed⟩).1 := by
  simp only [Shared.act, TcpIngress.closeReading]
  cases found : shared.ingress.streamByFd (shared.fdOf connection) with
  | none => exact streams
  | some streamId =>
    by_cases ended : streamId ∈ shared.ingress.readClosedStreams
    · simp only [ended, if_true]
      exact streams.same rfl rfl rfl rfl rfl rfl
    · simp only [ended, if_false]
      refine ⟨streams.known, streams.nonzero, streams.injective, streams.byFd, streams.byStream,
        streams.listed, ?_⟩
      intro other mem
      rcases Finset.mem_insert.mp mem with rfl | before
      · exact ⟨connection, streams.own current found⟩
      · exact streams.readClosed other before

theorem Lifecycle.handleReadClosed (streams : Streams shared)
    (life : Lifecycle shared (⟨connection, .handleReadClosed⟩ ::ₘ pending))
    (current : shared.Current connection) :
    let next := shared.act config made ⟨connection, .handleReadClosed⟩
    Lifecycle next.1 (next.2 + pending) := by
  have rest := life.drop (by simp) (by simp)
  intro next
  simp only [next, Shared.act, TcpIngress.closeReading]
  cases found : shared.ingress.streamByFd (shared.fdOf connection) with
  | none => simpa using rest
  | some streamId =>
    have hasStream := streams.own current found
    by_cases ended : streamId ∈ shared.ingress.readClosedStreams
    · simp only [ended, if_true, toList_none, List.map_nil, coe_nil_add]
      exact rest.same rfl rfl rfl rfl rfl rfl
    · simp only [ended, if_false, toList_some, List.map_cons, List.map_nil, coe_cons_add,
        coe_nil_add]
      constructor
      · intro other entry isEntry
        simpa [Task.starts] using rest.started isEntry
      · intro other entry isEntry mem
        exact rest.kept isEntry (by simpa using mem)
      · exact rest.registered
      · intro other entry isEntry mem
        exact rest.ending isEntry (by simpa using mem)
      · intro other entry otherId isEntry otherHas mem
        rcases Finset.mem_insert.mp mem with rfl | before
        · have isSame := streams.injective otherHas hasStream
          subst isSame
          exact life.ending isEntry (mem_cons_self _ _)
        · exact rest.ended isEntry otherHas before
      · intro other otherId gone otherHas registered
        simpa using rest.leaving gone otherHas registered
      · intro other otherId otherHas
        have before := rest.closedOnce otherHas
        by_cases isSame : otherId = streamId
        · subst isSame
          have isConnection := streams.injective otherHas hasStream
          subst isConnection
          have none : shared.ingress.events.count (closed otherId) = 0 ∧
              closing pending otherId = 0 := by
            simpa [found, ended] using before
          rw [closing_cons, none.1, none.2]
          simp [closed]
        · simpa [closed, Ne.symm isSame, isSame] using before
      · intro otherId nonzero isNew
        have different : streamId ≠ otherId := by
          rintro rfl
          exact isNew connection hasStream
        simpa [closed, different] using rest.unknown nonzero isNew

theorem Lifecycle.addReadEnd (life : Lifecycle shared pending)
    (isEntry : shared.entry connection = some entry) (readClosed : entry.readClosed = true) :
    Lifecycle shared (⟨connection, .handleReadClosed⟩ ::ₘ pending) := by
  refine ⟨?_, ?_, life.registered, ?_, life.ended, ?_, ?_, ?_⟩
  · intro other otherEntry isOther
    simpa [Task.starts] using life.started isOther
  · intro other otherEntry isOther mem
    exact life.kept isOther (by simpa using mem)
  · intro other otherEntry isOther mem
    rcases mem_cons.mp mem with isNew | before
    · cases isNew
      rw [isEntry] at isOther
      cases isOther
      exact readClosed
    · exact life.ending isOther before
  · intro other streamId gone hasStream registered
    simpa using life.leaving gone hasStream registered
  · intro other streamId hasStream
    simpa using life.closedOnce hasStream
  · intro streamId nonzero isNew
    simpa using life.unknown nonzero isNew

theorem Lifecycle.touched (life : Lifecycle shared (counted pending))
    (touches : Touched shared connection next) : Lifecycle next.1 (counted (next.2 + pending)) := by
  cases touches with
  | kept _ _ plain =>
    rw [counted_add_of_not fun action mem => Task.not_counted_of_plain (plain action mem).2]
    exact life.same rfl rfl rfl rfl rfl rfl
  | updated found same read plain =>
    rw [counted_add_of_not fun action mem => Task.not_counted_of_plain (plain action mem).2]
    exact life.update found same fun wasClosed => read.trans wasClosed
  | @ended before after found same read =>
    have updated := life.update found same fun _ => read
    rw [coe_cons_add, coe_nil_add, counted_cons_of_counted rfl]
    exact updated.addReadEnd ((entry_setState found same connection).trans (if_pos rfl))
      read
  | taken found =>
    rw [Shared.disconnect, coe_cons_add, coe_cons_add, coe_nil_add, counted_cons_of_not rfl,
      counted_cons_of_counted rfl]
    exact life.erase found

theorem Streams.accept {fd : ℕ} (streams : Streams shared)
    (unregistered : shared.ingress.streamByFd fd = none) : Streams (shared.accept fd) := by
  refine ⟨?_, streams.nonzero, streams.injective, ?_, streams.byStream, ?_, streams.readClosed⟩
  · intro other streamId hasStream
    exact Nat.lt_succ_of_lt (streams.known hasStream)
  · intro other streamId found
    rcases streams.byFd found with ⟨owner, current, sameFd, hasStream⟩
    have different : shared.fdOf owner ≠ fd := by
      rintro rfl
      rw [sameFd] at unregistered
      exact absurd (unregistered.symm.trans found) (by simp)
    exact ⟨owner, current.accept different, (fdOf_accept current.1 fd).trans sameFd, hasStream⟩
  · intro other streamId hasStream
    rw [fdOf_accept (streams.known hasStream)]
    exact streams.listed hasStream

theorem Lifecycle.accept {fd : ℕ} (life : Lifecycle shared pending) (streams : Streams shared)
    (entries : ∀ other, (shared.accept fd).entry other =
      if other = shared.accepted then some { connection := shared.accepted }
      else shared.entry other)
    (known : ∀ action ∈ pending, action.connection < shared.accepted) :
    Lifecycle (shared.accept fd) (⟨shared.accepted, .pushFirstRecv⟩ ::ₘ pending) := by
  have noStream : shared.streamOf shared.accepted = none := by
    apply eq_none_iff_forall_ne_some.mpr
    intro streamId hasStream
    exact absurd (streams.known hasStream) (Nat.lt_irrefl _)
  have traced ⦃other : ℕ⦄ ⦃entry : ConnectionState⦄
      (isEntry : (shared.accept fd).entry other = some entry) :
      other = shared.accepted ∨ other ≠ shared.accepted ∧ shared.entry other = some entry := by
    rw [entries] at isEntry
    split at isEntry
    · next isNew => exact .inl isNew
    · next before => exact .inr ⟨before, isEntry⟩
  have notPending (task : Task) : ⟨shared.accepted, task⟩ ∉ pending := fun mem =>
    Nat.lt_irrefl _ (known _ mem)
  constructor
  · intro other entry isEntry
    rcases traced isEntry with rfl | ⟨different, before⟩
    · have none : starting pending shared.accepted = 0 := by
        apply countP_eq_zero.mpr
        rintro action mem ⟨isNew, _⟩
        exact absurd isNew (known action mem).ne
      simp [none, noStream, Task.starts]
    · rw [starting_cons, if_neg (by simp [Ne.symm different])]
      exact life.started before
  · intro other entry isEntry mem
    have earlier : ⟨other, .removeStream⟩ ∈ pending := by simpa using mem
    rcases traced isEntry with rfl | ⟨_, before⟩
    · exact notPending _ earlier
    · exact life.kept before earlier
  · intro other entry streamId isEntry hasStream
    rw [fdOf_accept (streams.known hasStream)]
    rcases traced isEntry with rfl | ⟨_, before⟩
    · exact absurd (noStream.symm.trans hasStream) (by simp)
    · exact life.registered before hasStream
  · intro other entry isEntry mem
    have earlier : ⟨other, .handleReadClosed⟩ ∈ pending := by simpa using mem
    rcases traced isEntry with rfl | ⟨_, before⟩
    · exact absurd earlier (notPending _)
    · exact life.ending before earlier
  · intro other entry streamId isEntry hasStream mem
    rcases traced isEntry with rfl | ⟨_, before⟩
    · exact absurd (noStream.symm.trans hasStream) (by simp)
    · exact life.ended before hasStream mem
  · intro other streamId gone hasStream registered
    have isOld := (streams.known hasStream).ne
    rw [entries, if_neg isOld] at gone
    rw [fdOf_accept (streams.known hasStream)] at registered
    simpa using life.leaving gone hasStream registered
  · intro other streamId hasStream
    rw [fdOf_accept (streams.known hasStream), closing_cons, if_neg (by simp)]
    exact life.closedOnce hasStream
  · intro streamId nonzero isNew
    simpa using life.unknown nonzero isNew

theorem act_handleData (shared : Shared) (config : TcpIngressConfig) (made : Bool)
    (connection : ℕ) (data : Bytes) :
    ∃ ingress buffered more,
      shared.act config made ⟨connection, .handleData data⟩ =
        ({ shared with ingress, buffered }, more) ∧
      ingress.streamByFd = shared.ingress.streamByFd ∧
      ingress.connectionByStream = shared.ingress.connectionByStream ∧
      ingress.readClosedStreams = shared.ingress.readClosedStreams ∧
      ingress.events = shared.ingress.events ∧
      ∀ action ∈ more, action.task.counted = false := by
  simp only [Shared.act, TcpIngress.bufferData]
  cases shared.ingress.streamByFd (shared.fdOf connection) with
  | none => exact ⟨_, _, _, rfl, rfl, rfl, rfl, rfl, by simp⟩
  | some streamId =>
    refine ⟨_, _, _, rfl, rfl, rfl, rfl, rfl, ?_⟩
    intro action mem
    rcases mem_delivery mem with ⟨_, isTask | ⟨frame, isTask⟩⟩ <;> simp [isTask, Task.counted]

theorem Streams.touched (streams : Streams shared)
    (touches : Touched shared connection next) : Streams next.1 := by
  cases touches <;> exact streams.same rfl rfl rfl rfl rfl rfl

theorem Streams.act (streams : Streams shared) (current : shared.Current connection)
    (own : ∀ entry, shared.server.connections (shared.fdOf connection) = some entry →
      entry.connection = connection)
    (beginning : task = .addStream → shared.streamOf connection = none ∧
      ∀ other, shared.streamOf other ≠ some (shared.ingress.newStreamId config)) :
    Streams (shared.act config made ⟨connection, task⟩).1 := by
  by_cases plain : task.plain = true
  · by_cases isData : ∃ data, task = .handleData data
    · rcases isData with ⟨data, rfl⟩
      rcases act_handleData shared config made connection data with
        ⟨ingress, buffered, more, acted, byFd, byStream, readClosed, _, _⟩
      rw [acted]
      exact streams.same rfl rfl rfl byFd byStream readClosed
    · exact streams.touched (touched_act own plain (by simpa using isData))
  · cases task <;> simp only [Task.plain, not_true_eq_false] at plain
    case pushFirstRecv => cases made <;> exact streams.same rfl rfl rfl rfl rfl rfl
    case acceptResult accepted =>
      simp only [Shared.act]
      rcases shared.server.acceptResult (shared.fdOf connection) accepted with ⟨server, _ | found⟩
        <;> exact streams.same rfl rfl rfl rfl rfl rfl
    case handleConnection =>
      simp only [Shared.act]
      split <;> exact streams
    case addStream => exact streams.addStream current (beginning rfl).1 (beginning rfl).2
    case removeStream => exact streams.removeStream current
    case handleReadClosed => exact streams.handleReadClosed current
    case notify event =>
      simp only [Shared.act, TcpIngress.notify]
      split <;> exact streams.same rfl rfl rfl rfl rfl rfl
    case closeSocket => exact streams.same rfl rfl rfl rfl rfl rfl

theorem Lifecycle.acceptResult {accepted : Bool} (held : Held shared others)
    (life : Lifecycle shared (⟨connection, .acceptResult accepted⟩ ::ₘ counted others))
    (current : shared.Current connection) :
    let next := shared.act config made ⟨connection, .acceptResult accepted⟩
    Lifecycle next.1 (counted (next.2 + others)) := by
  intro next
  simp only [next, Shared.act, TcpServer.acceptResult]
  cases found : shared.server.connections (shared.fdOf connection) with
  | none =>
    have rest := life.drop (by simp) (by simp)
    cases accepted with
    | true => simpa using rest
    | false =>
      rw [if_neg (by simp), coe_cons_add, coe_nil_add, counted_cons_of_not rfl]
      exact rest
  | some state =>
    have isOwn := held.own current state found
    have isEntry := entry_eq_some.mpr ⟨found, isOwn⟩
    cases accepted with
    | true =>
      simp only [if_true, coe_cons_add, coe_nil_add, isOwn]
      rw [counted_cons_of_counted rfl]
      exact life.exchange (by simp) (by simp [Task.starts]) (by simp) (by simp) (by simp) (by simp)
    | false =>
      simp only [Bool.false_eq_true, if_false, coe_cons_add, coe_nil_add, isOwn]
      rw [counted_cons_of_not rfl]
      -- the connection is taken out before it got a stream
      have noStream := life.noStream rfl isEntry
      have rest := life.drop (by simp) (by simp)
      exact (rest.erase isEntry).drop (by simp) (by simp [noStream])

theorem Lifecycle.act (held : Held shared others)
    (streams : Streams shared) (life : Lifecycle shared (counted (⟨connection, task⟩ ::ₘ others)))
    (current : shared.Current connection)
    (beginning : task = .addStream → shared.server.connected connection = true ∧
      ∀ other, shared.streamOf other ≠ some (shared.ingress.newStreamId config)) :
    let next := shared.act config made ⟨connection, task⟩
    Lifecycle next.1 (counted (next.2 + others)) := by
  intro next
  by_cases plain : task.plain = true
  · rw [counted_cons_of_not (Task.not_counted_of_plain plain)] at life
    by_cases isData : ∃ data, task = .handleData data
    · rcases isData with ⟨data, rfl⟩
      rcases act_handleData shared config made connection data with
        ⟨ingress, buffered, more, acted, byFd, _, readClosed, events, uncounted⟩
      simp only [next, acted]
      rw [counted_add_of_not uncounted]
      exact life.same rfl rfl rfl byFd readClosed events
    · exact life.touched (touched_act (held.own current) plain (by simpa using isData))
  · cases task <;> simp only [Task.plain, not_true_eq_false] at plain
    case pushFirstRecv =>
      rw [counted_cons_of_counted rfl] at life
      have nearer (accepted : Bool) :
          Lifecycle shared (⟨connection, .acceptResult accepted⟩ ::ₘ counted others) :=
        life.exchange (by simp) (by simp [Task.starts]) (by simp) (by simp) (by simp) (by simp)
      cases made with
      | true =>
        simp only [next, Shared.act, if_true, coe_cons_add, coe_nil_add]
        rw [counted_cons_of_counted rfl]
        exact (nearer true).same rfl rfl rfl rfl rfl rfl
      | false =>
        simp only [next, Shared.act, Bool.false_eq_true, if_false, coe_cons_add, coe_nil_add]
        rw [counted_cons_of_counted rfl]
        exact nearer false
    case acceptResult accepted =>
      rw [counted_cons_of_counted rfl] at life
      exact life.acceptResult held current
    case handleConnection =>
      rw [counted_cons_of_counted rfl] at life
      simp only [next, Shared.act]
      split
      · next connected =>
          rw [held.live] at connected
          rw [coe_cons_add, coe_nil_add, counted_cons_of_counted rfl]
          exact life.exchange (by simp) (by simp [Task.starts]) (by simp) (by simp)
            (fun _ gone => absurd gone (isSome_iff_ne_none.mp connected)) (by simp)
      · next gone =>
          rw [held.live] at gone
          rw [coe_cons_add, coe_nil_add, counted_cons_of_counted rfl]
          exact life.exchange (by simp) (by simp [Task.starts]) (by simp) (by simpa using gone) (by simp)
            (by simp)
    case addStream =>
      rw [counted_cons_of_counted rfl] at life
      obtain ⟨connected, fresh⟩ := beginning rfl
      rw [held.live] at connected
      rcases isSome_iff_exists.mp connected with ⟨entry, isEntry⟩
      have added : Lifecycle next.1 (counted others) :=
        life.addStream streams current isEntry (life.noStream rfl isEntry) fresh
      rw [counted_add_of_not]
      · exact added
      · simp [next, Shared.act, Task.counted]
    case removeStream =>
      rw [counted_cons_of_counted rfl] at life
      rw [counted_add_of_counted]
      · exact life.removeStream streams current
      · simp only [next, Shared.act, TcpIngress.removeStream]
        split <;> simp [Task.counted]
    case handleReadClosed =>
      rw [counted_cons_of_counted rfl] at life
      rw [counted_add_of_counted]
      · exact life.handleReadClosed streams current
      · simp only [next, Shared.act, TcpIngress.closeReading]
        split
        · simp
        · split <;> simp [Task.counted]
    case notify event =>
      simp only [next, Shared.act, coe_nil_add]
      by_cases isCounted : Task.counted (.notify event) = true
      · rw [counted_cons_of_counted isCounted] at life
        exact life.notify streams
      · have uncounted := Bool.not_eq_true _ ▸ isCounted
        rw [counted_cons_of_not uncounted] at life
        have told : Lifecycle shared (⟨connection, .notify event⟩ ::ₘ counted others) :=
          life.addUncounted uncounted
        exact told.notify streams
    case closeSocket =>
      rw [counted_cons_of_not rfl] at life
      simp only [next, Shared.act, coe_nil_add]
      exact life.same rfl rfl rfl rfl rfl rfl

end Ingress

structure Orderly (shared : Shared) (pending : Multiset Action) : Prop where
  held : Held shared pending
  recvs : ∀ connection ∈ shared.recvs, shared.Current connection
  sends : ∀ connection ∈ shared.sends, shared.Current connection
  streams : Streams shared
  life : Lifecycle shared (counted pending)

namespace Orderly

variable {shared : Shared} {pending others : Multiset Action} {connection : ℕ}
  {config : TcpIngressConfig} {made : Bool}

theorem initial : Orderly {} 0 where
  held := .initial
  recvs := by simp
  sends := by simp
  streams := by constructor <;> simp
  life := by constructor <;> simp [Shared.entry, counted, closing]

theorem touched (orderly : Orderly shared pending)
    (current : shared.Current connection) (touches : Touched shared connection next) :
    Orderly next.1 (next.2 + pending) := by
  have held := orderly.held.touched current touches
  have streams := orderly.streams.touched touches
  have life := orderly.life.touched touches
  cases touches with
  | kept received sent _ =>
    refine ⟨held, ?_, ?_, streams, life⟩
    · intro other mem
      rcases List.mem_cons.mp (received mem) with rfl | before
      · exact current
      · exact orderly.recvs other before
    · intro other mem
      rcases List.mem_cons.mp (sent mem) with rfl | before
      · exact current
      · exact orderly.sends other before
  | updated | ended | taken => exact ⟨held, orderly.recvs, orderly.sends, streams, life⟩

theorem noStream (orderly : Orderly shared (⟨connection, task⟩ ::ₘ others))
    (starts : task.starts = true) (connected : shared.server.connected connection = true) :
    shared.streamOf connection = none := by
  rw [orderly.held.live] at connected
  rcases isSome_iff_exists.mp connected with ⟨entry, isEntry⟩
  have life := orderly.life
  rw [counted_cons_of_counted (Task.counted_of_starts starts)] at life
  exact life.noStream starts isEntry

theorem act {action : Action} (orderly : Orderly shared (action ::ₘ others))
    (beginning : action.task = .addStream →
      shared.server.connected action.connection = true ∧
      ∀ other, shared.streamOf other ≠ some (shared.ingress.newStreamId config)) :
    Orderly (shared.act config made action).1 ((shared.act config made action).2 + others) := by
  have current := orderly.held.current action (mem_cons_self _ _)
  have rest := orderly.held.mono (le_cons_self others action)
  obtain ⟨fdOf, accepted, received, sent⟩ := shared.act_frame config made action
  have stillCurrent ⦃other : ℕ⦄ (wasCurrent : shared.Current other) :
      (shared.act config made action).1.Current other := by
    simpa only [Shared.Current, fdOf, accepted] using wasCurrent
  refine ⟨orderly.held.act, ?_, ?_, ?_, ?_⟩
  · intro other mem
    rcases List.mem_cons.mp (received mem) with rfl | before
    · exact stillCurrent current
    · exact stillCurrent (orderly.recvs other before)
  · intro other mem
    rcases List.mem_cons.mp (sent mem) with rfl | before
    · exact stillCurrent current
    · exact stillCurrent (orderly.sends other before)
  · apply orderly.streams.act current (rest.own current)
    intro isStart
    obtain ⟨connected, fresh⟩ := beginning isStart
    have starts : action.task.starts = true := by
      rw [isStart]
      rfl
    exact ⟨orderly.noStream starts connected, fresh⟩
  · exact orderly.life.act rest orderly.streams current beginning

theorem accept {fd : ℕ} (orderly : Orderly shared pending) (free : shared.sockets fd = false)
    (recvs : ∀ connection ∈ shared.recvs, shared.fdOf connection ≠ fd)
    (sends : ∀ connection ∈ shared.sends, shared.fdOf connection ≠ fd)
    (unused : ∀ action ∈ pending, shared.fdOf action.connection ≠ fd)
    (unregistered : shared.ingress.streamByFd fd = none) :
    Orderly (shared.accept fd) (⟨shared.accepted, .pushFirstRecv⟩ ::ₘ pending) := by
  refine ⟨orderly.held.accept free unused, ?_, ?_, orderly.streams.accept unregistered, ?_⟩
  · intro connection mem
    exact (orderly.recvs connection mem).accept (recvs connection mem)
  · intro connection mem
    exact (orderly.sends connection mem).accept (sends connection mem)
  · rw [counted_cons_of_counted rfl]
    apply orderly.life.accept orderly.streams (orderly.held.entry_accept free)
    intro action mem
    exact (orderly.held.current action (mem_of_mem_filter mem)).1

theorem operate (orderly : Orderly shared pending) (operation : StreamOperation) :
    Orderly shared (shared.operate streamId operation + pending) := by
  refine ⟨orderly.held.operate operation ?_, orderly.recvs, orderly.sends, orderly.streams, ?_⟩
  · intro connection found
    have hasStream := orderly.streams.byStream found
    rcases orderly.streams.byFd ((orderly.streams.listed hasStream).mp found) with
      ⟨owner, current, _, ownerHas⟩
    exact orderly.streams.injective ownerHas hasStream ▸ current
  · rw [counted_add_of_not]
    · exact orderly.life
    · unfold Shared.operate
      split
      · simp
      · split
        · simp
        · cases operation <;> simp [StreamOperation.task, Task.counted]

theorem completeRecv (orderly : Orderly shared pending) (connection : ℕ) (result : RecvResult) :
    Orderly (shared.completeRecv connection result) pending where
  held := orderly.held.same rfl rfl rfl rfl
  recvs other mem := orderly.recvs other (List.mem_of_mem_erase mem)
  sends := orderly.sends
  streams := orderly.streams.same rfl rfl rfl rfl rfl rfl
  life := orderly.life.same rfl rfl rfl rfl rfl rfl

theorem completeSend (orderly : Orderly shared pending) (connection : ℕ) :
    Orderly (shared.completeSend connection) pending where
  held := orderly.held.same rfl rfl rfl rfl
  recvs := orderly.recvs
  sends other mem := orderly.sends other (List.mem_of_mem_erase mem)
  streams := orderly.streams.same rfl rfl rfl rfl rfl rfl
  life := orderly.life.same rfl rfl rfl rfl rfl rfl

end Orderly

end IotProxy.Proxy
