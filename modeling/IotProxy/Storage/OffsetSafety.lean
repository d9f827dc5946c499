import IotProxy.Lib.Run
import IotProxy.Lib.Watermark
import IotProxy.Storage.Service

/-!
# Offset safety of the storage service

A committed offset promises that the messages below it need not be read again, so every accepted one
of them has to be in an appended batch (`OffsetSafe`). The promise is carried by a second one about
the reader's position: in a running process every accepted message below the position is in an
appended batch or in the batch in memory.
-/

namespace IotProxy.Storage

open Watermark List

section Properties

variable (letterCase : Text.LetterCase) (log : TopicLog)

def Accepted (value : Bytes) : Prop :=
  ∃ now : WallClock, (parseDeviceMessage letterCase now value now).isOk

def MessageBatch.Carries (batch : MessageBatch) (message : KafkaMessage) : Prop :=
  ∃ row : DeviceMessage, ∃ createdAt : WallClock,
    (row, message) ∈ batch.rows.zip batch.messages ∧
      parseDeviceMessage letterCase createdAt message.value createdAt = .ok row

/-- The message at an offset was part of a batch for which `Append` returned `nil`. -/
def State.Appended (state : State) (partition offset : ℕ) (record : Record) : Prop :=
  ∃ batch ∈ state.appended,
    batch.Carries letterCase { partition, offset, key := record.key, value := record.value }

/-- Every accepted message below a committed offset has been appended. -/
def OffsetSafe (state : State) : Prop :=
  Below log state.committed fun partition offset record =>
    Accepted letterCase record.value → state.Appended letterCase partition offset record

/-- An unparsable message is fetched only while the batch holds nothing of its partition. -/
def SkipsAlone (state : State) : Event → Prop
  | .fetchMessage partition offset _ _ _ =>
    ∀ record ∈ log partition offset, ¬ Accepted letterCase record.value →
      ∀ message ∈ state.batch.messages, message.partition ≠ partition
  | _ => True

end Properties

variable {letterCase : Text.LetterCase} {config : WriterConfig} {log : TopicLog} {state : State}

theorem Accepted.isOk {value : Bytes} (accepted : Accepted letterCase value) (now : WallClock) :
    (parseDeviceMessage letterCase now value now).isOk := by
  rcases accepted with ⟨earlier, isOk⟩
  exact (parseDeviceMessage_isOk_iff letterCase value earlier now earlier now).mp isOk

def noon : WallClock :=
  ⟨{ unixSec := 43200, nsec := 0 }, by decide⟩

instance (letterCase : Text.LetterCase) (value : Bytes) : Decidable (Accepted letterCase value) :=
  decidable_of_iff ((parseDeviceMessage letterCase noon value noon).isOk = true)
    ⟨fun isOk => ⟨noon, isOk⟩, fun accepted => accepted.isOk noon⟩

instance (letterCase : Text.LetterCase) (log : TopicLog) (state : State) :
    ∀ event : Event, Decidable (SkipsAlone letterCase log state event)
  | .fetchMessage partition offset _ _ _ =>
    inferInstanceAs (Decidable (∀ record ∈ log partition offset,
      ¬ Accepted letterCase record.value →
        ∀ message ∈ state.batch.messages, message.partition ≠ partition))
  | .start | .stop | .fetchTimeout _ => inferInstanceAs (Decidable True)

theorem not_accepted_of_error {value : Bytes} {now : WallClock} {error : ParseError}
    (rejected : parseDeviceMessage letterCase now value now = .error error) :
    ¬ Accepted letterCase value := by
  intro accepted
  have isOk := accepted.isOk now
  rw [rejected] at isOk
  cases isOk

variable {message : KafkaMessage}

theorem MessageBatch.Carries.mem {batch : MessageBatch}
    (carries : batch.Carries letterCase message) : message ∈ batch.messages := by
  rcases carries with ⟨_, _, mem, _⟩
  exact (of_mem_zip mem).2

theorem commitOffsets_cases (committed : ℕ → ℕ) (messages : List KafkaMessage)
    (applied : ℕ → Bool) (partition : ℕ) :
    commitOffsets committed messages applied partition = committed partition ∨
      ∃ message ∈ messages, message.partition = partition ∧
        commitOffsets committed messages applied partition = message.offset + 1 := by
  unfold commitOffsets
  split
  · next highest found =>
      split
      · right
        have mem := List.max?_mem found
        simp only [mem_map, mem_filter, decide_eq_true_eq] at mem
        rcases mem with ⟨message, ⟨mem, samePartition⟩, sameOffset⟩
        exact ⟨message, mem, samePartition, by rw [sameOffset]⟩
      · exact .inl rfl
  · exact .inl rfl

theorem State.fetchMessage_eq_some {partition offset : ℕ}
    (fetched : state.fetchMessage log partition offset = some message) :
    ∃ record, Next log state.position partition offset record ∧
      message = { partition, offset, key := record.key, value := record.value } := by
  unfold State.fetchMessage at fetched
  split at fetched
  · next guard =>
      simp only [Option.map_eq_some_iff] at fetched
      rcases fetched with ⟨record, present, rfl⟩
      exact ⟨record, ⟨guard.1, guard.2, present⟩, rfl⟩
  · cases fetched

structure Invariant (letterCase : Text.LetterCase) (log : TopicLog) (state : State) : Prop where
  aligned : state.batch.rows.length = state.batch.messages.length
  covered : OffsetSafe letterCase log state
  pending : state.running → Below log state.position fun partition offset record =>
    Accepted letterCase record.value → state.Appended letterCase partition offset record ∨
      state.batch.Carries letterCase
        { partition, offset, key := record.key, value := record.value }
  fetched : state.running → ∀ message ∈ state.batch.messages,
    message.offset < state.position message.partition

namespace Invariant

theorem initial : Invariant letterCase log State.initial where
  aligned := rfl
  covered := Below.zero
  pending := by simp [State.initial]
  fetched := by simp [State.initial]

theorem stop (invariant : Invariant letterCase log state) :
    Invariant letterCase log state.stop where
  aligned := rfl
  covered := invariant.covered
  pending := by simp [State.stop]
  fetched := by simp [State.stop]

theorem start (invariant : Invariant letterCase log state) :
    Invariant letterCase log state.start where
  aligned := rfl
  covered := invariant.covered
  pending _ := invariant.covered.mono fun settled accepted => .inl (settled accepted)
  fetched := by simp [State.start]

theorem commitMessages (messages : List KafkaMessage) (outcome : CommitOutcome)
    (invariant : Invariant letterCase log state) (safe : ∀ message ∈ messages, ∀ ⦃offset record⦄,
      log message.partition offset = some record → offset ≤ message.offset →
        Accepted letterCase record.value →
          state.Appended letterCase message.partition offset record) :
    Invariant letterCase log (state.commitMessages messages outcome) := by
  have committed : Invariant letterCase log { state with
      committed := commitOffsets state.committed messages outcome.applied } := by
    refine ⟨invariant.aligned, ?_, invariant.pending, invariant.fetched⟩
    intro partition offset record present below accepted
    dsimp only at below
    rcases commitOffsets_cases state.committed messages outcome.applied partition with
      unchanged | ⟨message, mem, rfl, moved⟩
    · rw [unchanged] at below
      exact invariant.covered present below accepted
    · rw [moved] at below
      exact safe message mem present (Nat.lt_succ_iff.mp below) accepted
  cases outcome with
  | ok => exact committed
  | failed _ => exact committed.stop

theorem append_batch (invariant : Invariant letterCase log state) (running : state.running) :
    Invariant letterCase log
      { state with appended := state.appended ++ [state.batch], batch := {} } where
  aligned := rfl
  covered := invariant.covered.mono fun settled accepted => by
    rcases settled accepted with ⟨batch, mem, carries⟩
    exact ⟨batch, mem_append_left _ mem, carries⟩
  pending _ := (invariant.pending running).mono fun settled accepted => by
    left
    rcases settled accepted with ⟨batch, mem, carries⟩ | carries
    · exact ⟨batch, mem_append_left _ mem, carries⟩
    · exact ⟨state.batch, by simp, carries⟩
  fetched := by simp

theorem flush (invariant : Invariant letterCase log state) (running : state.running)
    (outcome : FlushOutcome) : Invariant letterCase log (state.flush outcome) := by
  unfold State.flush
  split
  · exact invariant
  · cases outcome with
    | appendFailed => exact invariant.stop
    | appended commit =>
      have settled := invariant.append_batch running
      have committed := settled.commitMessages state.batch.messages commit (by
        intro message mem offset record present atMost accepted
        have below := atMost.trans_lt (invariant.fetched running message mem)
        rcases settled.pending running present below accepted with appended | carries
        · exact appended
        · exact absurd carries.mem (by simp))
      cases commit with
      | ok => exact committed
      | failed _ => exact committed

variable {record : Record}

theorem fetched_advance {held : KafkaMessage}
    (next : Next log state.position message.partition message.offset record)
    (below : held.offset < state.position held.partition) :
    held.offset < (state.advance message).position held.partition := by
  have reached := next.reached
  simp only [State.advance, Function.update_apply]
  split
  · next same =>
      rw [same] at below
      omega
  · exact below

theorem advance_rejected (message : KafkaMessage) (invariant : Invariant letterCase log state)
    (next : Next log state.position message.partition message.offset record)
    (rejected : ¬ Accepted letterCase record.value) :
    Invariant letterCase log (state.advance message) where
  aligned := invariant.aligned
  covered := invariant.covered
  pending running := (invariant.pending running).advance next fun accepted =>
    absurd accepted rejected
  fetched running held mem := fetched_advance next (invariant.fetched running held mem)

theorem advance_added (message : KafkaMessage) {row : DeviceMessage}
    {now : WallClock} (invariant : Invariant letterCase log state)
    (next : Next log state.position message.partition message.offset record)
    (content : message.key = record.key ∧ message.value = record.value)
    (parsed : parseDeviceMessage letterCase now message.value now = .ok row) :
    Invariant letterCase log
      { state.advance message with batch := state.batch.add row message } := by
  have zipped : (state.batch.add row message).rows.zip (state.batch.add row message).messages =
      state.batch.rows.zip state.batch.messages ++ [(row, message)] := by
    simp [MessageBatch.add, zip_append invariant.aligned]
  have kept : ∀ {held : KafkaMessage}, state.batch.Carries letterCase held →
      (state.batch.add row message).Carries letterCase held := by
    rintro held ⟨heldRow, createdAt, mem, heldParsed⟩
    exact ⟨heldRow, createdAt, by rw [zipped]; exact mem_append_left _ mem, heldParsed⟩
  have joined : (state.batch.add row message).Carries letterCase message :=
    ⟨row, now, by rw [zipped]; simp, parsed⟩
  refine ⟨?_, invariant.covered, ?_, ?_⟩
  · simp [MessageBatch.add, invariant.aligned]
  · intro running
    refine Below.advance ((invariant.pending running).mono ?_) next ?_
    · intro partition offset held settled accepted
      exact (settled accepted).imp_right kept
    · intro _
      right
      rw [← content.1, ← content.2]
      exact joined
  · intro running held mem
    simp only [MessageBatch.add, mem_append, mem_singleton] at mem
    rcases mem with mem | rfl
    · exact fetched_advance next (invariant.fetched running held mem)
    · simp [State.advance]

theorem skip (message : KafkaMessage)
    (invariant : Invariant letterCase log state) (running : state.running)
    (next : Next log state.position message.partition message.offset record)
    (rejected : ¬ Accepted letterCase record.value)
    (alone : ∀ held ∈ state.batch.messages, held.partition ≠ message.partition)
    (outcome : CommitOutcome) :
    Invariant letterCase log ((state.advance message).commitMessages [message] outcome) := by
  have advanced := invariant.advance_rejected message next rejected
  refine advanced.commitMessages _ outcome ?_
  intro committed mem earlier found present atMost accepted
  rw [mem_singleton] at mem
  subst mem
  have below : earlier < (state.advance committed).position committed.partition := by
    simpa [State.advance] using Nat.lt_succ_iff.mpr atMost
  rcases advanced.pending running present below accepted with appended | carries
  · exact appended
  · exact (alone _ carries.mem rfl).elim

theorem step {event : Event} {after : State} (alone : SkipsAlone letterCase log state event)
    (taken : step letterCase config log state event = some after)
    (invariant : Invariant letterCase log state) : Invariant letterCase log after := by
  cases event with
  | start =>
    simp only [Storage.step] at taken
    split at taken <;> cases taken
    exact invariant.start
  | stop =>
    simp only [Storage.step] at taken
    split at taken <;> cases taken
    exact invariant.stop
  | fetchTimeout outcome =>
    simp only [Storage.step] at taken
    split at taken <;> cases taken
    next running => exact invariant.flush running outcome
  | fetchMessage partition offset now skip outcome =>
    simp only [Storage.step] at taken
    split at taken
    · next running =>
        simp only [Option.map_eq_some_iff] at taken
        rcases taken with ⟨message, fetched, rfl⟩
        rcases State.fetchMessage_eq_some fetched with ⟨record, next, rfl⟩
        unfold handleMessage
        cases parsed : parseDeviceMessage letterCase now record.value now with
        | error error =>
          have rejected := not_accepted_of_error parsed
          exact invariant.skip ⟨partition, offset, record.key, record.value⟩ running next
            rejected (alone record next.present rejected) skip
        | ok row =>
          have added := invariant.advance_added
            ⟨partition, offset, record.key, record.value⟩ next ⟨rfl, rfl⟩ parsed
          dsimp only
          split
          · exact added.flush running outcome
          · exact added
    · cases taken

end Invariant

/-- Offsets are safe in every state of every run that skips no message over the batch. -/
theorem offsetSafe_of_skipsAlone {events : List Event} {finish : State}
    (run : EventSystem.Run (step letterCase config log) (SkipsAlone letterCase log)
      State.initial events finish) :
    OffsetSafe letterCase log finish :=
  (run.invariant Invariant.initial fun alone taken invariant =>
    invariant.step alone taken).covered

section Overtaking

def mixedLog : TopicLog := fun partition offset =>
  match partition, offset with
  | 0, 0 => some { key := [], value := Text.toBytes "\x7b\"mac_addr\":\"m\"\x7d".toList }
  | 0, 1 => some { key := [], value := Text.toBytes "x".toList }
  | _, _ => none

def readBoth : List Event :=
  [.start, .fetchMessage 0 0 noon .ok (.appended .ok), .fetchMessage 0 1 noon .ok (.appended .ok)]

/-- With batches of one message the accepted message is appended before the other is
skipped. -/
theorem offsetSafe_batchOfOne :
    ∃ finish, EventSystem.Run
        (step Text.LetterCase.ascii { batchMaxMessages := 1, batchMaxBytes := 0 } mixedLog)
        (SkipsAlone Text.LetterCase.ascii mixedLog) State.initial readBoth finish ∧
      finish.committed 0 = 2 ∧ OffsetSafe Text.LetterCase.ascii mixedLog finish := by
  refine EventSystem.Run.exists_of_execute (fun finish : State => finish.committed 0 == 2)
    (by decide) ?_
  intro finish run committed
  exact ⟨beq_iff_eq.mp committed, offsetSafe_of_skipsAlone run⟩

/-- With batches of two, skipping the unparsable message commits past the accepted one,
which no appended batch holds. -/
theorem skip_commit_overtakes_batch :
    ∃ finish, EventSystem.Run
        (step Text.LetterCase.ascii { batchMaxMessages := 2, batchMaxBytes := 0 } mixedLog)
        (fun _ _ => True) State.initial readBoth finish ∧
      finish.committed 0 = 2 ∧ ¬ OffsetSafe Text.LetterCase.ascii mixedLog finish := by
  refine EventSystem.Run.exists_of_execute
    (fun finish : State => finish.committed 0 == 2 && finish.appended == []) (by decide) ?_
  intro finish _ facts
  rw [Bool.and_eq_true, beq_iff_eq, beq_iff_eq] at facts
  refine ⟨facts.1, ?_⟩
  intro safe
  have below : 0 < finish.committed 0 := by rw [facts.1]; decide
  rcases safe (show mixedLog 0 0 = some _ from rfl) below (by decide) with ⟨batch, mem, _⟩
  rw [facts.2] at mem
  cases mem

end Overtaking

end IotProxy.Storage
