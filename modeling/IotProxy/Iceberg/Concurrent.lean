import IotProxy.Lib.Run
import IotProxy.Iceberg.History

/-!
# Two writers

Two writers run `CommitTable` on one table, and their object-store operations interleave. `advance`
is one operation of a writer: it reads the hint, lists the folder, reads the metadata file and plans
the commit, puts the new metadata file, puts the hint. A writer that is alone computes `commitTable`
(`runAlone_eq_commitTable`).
-/

namespace IotProxy.Iceberg.Catalog

open Function

variable {Metadata Requirement Update : Type}

inductive Writer where
  | left
  | right
deriving DecidableEq

instance : Fintype Writer where
  elems := {.left, .right}
  complete writer := by cases writer <;> decide

/-- How far a writer is with its call. -/
inductive Phase (Metadata : Type) where
  | idle
  | hintRead (version : ℤ)
  | listed (location : Text)
  | planned (table : Table Metadata) (data : Text) (version : ℤ)
  | metadataPut (table : Table Metadata) (version : ℤ)
  | finished (result : Except CatalogError (Table Metadata))
deriving DecidableEq

def Phase.active : Phase Metadata → Bool
  | idle | finished _ => false
  | _ => true

structure Shared (Metadata : Type) where
  store : Store
  phase : Writer → Phase Metadata

section Model

variable (package : TablePackage Metadata Requirement Update) (catalog : Catalog)

def loadError (error : CatalogError) : CatalogError :=
  if error = .notExist then .noSuchTable else error

def planned (call : CommitCall Requirement Update) (current : Table Metadata) : Phase Metadata :=
  match planCommit package current call.requirements call.updates call.uuid with
  | .error error => .finished (.error error)
  | .ok .unchanged => .finished (.ok current)
  | .ok (.write updated location version) =>
    match package.marshal updated with
    | none => .finished (.error .marshalFailed)
    | some data => .planned { metadata := updated, location } data version

def advance (call : CommitCall Requirement Update) (store : Store) :
    Phase Metadata → Option (Store × Phase Metadata)
  | .idle =>
    match catalog.readHint store with
    | .error error => some (store, .finished (.error (loadError error)))
    | .ok version => some (store, .hintRead version)
  | .hintRead version =>
    match catalog.findMetadata store version with
    | .error error => some (store, .finished (.error (loadError error)))
    | .ok location => some (store, .listed location)
  | .listed location =>
    match catalog.newFromLocation package store location with
    | .error error => some (store, .finished (.error error))
    | .ok current => some (store, planned package call current)
  | .planned table data version =>
    match catalog.putObject store table.location (data ++ ['\n']) call.metadataPut with
    | (store, false) => some (store, .finished (.error .putFailed))
    | (store, true) => some (store, .metadataPut table version)
  | .metadataPut table version =>
    match catalog.putObject store catalog.versionHintPath (hintContent version)
        call.hintPut with
    | (store, false) => some (store, .finished (.error .putFailed))
    | (store, true) => some (store, .finished (.ok table))
  | .finished _ => none

/-- The operations of a writer that nobody interrupts, `fuel` of them at most. -/
def runAlone (call : CommitCall Requirement Update) :
    ℕ → Store × Phase Metadata → Store × Phase Metadata
  | 0, state => state
  | fuel + 1, state =>
    match catalog.advance package call state.1 state.2 with
    | none => state
    | some next => runAlone call fuel next

def interleave (calls : Writer → CommitCall Requirement Update) (shared : Shared Metadata)
    (writer : Writer) : Option (Shared Metadata) :=
  (catalog.advance package (calls writer) shared.store (shared.phase writer)).map
    fun (store, phase) => { store, phase := Function.update shared.phase writer phase }

def Shared.start (store : Store) : Shared Metadata where
  store
  phase _ := .idle

/-- Metadata after updates, or as before if they change nothing. -/
def Reflects (before : Metadata) (updates : List Update) (after : Metadata) : Prop :=
  ∃ location updated, package.updateTableMetadata before updates location = some updated ∧
    (after = updated ∨ after = before ∧ package.equals updated before = true)

def ContainsBoth (calls : Writer → CommitCall Requirement Update) (base final : Metadata) : Prop :=
  ∃ middle, Reflects package base (calls .left).updates middle ∧
      Reflects package middle (calls .right).updates final ∨
    Reflects package base (calls .right).updates middle ∧
      Reflects package middle (calls .left).updates final

/-- A writer starts only while the other is not in the middle of its call, and what it writes
goes into the metadata folder and is not shadowed there. -/
def Separate (calls : Writer → CommitCall Requirement Update) (shared : Shared Metadata)
    (writer : Writer) : Prop :=
  match shared.phase writer with
  | .idle => ∀ other, other ≠ writer → (shared.phase other).active = false
  | .planned table _ version =>
    package.metadataPath table.metadata = some catalog.metadataDir ∧
      catalog.Unshadowed shared.store version (newMetadataName version (calls writer).uuid)
  | _ => True

instance (calls : Writer → CommitCall Requirement Update) (shared : Shared Metadata)
    (writer : Writer) : Decidable (Separate package catalog calls shared writer) :=
  match phase : shared.phase writer with
  | .idle => decidable_of_iff
      (∀ other, other ≠ writer → (shared.phase other).active = false) (by simp [Separate, phase])
  | .planned table _ version => decidable_of_iff
      (package.metadataPath table.metadata = some catalog.metadataDir ∧
        catalog.Unshadowed shared.store version (newMetadataName version (calls writer).uuid))
      (by simp [Separate, phase])
  | .hintRead _ | .listed _ | .metadataPut _ _ | .finished _ => isTrue (by simp [Separate, phase])

end Model

section Alone

variable {package : TablePackage Metadata Requirement Update} {catalog : Catalog}
  {call : CommitCall Requirement Update} {store : Store}

theorem runAlone_finished (fuel : ℕ) (result : Except CatalogError (Table Metadata)) :
    catalog.runAlone package call fuel (store, .finished result) = (store, .finished result) := by
  cases fuel <;> rfl

theorem runAlone_planned {updated : Metadata} {location data : Text} {version : ℤ}
    (marshalled : package.marshal updated = some data) :
    catalog.runAlone package call 2 (store, .planned ⟨updated, location⟩ data version) =
      match catalog.writeMetadata package store updated location version call.metadataPut
          call.hintPut with
      | (store, .error error) => (store, .finished (.error error))
      | (store, .ok ()) => (store, .finished (.ok ⟨updated, location⟩)) := by
  cases first : call.metadataPut with
  | failed applied => simp [runAlone, advance, writeMetadata, marshalled, putObject, first]
  | ok =>
    cases second : call.hintPut <;>
      simp [runAlone, advance, writeMetadata, marshalled, putObject, first, second]

/-- A writer that is alone computes `commitTable`. -/
theorem runAlone_eq_commitTable :
    catalog.runAlone package call 5 (store, .idle) =
      (catalog.commitTable package catalog.identifier store call).map id .finished := by
  rw [commitTable, loadTable, if_neg (not_not.mpr rfl), currentMetadataLocation]
  cases hint : catalog.readHint store with
  | error error => simp [runAlone, advance, hint, loadError]
  | ok version =>
    cases found : catalog.findMetadata store version with
    | error error => simp [runAlone, advance, hint, found, loadError]
    | ok location =>
      cases read : catalog.newFromLocation package store location with
      | error error => simp [runAlone, advance, hint, found, read]
      | ok current =>
        have planning : catalog.runAlone package call 5 (store, .idle) =
            catalog.runAlone package call 2 (store, planned package call current) := by
          simp only [runAlone, advance, hint, found, read]
        simp only [planning, planned, found, read]
        cases planCommit package current call.requirements call.updates call.uuid with
        | error error => rfl
        | ok plan =>
          cases plan with
          | unchanged => rfl
          | write updated location version =>
            cases marshalled : package.marshal updated with
            | none => simp [runAlone_finished, writeMetadata, marshalled]
            | some data =>
              simp only [marshalled, runAlone_planned marshalled]
              rcases catalog.writeMetadata package store updated location version
                call.metadataPut call.hintPut with ⟨store, error | ⟨⟩⟩ <;> rfl

end Alone

section Separate

variable {package : TablePackage Metadata Requirement Update} {catalog : Catalog}
  {calls : Writer → CommitCall Requirement Update}

/-- The updates of some writers, the last one first, lead from some metadata to other. -/
def Applied (package : TablePackage Metadata Requirement Update)
    (calls : Writer → CommitCall Requirement Update) (base : Metadata) :
    List Writer → Metadata → Prop
  | [], after => after = base
  | writer :: order, after => ∃ before, Applied package calls base order before ∧
      Reflects package before (calls writer).updates after

/-- What a writer has learnt about the current table, and that its writes, once complete, are
what the catalog loads. -/
def Progress (package : TablePackage Metadata Requirement Update) (catalog : Catalog)
    (call : CommitCall Requirement Update) (store : Store) (current : Table Metadata) :
    Phase Metadata → Prop
  | .idle | .finished _ => catalog.loadTable package catalog.identifier store = .ok current
  | .hintRead version =>
    catalog.loadTable package catalog.identifier store = .ok current ∧
      catalog.readHint store = .ok version
  | .listed location =>
    catalog.loadTable package catalog.identifier store = .ok current ∧
      location = current.location
  | .planned table data version =>
    planCommit package current call.requirements call.updates call.uuid =
        .ok (.write table.metadata table.location version) ∧
      package.marshal table.metadata = some data
  | .metadataPut table version =>
    Reflects package current.metadata call.updates table.metadata ∧
      catalog.loadTable package catalog.identifier
        (store.put (catalog.objectKey catalog.versionHintPath) (hintContent version)) = .ok table

/-- The writers take turns: `turn` is the only one that may be in the middle of its call, and
the calls that succeeded have been applied in some order to the table that is current. -/
structure TakesTurns (package : TablePackage Metadata Requirement Update) (catalog : Catalog)
    (calls : Writer → CommitCall Requirement Update) (base : Metadata) (shared : Shared Metadata)
    (order : List Writer) (current : Table Metadata) (turn : Writer) : Prop where
  applied : Applied package calls base order current.metadata
  distinct : order.Nodup
  succeeded : ∀ writer, writer ∈ order ↔ ∃ table, shared.phase writer = .finished (.ok table)
  quiet : ∀ other, other ≠ turn → (shared.phase other).active = false
  progress : Progress package catalog (calls turn) shared.store current (shared.phase turn)

def NoError (shared : Shared Metadata) : Prop :=
  ∀ writer error, shared.phase writer ≠ .finished (.error error)

/-- As long as no call has failed, the writers take turns. -/
def OneAtATime (package : TablePackage Metadata Requirement Update) (catalog : Catalog)
    (calls : Writer → CommitCall Requirement Update) (base : Metadata)
    (shared : Shared Metadata) : Prop :=
  NoError shared → ∃ order current turn,
    TakesTurns package catalog calls base shared order current turn

variable {store : Store}

theorem progress_metadataPut {call : CommitCall Requirement Update}
    {current table : Table Metadata} {data : Text} {version : ℤ}
    (progress : Progress package catalog call store current (.planned table data version))
    (inFolder : package.metadataPath table.metadata = some catalog.metadataDir)
    (unshadowed : catalog.Unshadowed store version (newMetadataName version call.uuid)) :
    Progress package catalog call
      (store.put (catalog.objectKey table.location) (data ++ ['\n'])) current
      (.metadataPut table version) := by
  rcases progress with ⟨plan, marshalled⟩
  rcases planCommit_eq_write plan with
    ⟨updatedTo, _, path, found, number, rfl, inRange, located⟩
  rw [inFolder] at found
  cases found
  have loads := (loadTable_afterWrite_iff inRange marshalled).mpr ⟨rfl, unshadowed⟩
  rw [← located] at loads
  exact ⟨⟨_, _, updatedTo, .inl rfl⟩, loads⟩

variable {phase : Phase Metadata} {writer : Writer}

namespace TakesTurns

variable {base : Metadata} {shared : Shared Metadata} {order : List Writer}
  {current : Table Metadata} {turn : Writer} {store : Store}
  (turns : TakesTurns package catalog calls base shared order current turn)

include turns

theorem keep (unfinished : ∀ result, shared.phase turn ≠ .finished result)
    (goesOn : ∀ result, phase ≠ .finished result)
    (progress : Progress package catalog (calls turn) store current phase) :
    TakesTurns package catalog calls base
      { store, phase := update shared.phase turn phase } order current turn where
  applied := turns.applied
  distinct := turns.distinct
  succeeded writer := by
    rw [turns.succeeded writer]
    by_cases same : writer = turn
    · subst same
      simp [unfinished, goesOn]
    · simp [update_of_ne same]
  quiet other different := by
    simpa [update_of_ne different] using turns.quiet other different
  progress := by simpa using progress

theorem finish {table : Table Metadata}
    (unfinished : ∀ result, shared.phase turn ≠ .finished result)
    (reflects : Reflects package current.metadata (calls turn).updates table.metadata)
    (loads : catalog.loadTable package catalog.identifier store = .ok table) :
    TakesTurns package catalog calls base
      { store, phase := update shared.phase turn (.finished (.ok table)) }
      (turn :: order) table turn where
  applied := ⟨current.metadata, turns.applied, reflects⟩
  distinct := List.nodup_cons.mpr ⟨by simp [turns.succeeded turn, unfinished], turns.distinct⟩
  succeeded writer := by
    rw [List.mem_cons, turns.succeeded writer]
    by_cases same : writer = turn
    · subst same
      simp
    · simp [same]
  quiet other different := by
    simpa [update_of_ne different] using turns.quiet other different
  progress := by simpa [Progress] using loads

theorem plan (unfinished : ∀ result, shared.phase turn ≠ .finished result)
    (loads : catalog.loadTable package catalog.identifier store = .ok current)
    (noError : ∀ error, Catalog.planned package (calls turn) current ≠ .finished (.error error)) :
    ∃ order current', TakesTurns package catalog calls base
      { store, phase := update shared.phase turn
          (Catalog.planned package (calls turn) current) } order current' turn := by
  unfold Catalog.planned at noError ⊢
  cases plan : planCommit package current (calls turn).requirements (calls turn).updates
      (calls turn).uuid with
  | error error => simp [plan] at noError
  | ok outcome =>
    cases outcome with
    | unchanged =>
      rcases planCommit_eq_unchanged plan with ⟨updated, updatedTo, same⟩
      exact ⟨_, _, turns.finish unfinished ⟨_, updated, updatedTo, .inr ⟨rfl, same⟩⟩ loads⟩
    | write updated newLocation version =>
      cases marshalled : package.marshal updated with
      | none => simp [plan, marshalled] at noError
      | some data =>
        simp only [marshalled]
        exact ⟨order, current, turns.keep unfinished (by simp) ⟨plan, marshalled⟩⟩

theorem advance (separate : Separate package catalog calls shared turn)
    (taken : catalog.advance package (calls turn) shared.store (shared.phase turn) =
      some (store, phase))
    (noError : ∀ error, phase ≠ .finished (.error error)) :
    ∃ order current, TakesTurns package catalog calls base
      { store, phase := update shared.phase turn phase } order current turn := by
  have progress := turns.progress
  cases here : shared.phase turn with
  | idle =>
    rw [here] at progress taken
    rcases loadTable_eq_ok_iff.mp progress with ⟨_, version, hint, _, _⟩
    simp only [Catalog.advance, hint, Option.some.injEq, Prod.mk.injEq] at taken
    rcases taken with ⟨rfl, rfl⟩
    exact ⟨order, current, turns.keep (by simp [here]) (by simp) ⟨progress, hint⟩⟩
  | hintRead version =>
    rw [here] at progress taken
    rcases loadTable_eq_ok_iff.mp progress.1 with ⟨_, found, hint, located, _⟩
    rw [progress.2] at hint
    cases hint
    simp only [Catalog.advance, located, Option.some.injEq, Prod.mk.injEq] at taken
    rcases taken with ⟨rfl, rfl⟩
    exact ⟨order, current, turns.keep (by simp [here]) (by simp) ⟨progress.1, rfl⟩⟩
  | listed location =>
    rw [here] at progress taken
    rcases progress with ⟨loads, rfl⟩
    have read := newFromLocation_of_loadTable loads
    simp only [Catalog.advance, read, Option.some.injEq, Prod.mk.injEq] at taken
    rcases taken with ⟨rfl, rfl⟩
    exact turns.plan (by simp [here]) loads noError
  | planned table data version =>
    rw [here] at progress taken
    simp only [Separate, here] at separate
    have next := progress_metadataPut progress separate.1 separate.2
    cases outcome : (calls turn).metadataPut with
    | failed applied =>
      simp only [Catalog.advance, putObject, outcome, Option.some.injEq, Prod.mk.injEq] at taken
      exact absurd taken.2.symm (noError _)
    | ok =>
      simp only [Catalog.advance, putObject, outcome, Option.some.injEq, Prod.mk.injEq] at taken
      rcases taken with ⟨rfl, rfl⟩
      exact ⟨order, current, turns.keep (by simp [here]) (by simp) next⟩
  | metadataPut table version =>
    rw [here] at progress taken
    rcases progress with ⟨reflects, loads⟩
    cases outcome : (calls turn).hintPut with
    | failed applied =>
      simp only [Catalog.advance, putObject, outcome, Option.some.injEq, Prod.mk.injEq] at taken
      exact absurd taken.2.symm (noError _)
    | ok =>
      simp only [Catalog.advance, putObject, outcome, Option.some.injEq, Prod.mk.injEq] at taken
      rcases taken with ⟨rfl, rfl⟩
      exact ⟨_, _, turns.finish (by simp [here]) reflects loads⟩
  | finished result =>
    rw [here] at taken
    cases taken

theorem pass (idle : shared.phase writer = .idle)
    (quiet : ∀ other, other ≠ writer → (shared.phase other).active = false) :
    TakesTurns package catalog calls base shared order current writer := by
  have loads : catalog.loadTable package catalog.identifier shared.store = .ok current := by
    have progress := turns.progress
    have inactive : (shared.phase turn).active = false := by
      by_cases same : turn = writer
      · rw [same, idle]
        rfl
      · exact quiet turn same
    cases here : shared.phase turn with
    | idle | finished _ => simpa [Progress, here] using progress
    | hintRead _ | listed _ | planned _ _ _ | metadataPut _ _ => simp [here, Phase.active] at inactive
  exact ⟨turns.applied, turns.distinct, turns.succeeded, quiet, by rw [idle]; exact loads⟩

theorem interleave {after : Shared Metadata}
    (separate : Separate package catalog calls shared writer)
    (taken : catalog.interleave package calls shared writer = some after)
    (noError : NoError after) :
    ∃ order current turn, TakesTurns package catalog calls base after order current turn := by
  simp only [Catalog.interleave, Option.map_eq_some_iff, Prod.exists] at taken
  rcases taken with ⟨store, phase, advanced, rfl⟩
  have phaseOk : ∀ error, phase ≠ .finished (.error error) := by
    intro error same
    exact noError writer error (by simp [same])
  by_cases mine : writer = turn
  · subst mine
    rcases turns.advance separate advanced phaseOk with ⟨order, current, next⟩
    exact ⟨order, current, writer, next⟩
  · have inactive := turns.quiet writer mine
    cases here : shared.phase writer with
    | idle =>
      -- a writer that starts while nobody is in a call takes the turn
      have mineNow := turns.pass here (by simpa only [Separate, here] using separate)
      rcases mineNow.advance separate advanced phaseOk with ⟨order, current, next⟩
      exact ⟨order, current, writer, next⟩
    | finished result =>
      rw [here] at advanced
      cases advanced
    | hintRead _ | listed _ | planned _ _ _ | metadataPut _ _ => simp [here, Phase.active] at inactive

end TakesTurns

theorem NoError.of_interleave {shared after : Shared Metadata}
    (taken : catalog.interleave package calls shared writer = some after)
    (noError : NoError after) : NoError shared := by
  simp only [Catalog.interleave, Option.map_eq_some_iff, Prod.exists] at taken
  rcases taken with ⟨store, phase, advanced, rfl⟩
  intro other error failed
  by_cases same : other = writer
  · subst same
    rw [failed] at advanced
    cases advanced
  · exact noError other error (by simpa [update_of_ne same] using failed)

theorem oneAtATime_of_run {base : Table Metadata} {events : List Writer} {finish : Shared Metadata}
    (loaded : catalog.loadTable package catalog.identifier store = .ok base)
    (run : EventSystem.Run (catalog.interleave package calls) (Separate package catalog calls)
      (.start store) events finish) :
    OneAtATime package catalog calls base.metadata finish := by
  refine run.invariant ?_ ?_
  · intro _
    exact ⟨[], base, .left, rfl, List.nodup_nil, by simp [Shared.start], by
      simp [Shared.start, Phase.active], loaded⟩
  · intro before after writer separate taken earlier noError
    -- a failed call stays failed, so an error-free state was error-free before the step
    rcases earlier (noError.of_interleave taken) with ⟨order, current, turn, turns⟩
    exact turns.interleave separate taken noError

theorem both_orders {order : List Writer} (distinct : order.Nodup) (left : Writer.left ∈ order)
    (right : Writer.right ∈ order) : order = [.left, .right] ∨ order = [.right, .left] := by
  match order with
  | [] => cases left
  | [first] => cases first <;> simp at left right
  | [first, second] => cases first <;> cases second <;> simp at distinct left right ⊢
  | first :: second :: third :: rest =>
    cases first <;> cases second <;> cases third <;> simp at distinct

def StillReading (catalog : Catalog) (store : Store) : Phase Metadata → Prop
  | .idle | .finished (.error _) => True
  | .hintRead version => catalog.readHint store = .ok version
  | .listed location => ∃ version, catalog.readHint store = .ok version ∧
      catalog.findMetadata store version = .ok location
  | .planned _ _ _ | .metadataPut _ _ | .finished (.ok _) => False

theorem StillReading.advance {after : Store} {call : CommitCall Requirement Update}
    {next : Phase Metadata}
    (missing : ∀ base, catalog.loadTable package catalog.identifier store ≠ .ok base)
    (reading : StillReading catalog store phase)
    (taken : catalog.advance package call store phase = some (after, next)) :
    after = store ∧ StillReading catalog store next := by
  cases phase with
  | idle =>
    simp only [Catalog.advance] at taken
    split at taken
    · cases taken
      exact ⟨rfl, trivial⟩
    · next version hint =>
        cases taken
        exact ⟨rfl, hint⟩
  | hintRead version =>
    simp only [Catalog.advance] at taken
    split at taken
    · cases taken
      exact ⟨rfl, trivial⟩
    · next location found =>
        cases taken
        exact ⟨rfl, version, reading, found⟩
  | listed location =>
    rcases reading with ⟨version, hint, found⟩
    simp only [Catalog.advance] at taken
    split at taken
    · cases taken
      exact ⟨rfl, trivial⟩
    · next current read =>
        refine absurd ?_ (missing current)
        simpa [loadTable, currentMetadataLocation, hint, found] using read
  | planned _ _ _ | metadataPut _ _ => cases reading
  | finished _ => cases taken

theorem stillReading_of_missing {events : List Writer} {finish : Shared Metadata}
    {condition : Shared Metadata → Writer → Prop}
    (missing : ∀ base, catalog.loadTable package catalog.identifier store ≠ .ok base)
    (run : EventSystem.Run (catalog.interleave package calls) condition (.start store) events
      finish) :
    finish.store = store ∧ ∀ writer, StillReading catalog store (finish.phase writer) := by
  induction run with
  | nil => exact ⟨rfl, fun _ => trivial⟩
  | @snoc _ before after writer _ _ taken ih =>
    rcases ih with ⟨sameStore, reading⟩
    simp only [Catalog.interleave, Option.map_eq_some_iff, Prod.exists] at taken
    rcases taken with ⟨nextStore, phase, advanced, rfl⟩
    rw [sameStore] at advanced
    rcases (reading writer).advance missing advanced with ⟨rfl, stillReading⟩
    refine ⟨rfl, fun other => ?_⟩
    by_cases same : other = writer
    · subst same
      simpa using stillReading
    · simpa [update_of_ne same] using reading other

/-- No update is lost in a run in which the writers keep apart: once both calls have returned
success the catalog loads a table that has the updates of both. -/
theorem bothUpdates_of_separate {store : Store} {events : List Writer} {finish : Shared Metadata}
    {leftTable rightTable : Table Metadata}
    (run : EventSystem.Run (catalog.interleave package calls) (Separate package catalog calls)
      (.start store) events finish)
    (left : finish.phase .left = .finished (.ok leftTable))
    (right : finish.phase .right = .finished (.ok rightTable)) :
    ∃ base final, catalog.loadTable package catalog.identifier store = .ok base ∧
      catalog.loadTable package catalog.identifier finish.store = .ok final ∧
      ContainsBoth package calls base.metadata final.metadata := by
  by_cases exists_base :
      ∃ base, catalog.loadTable package catalog.identifier store = .ok base
  · rcases exists_base with ⟨base, loaded⟩
    have invariant := oneAtATime_of_run loaded run
    have noError : NoError finish := by
      rintro (_ | _) error failed
      · rw [left] at failed
        cases failed
      · rw [right] at failed
        cases failed
    rcases invariant noError with ⟨order, current, turn, turns⟩
    have leftMem := (turns.succeeded .left).mpr ⟨leftTable, left⟩
    have rightMem := (turns.succeeded .right).mpr ⟨rightTable, right⟩
    have loads : catalog.loadTable package catalog.identifier finish.store = .ok current := by
      have progress := turns.progress
      cases turn with
      | left => rwa [left] at progress
      | right => rwa [right] at progress
    refine ⟨base, current, loaded, loads, ?_⟩
    have applied := turns.applied
    rcases both_orders turns.distinct leftMem rightMem with rfl | rfl
    · rcases applied with ⟨middle, ⟨_, rfl, first⟩, second⟩
      exact ⟨middle, .inr ⟨first, second⟩⟩
    · rcases applied with ⟨middle, ⟨_, rfl, first⟩, second⟩
      exact ⟨middle, .inl ⟨first, second⟩⟩
  · -- without a table at the start no call can have succeeded
    have stuck := (stillReading_of_missing (not_exists.mp exists_base) run).2 .left
    rw [left] at stuck
    exact stuck.elim

end Separate

section LostUpdate

def addBoth : Writer → CommitCall Unit Char
  | .left => { requirements := [], updates := ['a'], uuid := lowUuid, metadataPut := .ok,
               hintPut := .ok }
  | .right => { requirements := [], updates := ['b'], uuid := highUuid, metadataPut := .ok,
                hintPut := .ok }

def emptyTable : Store :=
  (folderCatalog.perform (appendPackage folderCatalog.metadataDir) []
    (.createOrLoad lowUuid .ok .ok)).1

theorem reflects_append {path : Text} {before after : Text} {updates : List Char}
    (reflects : Reflects (appendPackage path) before updates after) : after = before ++ updates := by
  rcases reflects with ⟨_, updated, updatedTo, rfl | ⟨rfl, same⟩⟩
  · cases updatedTo
    rfl
  · cases updatedTo
    exact (beq_iff_eq.mp same).symm

def writtenTable (metadata : Text) (version : ℤ) (uuid : Uuid) : Table Text where
  metadata
  location := folderCatalog.metadataDir ++ '/' :: newMetadataName version uuid

/-- Both writers read the empty table before either writes. Both calls return success, and the
catalog loads a table that has lost the update of one of them. -/
theorem overlapping_writers_lose_update :
    folderCatalog.loadTable (appendPackage folderCatalog.metadataDir) folderCatalog.identifier
        emptyTable = .ok (writtenTable [] 0 lowUuid) ∧
      (∃ finish, EventSystem.Run
          (folderCatalog.interleave (appendPackage folderCatalog.metadataDir) addBoth)
          (fun _ _ => True) (.start emptyTable)
          [.left, .left, .left, .right, .right, .right, .left, .left, .right, .right] finish ∧
        finish.phase .left = .finished (.ok (writtenTable ['a'] 1 lowUuid)) ∧
        finish.phase .right = .finished (.ok (writtenTable ['b'] 1 highUuid)) ∧
        folderCatalog.loadTable (appendPackage folderCatalog.metadataDir)
          folderCatalog.identifier finish.store = .ok (writtenTable ['a'] 1 lowUuid)) ∧
      ¬ ContainsBoth (appendPackage folderCatalog.metadataDir) addBoth [] ['a'] := by
  refine ⟨by decide +kernel, ?_, ?_⟩
  · refine EventSystem.Run.exists_of_execute (fun finish : Shared Text => decide (
        finish.phase .left = .finished (.ok (writtenTable ['a'] 1 lowUuid)) ∧
        finish.phase .right = .finished (.ok (writtenTable ['b'] 1 highUuid)) ∧
        folderCatalog.loadTable (appendPackage folderCatalog.metadataDir)
          folderCatalog.identifier finish.store = .ok (writtenTable ['a'] 1 lowUuid)))
      (by decide +kernel) ?_
    intro finish _ facts
    exact of_decide_eq_true facts
  · rintro ⟨middle, ⟨first, second⟩ | ⟨first, second⟩⟩
    · have whole := reflects_append second
      rw [reflects_append first] at whole
      cases whole
    · have whole := reflects_append second
      rw [reflects_append first] at whole
      cases whole

/-- If the left writer finishes before the right one starts, both updates are kept. -/
theorem separate_writers_keep_updates :
    ∃ finish, EventSystem.Run
        (folderCatalog.interleave (appendPackage folderCatalog.metadataDir) addBoth)
        (Separate (appendPackage folderCatalog.metadataDir) folderCatalog addBoth)
        (.start emptyTable)
        [.left, .left, .left, .left, .left, .right, .right, .right, .right, .right] finish ∧
      ∃ base final,
        folderCatalog.loadTable (appendPackage folderCatalog.metadataDir)
          folderCatalog.identifier emptyTable = .ok base ∧
        folderCatalog.loadTable (appendPackage folderCatalog.metadataDir)
          folderCatalog.identifier finish.store = .ok final ∧
        ContainsBoth (appendPackage folderCatalog.metadataDir) addBoth base.metadata
          final.metadata := by
  refine EventSystem.Run.exists_of_execute (fun finish : Shared Text => decide (
        finish.phase .left = .finished (.ok (writtenTable ['a'] 1 lowUuid)) ∧
        finish.phase .right = .finished (.ok (writtenTable ['a', 'b'] 2 highUuid))))
      (by decide +kernel) ?_
  intro finish run facts
  rcases of_decide_eq_true facts with ⟨left, right⟩
  exact bothUpdates_of_separate run left right

end LostUpdate

end IotProxy.Iceberg.Catalog
