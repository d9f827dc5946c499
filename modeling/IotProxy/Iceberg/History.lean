import IotProxy.Iceberg.Commit

/-!
# Histories of one writer

One writer creates or loads the table and commits to it; any put may fail, before or after it took
effect, and the writer goes on with the next call.

Two things obstruct a write: a metadata file of the same version whose hint was never written, and
the page of 1000 entries that a listing returns.
-/

namespace IotProxy.Iceberg.Catalog

variable {Metadata Requirement Update : Type}

inductive Call (Requirement Update : Type) where
  | createOrLoad (uuid : Uuid) (metadataPut hintPut : PutOutcome)
  | commit (call : CommitCall Requirement Update)

structure History (Metadata : Type) where
  store : Store
  latest : Option (Table Metadata)

section Model

variable (package : TablePackage Metadata Requirement Update) (catalog : Catalog)

def perform (store : Store) : Call Requirement Update → Store × Except CatalogError (Table Metadata)
  | .createOrLoad uuid metadataPut hintPut =>
    catalog.createOrLoadTable package store uuid metadataPut hintPut
  | .commit call => catalog.commitTable package catalog.identifier store call

def extend (history : History Metadata) (call : Call Requirement Update) : History Metadata where
  store := (catalog.perform package history.store call).1
  latest := (catalog.perform package history.store call).2.toOption

def historyOf (store : Store) (calls : List (Call Requirement Update)) : History Metadata :=
  calls.foldl (catalog.extend package) { store, latest := none }

def pendingWrite (store : Store) : Call Requirement Update → Option (Metadata × ℤ)
  | .createOrLoad _ _ _ =>
    match catalog.loadTable package catalog.identifier store with
    | .error .noSuchTable => (package.newMetadata catalog.tableLocation).map fun metadata =>
      (metadata, 0)
    | _ => none
  | .commit call =>
    match catalog.loadTable package catalog.identifier store with
    | .ok current =>
      match planCommit package current call.requirements call.updates call.uuid with
      | .ok (.write updated _ version) => some (updated, version)
      | _ => none
    | .error _ => none

def Call.uuid : Call Requirement Update → Uuid
  | .createOrLoad uuid _ _ => uuid
  | .commit call => call.uuid

/-- What a call writes goes into the metadata folder, and nothing that is there stands in
front of it. -/
def Unobstructed (store : Store) (call : Call Requirement Update) : Prop :=
  ∀ metadata version, catalog.pendingWrite package store call = some (metadata, version) →
    package.metadataPath metadata = some catalog.metadataDir ∧
      catalog.Unshadowed store version (newMetadataName version call.uuid)

end Model

section Latest

variable {package : TablePackage Metadata Requirement Update} {catalog : Catalog}
  {store after : Store} {call : Call Requirement Update} {table : Table Metadata}

theorem perform_eq_ok (performed : catalog.perform package store call = (after, .ok table)) :
    catalog.pendingWrite package store call = none ∧ after = store ∧
        catalog.loadTable package catalog.identifier store = .ok table ∨
      ∃ number : ℕ, ∃ path data, number < 2 ^ 63 ∧
        catalog.pendingWrite package store call = some (table.metadata, (number : ℤ)) ∧
        package.metadataPath table.metadata = some path ∧
        table.location = path ++ '/' :: newMetadataName number call.uuid ∧
        package.marshal table.metadata = some data ∧
        after = catalog.afterWrite store table.location (data ++ ['\n']) number := by
  cases call with
  | createOrLoad uuid metadataPut hintPut =>
    simp only [perform] at performed
    rcases createOrLoadTable_eq_ok performed with
      ⟨loaded, rfl⟩ | ⟨path, data, missing, new, found, located, marshalled, rfl⟩
    · exact .inl ⟨by simp [pendingWrite, loaded], rfl, loaded⟩
    · exact .inr ⟨0, path, data, by decide, by simp [pendingWrite, missing, new], found, located,
        marshalled, rfl⟩
  | commit call =>
    simp only [perform] at performed
    rcases commitTable_eq_ok performed with
      ⟨current, loaded, ⟨planned, rfl, rfl⟩ | ⟨version, data, planned, marshalled, rfl⟩⟩
    · exact .inl ⟨by simp [pendingWrite, loaded, planned], rfl, loaded⟩
    · rcases planCommit_eq_write planned with ⟨_, _, path, found, number, rfl, inRange, sameLocation⟩
      exact .inr ⟨number, path, data, inRange, by simp [pendingWrite, loaded, planned], found,
        sameLocation, marshalled, rfl⟩

theorem pendingWrite_commit {call : CommitCall Requirement Update} {metadata : Metadata}
    {version : ℤ}
    (pending : catalog.pendingWrite package store (.commit call) = some (metadata, version)) :
    ∃ current, catalog.loadTable package catalog.identifier store = .ok current ∧
      version = Text.wrapInt64 (parseMetadataVersion current.location + 1) := by
  simp only [pendingWrite] at pending
  split at pending
  · next current loaded =>
      split at pending
      · next updated location planned version =>
          cases pending
          exact ⟨current, loaded, (planCommit_eq_write version).2.1⟩
      · cases pending
  · cases pending

theorem perform_loads_iff (performed : catalog.perform package store call = (after, .ok table)) :
    catalog.loadTable package catalog.identifier after = .ok table ↔
      catalog.Unobstructed package store call := by
  rcases perform_eq_ok performed with
    ⟨nothing, rfl, loaded⟩ | ⟨number, path, data, inRange, pending, found, located, marshalled, rfl⟩
  · simp [loaded, Unobstructed, nothing]
  · rcases table with ⟨metadata, location⟩
    dsimp only at pending found located marshalled ⊢
    subst located
    rw [loadTable_afterWrite_iff inRange marshalled]
    constructor
    · rintro ⟨rfl, unshadowed⟩ other version samePending
      rw [pending] at samePending
      cases samePending
      exact ⟨found, unshadowed⟩
    · intro unobstructed
      rcases unobstructed _ _ pending with ⟨sameFolder, unshadowed⟩
      rw [found] at sameFolder
      exact ⟨Option.some.inj sameFolder, unshadowed⟩

theorem historyOf_append (start : Store) (calls : List (Call Requirement Update))
    (call : Call Requirement Update) :
    catalog.historyOf package start (calls ++ [call]) =
      catalog.extend package (catalog.historyOf package start calls) call := by
  simp [historyOf]

theorem extend_loads_iff (history : History Metadata) (call : Call Requirement Update)
    (latest : (catalog.extend package history call).latest = some table) :
    catalog.loadTable package catalog.identifier (catalog.extend package history call).store =
        .ok table ↔
      catalog.Unobstructed package history.store call := by
  simp only [extend] at latest ⊢
  apply perform_loads_iff
  cases performed : catalog.perform package history.store call with
  | mk after result =>
    cases result with
    | error error => simp [performed, Except.toOption] at latest
    | ok returned => simpa [performed, Except.toOption] using latest

/-- Whatever calls were made and failed before, the table that the latest commit returned is
loaded until the next call iff the write of that commit was not obstructed. -/
theorem latestCommit_loads_iff (start : Store) (calls : List (Call Requirement Update))
    (call : CommitCall Requirement Update)
    (latest : (catalog.historyOf package start (calls ++ [.commit call])).latest = some table) :
    catalog.loadTable package catalog.identifier
        (catalog.historyOf package start (calls ++ [.commit call])).store = .ok table ↔
      catalog.Unobstructed package (catalog.historyOf package start calls).store
        (.commit call) := by
  rw [historyOf_append] at latest ⊢
  exact extend_loads_iff _ _ latest

end Latest

section Retry

/-- Metadata as the text of the updates that were applied to it. -/
def appendPackage (path : Text) : TablePackage Text Unit Char where
  validate _ _ := true
  updateTableMetadata metadata updates _ := some (metadata ++ updates)
  equals updated current := updated == current
  metadataPath _ := some path
  newMetadata _ := some []
  marshal := some
  parse data := some data.dropLast
  parse_marshal := by
    rintro metadata data ⟨⟩
    simp

def folderCatalog : Catalog where
  identifier := []
  tableLocation := "t".toList
  urlParse _ := none
  urlParse_join _ := rfl

def lowUuid : Uuid :=
  ⟨"00000000-0000-4000-8000-000000000000".toList, by decide⟩

def highUuid : Uuid :=
  ⟨"ffffffff-ffff-4fff-bfff-ffffffffffff".toList, by decide⟩

/-- Create the table, then commit `a`, which may fail to write the hint, and then `b`. -/
def retryCalls (firstUuid secondUuid : Uuid) (firstHintPut : PutOutcome) : List (Call Unit Char) :=
  [.createOrLoad lowUuid .ok .ok,
    .commit { requirements := [], updates := ['a'], uuid := firstUuid, metadataPut := .ok,
              hintPut := firstHintPut },
    .commit { requirements := [], updates := ['b'], uuid := secondUuid, metadataPut := .ok,
              hintPut := .ok }]

/-- The hint of the first commit is not written, so the second one writes the same version
again. It returns success, but the catalog loads the file that the first one left, which
sorts first. -/
theorem retry_loads_orphan :
    (folderCatalog.historyOf (appendPackage folderCatalog.metadataDir) []
        (retryCalls lowUuid highUuid (.failed false))).latest =
      some { metadata := ['b'],
             location := folderCatalog.metadataDir ++ '/' :: newMetadataName 1 highUuid } ∧
    folderCatalog.loadTable (appendPackage folderCatalog.metadataDir) folderCatalog.identifier
        (folderCatalog.historyOf (appendPackage folderCatalog.metadataDir) []
          (retryCalls lowUuid highUuid (.failed false))).store =
      .ok { metadata := ['a'],
            location := folderCatalog.metadataDir ++ '/' :: newMetadataName 1 lowUuid } := by
  decide +kernel

/-- With the UUIDs the other way round the retry is not obstructed. -/
theorem retry_unobstructed :
    (folderCatalog.historyOf (appendPackage folderCatalog.metadataDir) []
        (retryCalls highUuid lowUuid (.failed false))).latest =
      some { metadata := ['b'],
             location := folderCatalog.metadataDir ++ '/' :: newMetadataName 1 lowUuid } ∧
    folderCatalog.Unobstructed (appendPackage folderCatalog.metadataDir)
      (folderCatalog.historyOf (appendPackage folderCatalog.metadataDir) []
        ((retryCalls highUuid lowUuid (.failed false)).take 2)).store
      (.commit { requirements := [], updates := ['b'], uuid := lowUuid, metadataPut := .ok,
                 hintPut := .ok }) := by
  have latest :
      (folderCatalog.historyOf (appendPackage folderCatalog.metadataDir) []
        (retryCalls highUuid lowUuid (.failed false))).latest =
      some { metadata := ['b'],
             location := folderCatalog.metadataDir ++ '/' :: newMetadataName 1 lowUuid } := by
    decide +kernel
  refine ⟨latest, (latestCommit_loads_iff [] _ _ latest).mp ?_⟩
  decide +kernel

end Retry

end IotProxy.Iceberg.Catalog
