import IotProxy.Iceberg.History

/-!
# Histories without failures

Every call returns a table. If the metadata folder was empty and all metadata files go into it, what
the catalog loads is a matter of counting: the folder holds one file for every version, and the page
of the listing reaches the newest one iff at most 1000 files have been written
(`readYourWrites_iff`).
-/

namespace IotProxy.Iceberg.Catalog

open List

variable {Metadata Requirement Update : Type}

section Model

variable (package : TablePackage Metadata Requirement Update) (catalog : Catalog)

def AllReturn : Store → List (Call Requirement Update) → Prop
  | _, [] => True
  | store, call :: calls =>
    (catalog.perform package store call).2.isOk ∧
      AllReturn (catalog.perform package store call).1 calls

def sessionCalls (uuid : Uuid) (commits : List (CommitCall Requirement Update)) :
    List (Call Requirement Update) :=
  .createOrLoad uuid .ok .ok :: commits.map .commit

def writeCount : Store → List (Call Requirement Update) → ℕ
  | _, [] => 0
  | store, call :: calls =>
    (if (catalog.pendingWrite package store call).isSome then 1 else 0) +
      writeCount (catalog.perform package store call).1 calls

def LastUnobstructed (start : Store) (calls : List (Call Requirement Update)) : Prop :=
  ∀ earlier call, calls = earlier ++ [call] →
    catalog.Unobstructed package (catalog.historyOf package start earlier).store call

end Model

def Numbered (catalog : Catalog) (store : Store) (count : ℕ) : Prop :=
  ∃ uuids : ℕ → Uuid, ∀ entry, entry ≠ "version-hint.text".toList →
    (entry ∈ store.entries catalog.folder ↔
      ∃ number < count, entry = newMetadataName number (uuids number))

/-- The store after version `number` of a table was written into a folder that held the
versions below it. -/
structure Grown (package : TablePackage Metadata Requirement Update) (catalog : Catalog)
    (store : Store) (table : Table Metadata) (number : ℕ) : Prop where
  written : ∃ earlier uuid data, catalog.Numbered earlier number ∧
    table.location = catalog.metadataDir ++ '/' :: newMetadataName number uuid ∧
    package.marshal table.metadata = some data ∧
    store = catalog.afterWrite earlier table.location (data ++ ['\n']) number
  bounded : number ≤ 1000

variable {uuid : Uuid} {count : ℕ}

section Counting

variable {package : TablePackage Metadata Requirement Update} {catalog : Catalog} {store : Store}

theorem newMetadataName_lt {left right : ℕ} {leftUuid rightUuid : Uuid} (lt : left < right)
    (fits : right < 10 ^ 5) : newMetadataName left leftUuid < newMetadataName right rightUuid :=
  Text.zeroPadded_append_lt lt fits

theorem eq_of_isVersionFile {version number : ℕ}
    (versionFile : isVersionFile version (newMetadataName number uuid) = true) :
    version = number := by
  simp only [isVersionFile, Bool.and_eq_true, isPrefixOf_iff_prefix] at versionFile
  rcases versionFile.1 with ⟨rest, same⟩
  have digits := congrArg (fun name => (List.span Char.isDigit name).1) same
  simp only [newMetadataName, append_assoc, singleton_append,
    span_isDigit (Text.zeroPadded_all_isDigit _) (by decide : '-'.isDigit = false)] at digits
  exact Text.zeroPadded_injective digits

theorem Numbered.empty (nothing : store.entries catalog.folder = []) : catalog.Numbered store 0 :=
  ⟨fun _ => ⟨"00000000-0000-4000-8000-000000000000".toList, by decide⟩, by simp [nothing]⟩

theorem Numbered.rank_eq (numbered : catalog.Numbered store count)
    (fits : count < 10 ^ 5) (uuid : Uuid) :
    Listing.rank (store.entries catalog.folder) (newMetadataName count uuid) = count := by
  rcases numbered with ⟨uuids, entries⟩
  have below : ∀ entry, entry ∈ (Finset.range count).image
      (fun number : ℕ => newMetadataName number (uuids number)) ↔
        entry ∈ store.entries catalog.folder ∧ entry < newMetadataName count uuid := by
    intro entry
    simp only [Finset.mem_image, Finset.mem_range]
    constructor
    · rintro ⟨number, smaller, rfl⟩
      have notHint := (newMetadataName_lt_versionHint number (uuids number)).ne
      exact ⟨(entries _ notHint).mpr ⟨number, smaller, rfl⟩, newMetadataName_lt smaller fits⟩
    · rintro ⟨mem, lt⟩
      have notHint : entry ≠ "version-hint.text".toList := by
        rintro rfl
        exact lt_asymm lt (newMetadataName_lt_versionHint count uuid)
      rcases (entries entry notHint).mp mem with ⟨number, smaller, rfl⟩
      exact ⟨number, smaller, rfl⟩
  rw [Listing.rank_eq_card below, Finset.card_image_of_injOn, Finset.card_range]
  intro left leftMem right rightMem same
  simp only [Finset.coe_range, Set.mem_Iio] at leftMem rightMem
  rcases lt_trichotomy left right with lt | eq | gt
  · exact absurd same (newMetadataName_lt lt (rightMem.trans fits)).ne
  · exact eq
  · exact absurd same (newMetadataName_lt gt (leftMem.trans fits)).ne'

theorem Numbered.not_versionFile (numbered : catalog.Numbered store count)
    {other : Text} (mem : other ∈ store.entries catalog.folder) :
    isVersionFile count other = false := by
  rcases numbered with ⟨uuids, entries⟩
  by_cases hint : other = "version-hint.text".toList
  · rw [hint]
    exact isVersionFile_versionHint count
  · rcases (entries other hint).mp mem with ⟨number, smaller, rfl⟩
    by_contra versionFile
    have same := eq_of_isVersionFile (Bool.not_eq_false _ ▸ versionFile)
    omega

theorem Numbered.unshadowed_iff (numbered : catalog.Numbered store count)
    (fits : count < 10 ^ 5) (uuid : Uuid) :
    catalog.Unshadowed store count (newMetadataName count uuid) ↔ count < 1000 := by
  rw [Unshadowed, numbered.rank_eq fits uuid, and_iff_left]
  intro other mem versionFile
  rw [numbered.not_versionFile mem] at versionFile
  cases versionFile

theorem Numbered.afterWrite (numbered : catalog.Numbered store count) (uuid : Uuid)
    (content : Text) (version : ℤ) :
    catalog.Numbered (catalog.afterWrite store
      (catalog.metadataDir ++ '/' :: newMetadataName count uuid) content version) (count + 1) := by
  rcases numbered with ⟨uuids, entries⟩
  refine ⟨Function.update uuids count uuid, ?_⟩
  intro entry notHint
  rw [entries_afterWrite, mem_cons, or_iff_right notHint, mem_cons, entries entry notHint]
  constructor
  · rintro (rfl | ⟨number, smaller, rfl⟩)
    · exact ⟨count, Nat.lt_succ_self count, by simp⟩
    · exact ⟨number, Nat.lt_succ_of_lt smaller, by rw [Function.update_of_ne smaller.ne]⟩
  · rintro ⟨number, smaller, rfl⟩
    rcases Nat.lt_succ_iff_lt_or_eq.mp smaller with lt | rfl
    · exact .inr ⟨number, lt, by rw [Function.update_of_ne lt.ne]⟩
    · exact .inl (by simp)

end Counting

section Growing

variable {package : TablePackage Metadata Requirement Update} {catalog : Catalog} {store : Store}
  {table : Table Metadata} {number : ℕ}

theorem Grown.loads_iff (grown : Grown package catalog store table number)
    {other : Table Metadata} :
    catalog.loadTable package catalog.identifier store = .ok other ↔
      other = table ∧ number < 1000 := by
  rcases grown with ⟨⟨earlier, uuid, data, numbered, located, marshalled, rfl⟩, bounded⟩
  rcases table with ⟨metadata, location⟩
  dsimp only at located marshalled ⊢
  subst located
  have fits : number < 10 ^ 5 := by omega
  have reached : catalog.Unshadowed earlier number (newMetadataName number uuid) ↔ number < 1000 :=
    numbered.unshadowed_iff fits uuid
  have loads : number < 1000 → catalog.loadTable package catalog.identifier
      (catalog.afterWrite earlier (catalog.metadataDir ++ '/' :: newMetadataName number uuid)
        (data ++ ['\n']) number) =
      .ok ⟨metadata, catalog.metadataDir ++ '/' :: newMetadataName number uuid⟩ := fun onPage =>
    (loadTable_afterWrite_iff (by omega) marshalled).mpr ⟨rfl, reached.mpr onPage⟩
  constructor
  · intro loaded
    rcases loadTable_eq_ok_iff.mp loaded with ⟨_, version, hint, found, _⟩
    rw [readHint_afterWrite (by omega) (by omega)] at hint
    cases hint
    rcases findMetadata_eq_ok_iff.mp found with ⟨name, sameLocation, mem, _, versionFile, _⟩
    rw [entries_afterWrite, mem_cons, mem_cons] at mem
    rcases mem with rfl | rfl | mem
    · rw [isVersionFile_versionHint] at versionFile
      cases versionFile
    · rw [sameLocation] at found
      have onPage := reached.mp ((findMetadata_afterWrite_iff _ _).mp found)
      rw [loads onPage] at loaded
      exact ⟨(Except.ok.inj loaded).symm, onPage⟩
    · rw [numbered.not_versionFile mem] at versionFile
      cases versionFile
  · rintro ⟨rfl, onPage⟩
    exact loads onPage

theorem Grown.commit {call : CommitCall Requirement Update} {after : Store}
    {returned : Table Metadata} (grown : Grown package catalog store table number)
    (inFolder : ∀ metadata, package.metadataPath metadata = some catalog.metadataDir)
    (performed : catalog.perform package store (.commit call) = (after, .ok returned)) :
    Grown package catalog after returned
      (number + if (catalog.pendingWrite package store (.commit call)).isSome then 1 else 0) := by
  rcases perform_eq_ok performed with
    ⟨nothing, rfl, loaded⟩ | ⟨next, path, data, inRange, pending, found, located, marshalled, rfl⟩
  · rw [nothing, (grown.loads_iff.mp loaded).1]
    exact grown
  · rcases pendingWrite_commit pending with ⟨current, loaded, nextVersion⟩
    rcases grown.loads_iff.mp loaded with ⟨rfl, onPage⟩
    rcases grown.written with ⟨earlier, uuid, earlierData, numbered, currentLocation, _, sameStore⟩
    rw [currentLocation, parseMetadataVersion_newMetadataName _ uuid (by omega)] at nextVersion
    have next_eq : next = number + 1 := by
      simp only [Text.wrapInt64] at nextVersion
      omega
    subst next_eq
    rw [inFolder] at found
    cases found
    simp only [pending, Option.isSome_some, if_true]
    refine ⟨⟨store, _, data, ?_, located, marshalled, rfl⟩, onPage⟩
    rw [sameStore, currentLocation]
    exact numbered.afterWrite uuid _ _

theorem Grown.create {metadataPut hintPut : PutOutcome} {after : Store}
    (fresh : store.entries catalog.folder = [])
    (inFolder : ∀ metadata, package.metadataPath metadata = some catalog.metadataDir)
    (performed : catalog.perform package store (.createOrLoad uuid metadataPut hintPut) =
      (after, .ok table)) :
    Grown package catalog after table 0 ∧
      (catalog.pendingWrite package store (.createOrLoad uuid metadataPut hintPut)).isSome := by
  rcases perform_eq_ok performed with
    ⟨_, _, loaded⟩ | ⟨number, path, data, _, pending, found, located, marshalled, rfl⟩
  · -- an empty folder has no table to load
    rcases loadTable_eq_ok_iff.mp loaded with ⟨_, version, _, listed, _⟩
    rcases findMetadata_eq_ok_iff.mp listed with ⟨name, _, mem, _⟩
    rw [fresh] at mem
    cases mem
  · have first : number = 0 := by
      simp only [pendingWrite] at pending
      split at pending
      · simp only [Option.map_eq_some_iff, Prod.mk.injEq] at pending
        rcases pending with ⟨_, _, _, zero⟩
        omega
      · cases pending
    subst first
    rw [inFolder] at found
    cases found
    refine ⟨⟨⟨store, uuid, data, .empty fresh, located, marshalled, rfl⟩, by omega⟩, ?_⟩
    rw [pending]
    rfl

theorem Grown.commits (inFolder : ∀ metadata, package.metadataPath metadata =
      some catalog.metadataDir) (calls : List (CommitCall Requirement Update))
    (grown : Grown package catalog store table number)
    (allReturn : catalog.AllReturn package store (calls.map .commit)) :
    ∃ returned, ((calls.map Call.commit).foldl (catalog.extend package)
        { store, latest := some table }).latest = some returned ∧
      Grown package catalog ((calls.map Call.commit).foldl (catalog.extend package)
        { store, latest := some table }).store returned
        (number + catalog.writeCount package store (calls.map .commit)) := by
  induction calls generalizing store table number with
  | nil => exact ⟨table, rfl, grown⟩
  | cons call calls ih =>
    simp only [map_cons, AllReturn] at allReturn
    cases performed : catalog.perform package store (.commit call) with
    | mk after result =>
      cases result with
      | error error => simp [performed, Except.isOk, Except.toBool] at allReturn
      | ok returned =>
        rw [performed] at allReturn
        have next := ih (grown.commit inFolder performed) allReturn.2
        simpa [extend, performed, Except.toOption, writeCount, Nat.add_assoc] using next

end Growing

variable {store : Store}

section ReadYourWrites

variable {package : TablePackage Metadata Requirement Update} {catalog : Catalog}

theorem AllReturn.latest_isSome {calls : List (Call Requirement Update)}
    {call : Call Requirement Update} (latest : Option (Table Metadata))
    (allReturn : catalog.AllReturn package store (calls ++ [call])) :
    ((calls ++ [call]).foldl (catalog.extend package) { store, latest }).latest.isSome := by
  induction calls generalizing store latest with
  | nil =>
    simp only [nil_append, AllReturn, and_true] at allReturn
    simp only [nil_append, foldl_cons, foldl_nil, extend]
    cases performed : (catalog.perform package store call).2 with
    | error error => simp [performed, Except.isOk, Except.toBool] at allReturn
    | ok returned => rfl
  | cons first calls ih => exact ih _ allReturn.2

theorem Grown.session {start : Store} {commits : List (CommitCall Requirement Update)}
    (fresh : start.entries catalog.folder = [])
    (inFolder : ∀ metadata, package.metadataPath metadata = some catalog.metadataDir)
    (allReturn : catalog.AllReturn package start (sessionCalls uuid commits)) :
    ∃ number table, catalog.writeCount package start (sessionCalls uuid commits) = number + 1 ∧
      (catalog.historyOf package start (sessionCalls uuid commits)).latest = some table ∧
      Grown package catalog (catalog.historyOf package start (sessionCalls uuid commits)).store
        table number := by
  simp only [sessionCalls, AllReturn] at allReturn
  cases performed : catalog.perform package start (.createOrLoad uuid .ok .ok) with
  | mk after result =>
    cases result with
    | error error => simp [performed, Except.isOk, Except.toBool] at allReturn
    | ok created =>
      rw [performed] at allReturn
      rcases Grown.create fresh inFolder performed with ⟨grown, pending⟩
      rcases Grown.commits inFolder commits grown allReturn.2 with ⟨table, latest, final⟩
      refine ⟨catalog.writeCount package after (commits.map .commit), table, ?_, ?_, ?_⟩
      · simp [sessionCalls, writeCount, pending, performed, Nat.add_comm]
      · simpa [historyOf, sessionCalls, extend, performed, Except.toOption] using latest
      · simpa [historyOf, sessionCalls, extend, performed, Except.toOption] using final

/-- In a session without failures the catalog loads what the last call returned iff the write
of that call was not obstructed. In a folder that was empty, into which all metadata files go,
it does so iff at most 1000 metadata files have been written. -/
theorem readYourWrites_iff (start : Store) (uuid : Uuid)
    (commits : List (CommitCall Requirement Update))
    (allReturn : catalog.AllReturn package start (sessionCalls uuid commits)) :
    ∃ table, (catalog.historyOf package start (sessionCalls uuid commits)).latest = some table ∧
      (catalog.loadTable package catalog.identifier
          (catalog.historyOf package start (sessionCalls uuid commits)).store = .ok table ↔
        catalog.LastUnobstructed package start (sessionCalls uuid commits)) ∧
      (start.entries catalog.folder = [] →
        (∀ metadata, package.metadataPath metadata = some catalog.metadataDir) →
        (catalog.loadTable package catalog.identifier
            (catalog.historyOf package start (sessionCalls uuid commits)).store = .ok table ↔
          catalog.writeCount package start (sessionCalls uuid commits) ≤ 1000)) := by
  have nonempty : sessionCalls uuid commits ≠ [] := cons_ne_nil _ _
  have shape := dropLast_append_getLast nonempty
  have isSome : (catalog.historyOf package start (sessionCalls uuid commits)).latest.isSome := by
    rw [← shape] at allReturn ⊢
    exact allReturn.latest_isSome none
  rcases Option.isSome_iff_exists.mp isSome with ⟨table, latest⟩
  refine ⟨table, latest, ?_, ?_⟩
  · rw [← shape, historyOf_append] at latest ⊢
    rw [extend_loads_iff _ _ latest]
    constructor
    · intro unobstructed earlier call same
      rcases append_inj' same rfl with ⟨rfl, sameCall⟩
      cases sameCall
      exact unobstructed
    · intro unobstructed
      exact unobstructed _ _ rfl
  · intro fresh inFolder
    rcases Grown.session fresh inFolder allReturn with ⟨number, returned, count, same, grown⟩
    rw [latest] at same
    cases same
    rw [grown.loads_iff, count]
    simp only [true_and]
    omega

end ReadYourWrites

section Thousand

def sampleCommit : CommitCall Unit Char :=
  { requirements := [], updates := ['x'], uuid := lowUuid, metadataPut := .ok, hintPut := .ok }

theorem sampleCommit_returns {table : Table Text} {number : ℕ}
    (grown : Grown (appendPackage folderCatalog.metadataDir) folderCatalog store table number)
    (onPage : number < 1000) :
    ∃ after returned, folderCatalog.perform (appendPackage folderCatalog.metadataDir) store
        (.commit sampleCommit) = (after, .ok returned) ∧
      (folderCatalog.pendingWrite (appendPackage folderCatalog.metadataDir) store
        (.commit sampleCommit)).isSome := by
  have loaded := grown.loads_iff.mpr ⟨rfl, onPage⟩
  rcases grown.written with ⟨_, uuid, _, _, location, _, _⟩
  have version : Text.wrapInt64 (parseMetadataVersion table.location + 1) = number + 1 := by
    rw [location, parseMetadataVersion_newMetadataName _ uuid (by omega), Text.wrapInt64]
    omega
  have planned : planCommit (appendPackage folderCatalog.metadataDir) table [] ['x'] lowUuid =
      .ok (.write (table.metadata ++ ['x']) (folderCatalog.metadataDir ++
        '/' :: newMetadataName (number + 1) lowUuid) (number + 1)) := by
    have nonneg : ¬ ((number : ℤ) + 1 < 0) := by omega
    simp [planCommit, appendPackage, version, newTableMetadataFileLocation, nonneg]
  have pending : (folderCatalog.pendingWrite (appendPackage folderCatalog.metadataDir) store
      (.commit sampleCommit)).isSome := by
    simp [pendingWrite, loaded, sampleCommit, planned]
  have performed : folderCatalog.perform (appendPackage folderCatalog.metadataDir) store
      (.commit sampleCommit) =
    (folderCatalog.afterWrite store (folderCatalog.metadataDir ++
        '/' :: newMetadataName (number + 1) lowUuid) (table.metadata ++ ['x'] ++ ['\n'])
        (number + 1),
      .ok ⟨table.metadata ++ ['x'], folderCatalog.metadataDir ++
        '/' :: newMetadataName (number + 1) lowUuid⟩) := by
    simp only [perform, commitTable, loaded, sampleCommit, planned]
    rfl
  exact ⟨_, _, performed, pending⟩

theorem sampleCommits_return {table : Table Text} {number : ℕ}
    (grown : Grown (appendPackage folderCatalog.metadataDir) folderCatalog store table number)
    (onPage : number + count ≤ 1000) :
    folderCatalog.AllReturn (appendPackage folderCatalog.metadataDir) store
        ((List.replicate count sampleCommit).map .commit) ∧
      folderCatalog.writeCount (appendPackage folderCatalog.metadataDir) store
        ((List.replicate count sampleCommit).map .commit) = count := by
  induction count generalizing store table number with
  | zero => exact ⟨trivial, rfl⟩
  | succ count ih =>
    rcases sampleCommit_returns grown (by omega) with ⟨after, returned, performed, pending⟩
    have next := grown.commit (fun _ => rfl) performed
    simp only [pending, if_true] at next
    rcases ih next (by omega) with ⟨allReturn, writes⟩
    simp only [replicate_succ, map_cons, AllReturn, writeCount, performed, pending, if_true]
    exact ⟨⟨rfl, allReturn⟩, by omega⟩

/-- A thousand commits to a new table all return success, and then the catalog does not load
what the last one wrote. -/
theorem thousandth_commit_unreadable :
    folderCatalog.AllReturn (appendPackage folderCatalog.metadataDir) []
        (sessionCalls lowUuid (List.replicate 1000 sampleCommit)) ∧
      ∀ table, (folderCatalog.historyOf (appendPackage folderCatalog.metadataDir) []
          (sessionCalls lowUuid (List.replicate 1000 sampleCommit))).latest = some table →
        folderCatalog.loadTable (appendPackage folderCatalog.metadataDir) folderCatalog.identifier
          (folderCatalog.historyOf (appendPackage folderCatalog.metadataDir) []
            (sessionCalls lowUuid (List.replicate 1000 sampleCommit))).store ≠ .ok table := by
  have allReturn : folderCatalog.AllReturn (appendPackage folderCatalog.metadataDir) []
        (sessionCalls lowUuid (List.replicate 1000 sampleCommit)) ∧
      folderCatalog.writeCount (appendPackage folderCatalog.metadataDir) []
        (sessionCalls lowUuid (List.replicate 1000 sampleCommit)) = 1001 := by
    have isOk : (folderCatalog.perform (appendPackage folderCatalog.metadataDir) []
        (.createOrLoad lowUuid .ok .ok)).2.isOk := by decide +kernel
    cases performed : folderCatalog.perform (appendPackage folderCatalog.metadataDir) []
        (.createOrLoad lowUuid .ok .ok) with
    | mk after result =>
      rw [performed] at isOk
      cases result with
      | error error => cases isOk
      | ok created =>
        rcases Grown.create rfl (fun _ => rfl) performed with ⟨grown, pending⟩
        rcases sampleCommits_return grown (by omega : 0 + 1000 ≤ 1000) with ⟨commits, writes⟩
        simp only [sessionCalls, AllReturn, writeCount, performed, pending, if_true, writes]
        exact ⟨⟨rfl, commits⟩, trivial⟩
  refine ⟨allReturn.1, ?_⟩
  intro table latest loaded
  rcases Grown.session rfl (fun _ => rfl) allReturn.1 with ⟨number, returned, count, _, grown⟩
  have onPage := (grown.loads_iff.mp loaded).2
  omega

/-- The table is loaded after its first commit. -/
theorem first_commit_readable :
    folderCatalog.AllReturn (appendPackage folderCatalog.metadataDir) []
        (sessionCalls lowUuid [sampleCommit]) ∧
      ∃ table, folderCatalog.loadTable (appendPackage folderCatalog.metadataDir)
        folderCatalog.identifier (folderCatalog.historyOf
          (appendPackage folderCatalog.metadataDir) [] (sessionCalls lowUuid [sampleCommit])).store =
        .ok table := by
  have allReturn : folderCatalog.AllReturn (appendPackage folderCatalog.metadataDir) []
      (sessionCalls lowUuid [sampleCommit]) := by
    refine ⟨?_, ?_, trivial⟩
    · decide +kernel
    · decide +kernel
  rcases readYourWrites_iff [] lowUuid [sampleCommit] allReturn with ⟨table, _, _, counted⟩
  refine ⟨allReturn, table, (counted rfl (fun _ => rfl)).mpr ?_⟩
  decide +kernel

end Thousand

end IotProxy.Iceberg.Catalog
