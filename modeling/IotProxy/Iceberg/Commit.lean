import IotProxy.Iceberg.Catalog

/-!
# What a successful commit leaves behind

The next reader takes the version from the hint, and the first file of that version in the listing.
It finds the new file exactly when this lies in the metadata folder of the catalog and nothing
stands in front of it (`loadTable_afterWrite_iff`): no file of the same version that sorts before
it, and fewer than 1000 entries that do.
-/

namespace IotProxy.Iceberg.Catalog

variable {Metadata Requirement Update : Type}
  {package : TablePackage Metadata Requirement Update} {catalog : Catalog} {store : Store}

def afterWrite (catalog : Catalog) (store : Store) (location content : Text) (version : ℤ) :
    Store :=
  (store.put (catalog.objectKey location) content).put
    (catalog.objectKey catalog.versionHintPath) (hintContent version)

/-- Nothing in the metadata folder keeps a reader of a version from a new file: the page of
the listing reaches it and no file of the version sorts before it. -/
def Unshadowed (catalog : Catalog) (store : Store) (version : ℤ) (name : Text) : Prop :=
  Listing.rank (store.entries catalog.folder) name < 1000 ∧
    ∀ other ∈ store.entries catalog.folder, isVersionFile version other → name ≤ other

instance (catalog : Catalog) (store : Store) (version : ℤ) (name : Text) :
    Decidable (catalog.Unshadowed store version name) :=
  inferInstanceAs (Decidable (_ ∧ _))

variable {location : Text} {version : ℤ} {after : Store}

theorem writeMetadata_eq_ok {metadata : Metadata} {metadataPut hintPut : PutOutcome}
    (written : catalog.writeMetadata package store metadata location version metadataPut hintPut =
      (after, .ok ())) :
    ∃ data, package.marshal metadata = some data ∧ metadataPut = .ok ∧ hintPut = .ok ∧
      after = catalog.afterWrite store location (data ++ ['\n']) version := by
  unfold writeMetadata at written
  cases marshalled : package.marshal metadata with
  | none => simp [marshalled] at written
  | some data =>
    cases metadataPut with
    | failed applied => simp [marshalled, putObject] at written
    | ok =>
      cases hintPut with
      | failed applied => simp [marshalled, putObject] at written
      | ok =>
        simp only [marshalled, putObject, Prod.mk.injEq, and_true] at written
        exact ⟨data, rfl, rfl, rfl, written.symm⟩

variable {uuid : Uuid}

theorem newTableMetadataFileLocation_eq_ok {metadata : Metadata}
    (located : newTableMetadataFileLocation package metadata version uuid = .ok location) :
    ∃ path, package.metadataPath metadata = some path ∧ 0 ≤ version ∧
      location = path ++ '/' :: newMetadataName version uuid := by
  unfold newTableMetadataFileLocation at located
  split at located
  · cases located
  · next path found =>
      split_ifs at located with negative
      cases located
      exact ⟨path, found, not_lt.mp negative, rfl⟩

theorem planCommit_eq_write {current : Table Metadata} {requirements : List Requirement}
    {updates : List Update} {updated : Metadata}
    (planned : planCommit package current requirements updates uuid =
      .ok (.write updated location version)) :
    package.updateTableMetadata current.metadata updates current.location = some updated ∧
      version = Text.wrapInt64 (parseMetadataVersion current.location + 1) ∧
      ∃ path, package.metadataPath updated = some path ∧
        ∃ number : ℕ, version = number ∧ number < 2 ^ 63 ∧
          location = path ++ '/' :: newMetadataName number uuid := by
  unfold planCommit at planned
  split_ifs at planned
  split at planned
  · cases planned
  · next candidate updatedTo =>
      split_ifs at planned
      · cases planned
      · dsimp only at planned
        split at planned
        · cases planned
        · next candidateLocation located =>
            cases planned
            rcases newTableMetadataFileLocation_eq_ok located with ⟨path, found, nonneg, rfl⟩
            refine ⟨updatedTo, rfl, path, found, ?_⟩
            have inRange :
                Text.wrapInt64 (parseMetadataVersion current.location + 1) < 2 ^ 63 := by
              simp only [Text.wrapInt64]
              omega
            rcases Int.eq_ofNat_of_zero_le nonneg with ⟨number, value⟩
            exact ⟨number, value, by omega, by rw [value]⟩

theorem planCommit_eq_unchanged {current : Table Metadata} {requirements : List Requirement}
    {updates : List Update}
    (planned : planCommit package current requirements updates uuid = .ok .unchanged) :
    ∃ updated, package.updateTableMetadata current.metadata updates current.location =
        some updated ∧ package.equals updated current.metadata := by
  unfold planCommit at planned
  split_ifs at planned
  split at planned
  · cases planned
  · next candidate updatedTo =>
      split_ifs at planned with same
      · exact ⟨candidate, updatedTo, same⟩
      · dsimp only at planned
        split at planned <;> cases planned

theorem commitTable_eq_ok {identifier : List Text} {call : CommitCall Requirement Update}
    {table : Table Metadata}
    (committed : catalog.commitTable package identifier store call = (after, .ok table)) :
    ∃ current, catalog.loadTable package identifier store = .ok current ∧
      (planCommit package current call.requirements call.updates call.uuid = .ok .unchanged ∧
          after = store ∧ table = current ∨
        ∃ version data, planCommit package current call.requirements call.updates call.uuid =
            .ok (.write table.metadata table.location version) ∧
          package.marshal table.metadata = some data ∧
          after = catalog.afterWrite store table.location (data ++ ['\n']) version) := by
  unfold commitTable at committed
  split at committed
  · cases committed
  · next current loaded =>
      refine ⟨current, loaded, ?_⟩
      split at committed
      · cases committed
      · next planned =>
          cases committed
          exact .inl ⟨planned, rfl, rfl⟩
      · next updated location version planned =>
          split at committed
          · cases committed
          · next written =>
              cases committed
              rcases writeMetadata_eq_ok written with ⟨data, marshalled, _, _, rfl⟩
              exact .inr ⟨version, data, planned, marshalled, rfl⟩

theorem createOrLoadTable_eq_ok {metadataPut hintPut : PutOutcome} {table : Table Metadata}
    (returned : catalog.createOrLoadTable package store uuid metadataPut hintPut =
      (after, .ok table)) :
    catalog.loadTable package catalog.identifier store = .ok table ∧ after = store ∨
      ∃ path data, catalog.loadTable package catalog.identifier store = .error .noSuchTable ∧
        package.newMetadata catalog.tableLocation = some table.metadata ∧
        package.metadataPath table.metadata = some path ∧
        table.location = path ++ '/' :: newMetadataName 0 uuid ∧
        package.marshal table.metadata = some data ∧
        after = catalog.afterWrite store table.location (data ++ ['\n']) 0 := by
  unfold createOrLoadTable at returned
  split at returned
  · next loaded =>
      cases returned
      exact .inl ⟨loaded, rfl⟩
  · next error failed =>
      by_cases missing : error = .noSuchTable
      · subst missing
        rw [if_neg (by simp)] at returned
        cases new : package.newMetadata catalog.tableLocation with
        | none => simp [new] at returned
        | some metadata =>
          simp only [new] at returned
          split at returned
          · cases returned
          · next location located =>
              split at returned
              · cases returned
              · next written =>
                  cases returned
                  rcases writeMetadata_eq_ok written with ⟨data, marshalled, _, _, rfl⟩
                  rcases newTableMetadataFileLocation_eq_ok located with ⟨path, found, _, rfl⟩
                  exact .inr ⟨path, data, failed, rfl, found, rfl, marshalled, rfl⟩
      · -- any other error is passed on
        rw [if_pos missing] at returned
        cases returned

section AfterWrite

variable {path data : Text} {number : ℕ} {uuid : Uuid} {updated : Metadata}

theorem readHint_afterWrite {content : Text}
    (lower : -2 ^ 63 ≤ version) (upper : version < 2 ^ 63) :
    catalog.readHint (catalog.afterWrite store location content version) = .ok version := by
  have blank : Text.isSpace '\n' = true := by decide
  simp [readHint, afterWrite, hintContent, Text.trimSpace_append_of_space blank,
    Text.trimSpace_itoa, Text.atoi_itoa lower upper]

theorem objectKey_newMetadataName (number : ℕ) (uuid : Uuid) :
    catalog.objectKey (catalog.metadataDir ++ '/' :: newMetadataName number uuid) =
      catalog.folder ++ newMetadataName number uuid :=
  catalog.objectKey_join (plainName_newMetadataName number uuid)

theorem newMetadataName_lt_versionHint (number : ℕ) (uuid : Uuid) :
    newMetadataName number uuid < "version-hint.text".toList :=
  newMetadataName_lt_cons number uuid _ (by decide)

theorem isVersionFile_versionHint (version : ℤ) :
    isVersionFile version "version-hint.text".toList = false := by
  simp only [isVersionFile, Bool.and_eq_false_iff]
  exact .inr rfl

theorem entries_afterWrite (content : Text) (version : ℤ) :
    (catalog.afterWrite store (catalog.metadataDir ++ '/' :: newMetadataName number uuid) content
        version).entries catalog.folder =
      "version-hint.text".toList :: newMetadataName number uuid :: store.entries catalog.folder := by
  rw [afterWrite, objectKey_versionHintPath, objectKey_newMetadataName,
    Store.entries_put versionHint_plain.not_mem,
    Store.entries_put (plainName_newMetadataName number uuid).not_mem]

theorem findMetadata_afterWrite_iff (content : Text) (version : ℤ) :
    catalog.findMetadata (catalog.afterWrite store
        (catalog.metadataDir ++ '/' :: newMetadataName number uuid) content version) number =
      .ok (catalog.metadataDir ++ '/' :: newMetadataName number uuid) ↔
    catalog.Unshadowed store number (newMetadataName number uuid) := by
  have belowHint := newMetadataName_lt_versionHint number uuid
  rw [findMetadata_eq_ok_iff, entries_afterWrite]
  constructor
  · rintro ⟨name, sameLocation, _, onPage, _, least⟩
    have sameName : name = newMetadataName number uuid := by
      simpa using sameLocation.symm
    subst sameName
    rw [Listing.rank_cons_of_le belowHint.le, Listing.rank_cons_of_le le_rfl] at onPage
    exact ⟨onPage, fun other mem => least other (by simp [mem])⟩
  · rintro ⟨onPage, least⟩
    refine ⟨_, rfl, by simp, ?_, isVersionFile_newMetadataName number uuid, ?_⟩
    · rwa [Listing.rank_cons_of_le belowHint.le, Listing.rank_cons_of_le le_rfl]
    · intro other mem versionFile
      rcases List.mem_cons.mp mem with rfl | mem
      · rw [isVersionFile_versionHint] at versionFile
        cases versionFile
      · rcases List.mem_cons.mp mem with rfl | mem
        · exact le_rfl
        · exact least other mem versionFile

theorem loadTable_afterWrite_iff (inRange : number < 2 ^ 63)
    (marshalled : package.marshal updated = some data) :
    catalog.loadTable package catalog.identifier (catalog.afterWrite store
        (path ++ '/' :: newMetadataName number uuid) (data ++ ['\n']) number) =
      .ok { metadata := updated, location := path ++ '/' :: newMetadataName number uuid } ↔
    path = catalog.metadataDir ∧ catalog.Unshadowed store number (newMetadataName number uuid) := by
  have hint : catalog.readHint (catalog.afterWrite store
      (path ++ '/' :: newMetadataName number uuid) (data ++ ['\n']) number) = .ok (number : ℤ) :=
    readHint_afterWrite (by omega) (by omega)
  rw [loadTable_eq_ok_iff, hint]
  simp only [true_and, Except.ok.injEq, exists_eq_left']
  constructor
  · rintro ⟨found, _⟩
    rcases findMetadata_eq_ok_iff.mp found with ⟨name, sameLocation, _, _, versionFile, _⟩
    have sameName : newMetadataName number uuid = name := by
      rw [← baseName_join path (plainName_newMetadataName number uuid).not_mem, sameLocation,
        baseName_join _ (plainName_of_isVersionFile versionFile).not_mem]
    subst sameName
    have samePath : path = catalog.metadataDir := by simpa using sameLocation
    subst samePath
    exact ⟨rfl, (findMetadata_afterWrite_iff _ _).mp found⟩
  · rintro ⟨rfl, unshadowed⟩
    refine ⟨(findMetadata_afterWrite_iff _ _).mpr unshadowed, ?_⟩
    have otherKey : catalog.folder ++ newMetadataName number uuid ≠
        catalog.folder ++ "version-hint.text".toList := by
      intro same
      exact (newMetadataName_lt_versionHint number uuid).ne (List.append_cancel_left same)
    rw [afterWrite, objectKey_versionHintPath, objectKey_newMetadataName,
      Store.get_put_of_ne otherKey, Store.get_put_self]
    exact package.parse_marshal marshalled

end AfterWrite

end IotProxy.Iceberg.Catalog
