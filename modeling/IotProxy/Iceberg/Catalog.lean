import IotProxy.Iceberg.ObjectStore
import IotProxy.Iceberg.MetadataName

/-!
# The Iceberg catalog

`icebergcatalog/catalog.go`: a table is a folder of metadata files named by version and a UUID, and
a version hint. A commit loads the current metadata, validates and updates it, writes the next
metadata file and then the hint; a reader takes the version of the hint and the first file of that
version in the sorted listing.

What the Iceberg library does with metadata is a parameter (`TablePackage`), of which only the JSON
round trip is assumed. So is `url.Parse`: a location may be a path or a URL, and names that are
appended to it are appended to its path. The key of a file in the metadata folder is then the
folder's key with the file's name appended (`Catalog.objectKey_join`).
-/

namespace IotProxy.Iceberg

/-- The operations of the Iceberg table library on metadata. `metadataPath` is the folder
the location provider of a table puts its metadata files into. -/
structure TablePackage (Metadata Requirement Update : Type) where
  validate : Requirement → Metadata → Bool
  updateTableMetadata : Metadata → List Update → Text → Option Metadata
  equals : Metadata → Metadata → Bool
  metadataPath : Metadata → Option Text
  newMetadata : Text → Option Metadata
  marshal : Metadata → Option Text
  parse : Text → Option Metadata
  parse_marshal : ∀ {metadata data}, marshal metadata = some data →
    parse (data ++ ['\n']) = some metadata

/-- Why a catalog call fails. `putFailed` also stands for a process that stops. -/
inductive CatalogError where
  | notExist
  | noSuchTable
  | invalidHint
  | versionNotFound (version : ℤ)
  | unreadableMetadata
  | requirementFailed
  | updateFailed
  | noLocationProvider
  | invalidVersion (version : ℤ)
  | marshalFailed
  | putFailed
deriving DecidableEq

structure Catalog where
  identifier : List Text
  tableLocation : Text
  urlParse : Text → Option Url
  urlParse_join : ∀ {names : List Text}, (∀ name ∈ names, PlainName name) →
    urlParse (tableLocation ++ names.flatMap ('/' :: ·)) =
      (urlParse tableLocation).map fun url =>
        { url with path := url.path ++ names.flatMap ('/' :: ·) }

structure Table (Metadata : Type) where
  metadata : Metadata
  location : Text
deriving DecidableEq

/-- The outcome of a put. A failed one may still have stored the object. -/
inductive PutOutcome where
  | ok
  | failed (applied : Bool)

inductive Plan (Metadata : Type) where
  | unchanged
  | write (updated : Metadata) (location : Text) (version : ℤ)

namespace Catalog

section Paths

variable (catalog : Catalog)

def objectKey (name : Text) : Text :=
  Iceberg.objectKey catalog.urlParse name

def objectPrefix (name : Text) : Text :=
  Iceberg.objectPrefix catalog.urlParse name

def metadataDir : Text :=
  catalog.tableLocation ++ "/metadata".toList

def versionHintPath : Text :=
  catalog.metadataDir ++ '/' :: "version-hint.text".toList

def folder : Text :=
  catalog.objectPrefix catalog.metadataDir

end Paths

section Keys

variable {name : Text}

theorem cleanElements_join (path : Text) (plain : PlainName name) :
    cleanElements (path ++ '/' :: name) = cleanElements path ++ [name] := by
  have kept (elements : List Text) : cleanElement elements name = name :: elements := by
    obtain ⟨char, last, word⟩ := plain.ends
    rw [cleanElement, if_neg, if_neg]
    · rintro rfl
      cases last
      exact absurd word (by decide)
    · rintro (rfl | rfl)
      · cases last
      · cases last
        exact absurd word (by decide)
  rw [cleanElements, List.splitOn_append_cons_self, List.splitOn_eq_singleton plain.not_mem,
    List.foldl_append, List.foldl_cons, kept, List.foldl_nil, List.reverse_cons, cleanElements]

theorem cleanPath_join (path : Text) (plain : PlainName name) :
    cleanPath (path ++ '/' :: name) = (cleanElements path).flatMap ('/' :: ·) ++ '/' :: name := by
  simp [cleanPath, cleanElements_join path plain]

theorem trimSlash_append {front : Text} (nonempty : front ≠ []) (rest : Text) :
    trimSlash (front ++ rest) = trimSlash front ++ rest := by
  cases front with
  | nil => exact absurd rfl nonempty
  | cons first front =>
    by_cases isSlash : first = '/'
    · rw [isSlash]
      rfl
    · simp [trimSlash, isSlash]

theorem metadata_plain : PlainName "metadata".toList where
  chars := plainChars_of_all (by decide)
  ends := ⟨'a', rfl, by decide⟩

variable (catalog : Catalog)

/-- The client finds the metadata folder and its files at the end of one path. -/
theorem exists_objectKey : ∃ front : Text, ∀ names : List Text, (∀ name ∈ names, PlainName name) →
    catalog.objectKey (catalog.metadataDir ++ names.flatMap ('/' :: ·)) =
      trimSlash (cleanPath (front ++ '/' :: "metadata".toList ++ names.flatMap ('/' :: ·))) := by
  have joined (names : List Text) (plain : ∀ name ∈ names, PlainName name) :=
    catalog.urlParse_join (List.forall_mem_cons.mpr ⟨metadata_plain, plain⟩)
  have located (names : List Text) : catalog.tableLocation ++
      ("metadata".toList :: names).flatMap ('/' :: ·) =
        catalog.metadataDir ++ names.flatMap ('/' :: ·) := by simp [metadataDir]
  simp only [located] at joined
  cases parsed : catalog.urlParse catalog.tableLocation with
  | none =>
    refine ⟨'/' :: catalog.tableLocation, fun names plain => ?_⟩
    rw [objectKey, Iceberg.objectKey, joined names plain, parsed]
    simp [metadataDir]
  | some url =>
    by_cases isPath : url.scheme = []
    · refine ⟨'/' :: catalog.tableLocation, fun names plain => ?_⟩
      rw [objectKey, Iceberg.objectKey, joined names plain, parsed]
      simp [metadataDir, isPath]
    · obtain ⟨front, isFront⟩ : ∃ front, ∀ rest : Text,
          '/' :: trimSlash (url.path ++ '/' :: rest) = front ++ '/' :: rest := by
        cases url.path with
        | nil => exact ⟨[], fun _ => rfl⟩
        | cons first path =>
          refine ⟨'/' :: trimSlash (first :: path), fun rest => ?_⟩
          rw [trimSlash_append (by simp), List.cons_append]
      refine ⟨front, fun names plain => ?_⟩
      rw [objectKey, Iceberg.objectKey, joined names plain, parsed]
      simp [isPath, isFront]

theorem objectKey_join (plain : PlainName name) :
    catalog.objectKey (catalog.metadataDir ++ '/' :: name) =
      catalog.objectPrefix catalog.metadataDir ++ name := by
  obtain ⟨front, keys⟩ := catalog.exists_objectKey
  have folder := keys [] (by simp)
  have file := keys [name] (by simpa using plain)
  simp only [List.flatMap_cons, List.flatMap_nil, List.append_nil] at folder file
  rw [cleanPath_join _ metadata_plain] at folder
  rw [cleanPath_join _ plain, cleanElements_join _ metadata_plain, List.flatMap_append,
    trimSlash_append (by simp), List.flatMap_singleton, ← folder] at file
  -- the key of the folder ends with a letter, so no slash is trimmed
  obtain ⟨key, isKey⟩ : ∃ key, catalog.objectKey catalog.metadataDir = key ++ ['a'] := by
    refine ⟨trimSlash ((cleanElements front).flatMap ('/' :: ·) ++ "/metadat".toList), ?_⟩
    rw [folder, ← trimSlash_append (by simp)]
    simp
  have isPrefix : catalog.objectPrefix catalog.metadataDir = key ++ ['a'] ++ ['/'] := by
    change Iceberg.objectKey catalog.urlParse catalog.metadataDir = _ at isKey
    rw [objectPrefix, Iceberg.objectPrefix, isKey, if_neg]
    · rw [List.rdropWhile_concat_neg _ _ _ (by decide)]
    · rintro (impossible | impossible)
      · simp at impossible
      · exact absurd (congrArg List.getLast? impossible) (by simp)
  rw [file, isKey, isPrefix]
  simp

end Keys

section Load

variable {Metadata Requirement Update : Type}
  (package : TablePackage Metadata Requirement Update) (catalog : Catalog)

def readHint (store : Store) : Except CatalogError ℤ :=
  match store.get (catalog.objectKey catalog.versionHintPath) with
  | none => .error .notExist
  | some data =>
    match Text.atoi (Text.trimSpace data) with
    | none => .error .invalidHint
    | some version => .ok version

def findMetadata (store : Store) (version : ℤ) : Except CatalogError Text :=
  match store.list catalog.folder with
  | none => .error .notExist
  | some files =>
    match (files.insertionSort (· ≤ ·)).find? (isVersionFile version) with
    | some name => .ok (catalog.metadataDir ++ '/' :: name)
    | none => .error (.versionNotFound version)

def currentMetadataLocation (store : Store) : Except CatalogError Text :=
  match catalog.readHint store with
  | .error error => .error error
  | .ok version => catalog.findMetadata store version

def newFromLocation (store : Store) (location : Text) : Except CatalogError (Table Metadata) :=
  match (store.get (catalog.objectKey location)).bind package.parse with
  | none => .error .unreadableMetadata
  | some metadata => .ok { metadata, location }

/-- `LoadTable`: the hint, the folder, and the metadata file. -/
def loadTable (identifier : List Text) (store : Store) : Except CatalogError (Table Metadata) :=
  if identifier ≠ catalog.identifier then .error .noSuchTable
  else
    match catalog.currentMetadataLocation store with
    | .error error => .error (if error = .notExist then .noSuchTable else error)
    | .ok location => catalog.newFromLocation package store location

end Load

section Commit

variable {Metadata Requirement Update : Type}
  (package : TablePackage Metadata Requirement Update) (catalog : Catalog)

def newTableMetadataFileLocation (metadata : Metadata) (version : ℤ) (uuid : Uuid) :
    Except CatalogError Text :=
  match package.metadataPath metadata with
  | none => .error .noLocationProvider
  | some path =>
    if version < 0 then .error (.invalidVersion version)
    else .ok (path ++ '/' :: newMetadataName version uuid)

/-- The part of `CommitTable` between its reads and its writes. -/
def planCommit (current : Table Metadata) (requirements : List Requirement)
    (updates : List Update) (uuid : Uuid) : Except CatalogError (Plan Metadata) :=
  if ¬ requirements.all (package.validate · current.metadata) then .error .requirementFailed
  else
    match package.updateTableMetadata current.metadata updates current.location with
    | none => .error .updateFailed
    | some updated =>
      if package.equals updated current.metadata then .ok .unchanged
      else
        let version := Text.wrapInt64 (parseMetadataVersion current.location + 1)
        match newTableMetadataFileLocation package updated version uuid with
        | .error error => .error error
        | .ok location => .ok (.write updated location version)

def putObject (store : Store) (path content : Text) : PutOutcome → Store × Bool
  | .ok => (store.put (catalog.objectKey path) content, true)
  | .failed applied =>
    (if applied then store.put (catalog.objectKey path) content else store, false)

def hintContent (version : ℤ) : Text :=
  Text.itoa version ++ ['\n']

/-- Put the metadata file and then the version hint. -/
def writeMetadata (store : Store) (metadata : Metadata) (location : Text) (version : ℤ)
    (metadataPut hintPut : PutOutcome) : Store × Except CatalogError Unit :=
  match package.marshal metadata with
  | none => (store, .error .marshalFailed)
  | some data =>
    match catalog.putObject store location (data ++ ['\n']) metadataPut with
    | (store, false) => (store, .error .putFailed)
    | (store, true) =>
      match catalog.putObject store catalog.versionHintPath (hintContent version) hintPut with
      | (store, false) => (store, .error .putFailed)
      | (store, true) => (store, .ok ())

structure CommitCall (Requirement Update : Type) where
  requirements : List Requirement
  updates : List Update
  uuid : Uuid
  metadataPut : PutOutcome
  hintPut : PutOutcome

/-- `CommitTable`: load, validate, update and write. -/
def commitTable (identifier : List Text) (store : Store) (call : CommitCall Requirement Update) :
    Store × Except CatalogError (Table Metadata) :=
  match catalog.loadTable package identifier store with
  | .error error => (store, .error error)
  | .ok current =>
    match planCommit package current call.requirements call.updates call.uuid with
    | .error error => (store, .error error)
    | .ok .unchanged => (store, .ok current)
    | .ok (.write updated location version) =>
      match catalog.writeMetadata package store updated location version call.metadataPut
          call.hintPut with
      | (store, .error error) => (store, .error error)
      | (store, .ok ()) => (store, .ok { metadata := updated, location })

/-- Load the table, or create it at version 0. -/
def createOrLoadTable (store : Store) (uuid : Uuid) (metadataPut hintPut : PutOutcome) :
    Store × Except CatalogError (Table Metadata) :=
  match catalog.loadTable package catalog.identifier store with
  | .ok table => (store, .ok table)
  | .error error =>
    if error ≠ .noSuchTable then (store, .error error)
    else
      match package.newMetadata catalog.tableLocation with
      | none => (store, .error .updateFailed)
      | some metadata =>
        match newTableMetadataFileLocation package metadata 0 uuid with
        | .error error => (store, .error error)
        | .ok location =>
          match catalog.writeMetadata package store metadata location 0 metadataPut
              hintPut with
          | (store, .error error) => (store, .error error)
          | (store, .ok ()) => (store, .ok { metadata, location })

end Commit

section LoadLemmas

variable {Metadata Requirement Update : Type}
  {package : TablePackage Metadata Requirement Update} {catalog : Catalog} {store : Store}

theorem versionHint_plain : PlainName "version-hint.text".toList where
  chars := plainChars_of_all (by decide)
  ends := ⟨'t', rfl, by decide⟩

theorem objectKey_versionHintPath :
    catalog.objectKey catalog.versionHintPath = catalog.folder ++ "version-hint.text".toList :=
  catalog.objectKey_join versionHint_plain

/-- A reader of a version finds the least of its files, if the page of the listing reaches
it. -/
theorem findMetadata_eq_ok_iff {version : ℤ} {location : Text} :
    catalog.findMetadata store version = .ok location ↔
      ∃ name, location = catalog.metadataDir ++ '/' :: name ∧
        name ∈ store.entries catalog.folder ∧
        Listing.rank (store.entries catalog.folder) name < 1000 ∧ isVersionFile version name ∧
        ∀ other ∈ store.entries catalog.folder, isVersionFile version other → name ≤ other := by
  have objects : ∀ entry, isVersionFile version entry = true → Store.isObject entry = true := by
    intro entry versionFile
    have plain := plainName_of_isVersionFile versionFile
    rcases plain.ends with ⟨char, last, _⟩
    have nonempty : entry ≠ [] := by
      rintro rfl
      cases last
    simp [Store.isObject, nonempty, plain.not_mem]
  unfold findMetadata
  cases listed : store.list catalog.folder with
  | none =>
    simp only [reduceCtorEq, false_iff]
    rintro ⟨name, _, mem, _⟩
    have isSome := Store.list_isSome mem
    simp [listed] at isSome
  | some files =>
    have found := Store.find?_list_eq_some_iff objects listed
    constructor
    · intro result
      dsimp only at result
      split at result
      · next name first =>
          cases result
          exact ⟨name, rfl, (found name).mp first⟩
      · cases result
    · rintro ⟨name, rfl, isFirst⟩
      simp only [(found name).mpr isFirst]

theorem loadTable_eq_ok_iff {identifier : List Text} {table : Table Metadata} :
    catalog.loadTable package identifier store = .ok table ↔
      identifier = catalog.identifier ∧ ∃ version, catalog.readHint store = .ok version ∧
        catalog.findMetadata store version = .ok table.location ∧
        (store.get (catalog.objectKey table.location)).bind package.parse =
          some table.metadata := by
  unfold loadTable currentMetadataLocation newFromLocation
  by_cases sameIdentifier : identifier = catalog.identifier
  · simp only [sameIdentifier, ne_eq, not_true_eq_false, if_false, true_and]
    cases catalog.readHint store with
    | error error => simp
    | ok version =>
      simp only [Except.ok.injEq, exists_eq_left']
      cases found : catalog.findMetadata store version with
      | error error => simp
      | ok location =>
        simp only [Except.ok.injEq]
        constructor
        · intro loaded
          split at loaded
          · cases loaded
          · next metadata parsed =>
              cases loaded
              exact ⟨rfl, parsed⟩
        · rintro ⟨rfl, parsed⟩
          rw [parsed]
  · simp [sameIdentifier]

theorem newFromLocation_of_loadTable {identifier : List Text} {table : Table Metadata}
    (loaded : catalog.loadTable package identifier store = .ok table) :
    catalog.newFromLocation package store table.location = .ok table := by
  rcases loadTable_eq_ok_iff.mp loaded with ⟨_, _, _, _, parsed⟩
  simp [newFromLocation, parsed]

end LoadLemmas

end Catalog

end IotProxy.Iceberg
