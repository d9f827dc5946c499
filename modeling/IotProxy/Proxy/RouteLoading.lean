import IotProxy.Proxy.DiscoveryExceptions
import IotProxy.Proxy.RouteTable

/-!
# Loading a route table

The file of the route table is read field by field, and each entry is stored as soon as it has been
read. Most fields are read with `value`, which throws if the field has another type, and nobody
catches the exception. So a file is accepted or refused as a whole exactly if it is *legible*: where
the reading gets to a field, the field has a type that can be converted (`loadJsonFile_total_iff`).
-/

namespace IotProxy.Proxy

open EventSystem (Run)
open Json (AccessError Kind)
open Except List

variable {file : Option Bytes}

namespace RouteFile

section Legible

variable (truncate : Text → ℤ) (localId : KcpConv)

/-- The fields that are read of an entry have types that can be converted. -/
structure FieldsLegible (item : Json) : Prop where
  state : item.FieldIs "state" [.string]
  attempts : item.FieldIs "attempts" [.number, .boolean]
  failures : item.FieldIs "failures" [.number, .boolean]
  capability : ∀ capability, item.member "capability" = some capability →
    capability.kind = .object → capability.FieldIs "accepting_ingress" [.boolean] ∧
      capability.FieldIs "updated_at_ms" [.number, .boolean]
  hopCount : item.FieldIs "hop_count" [.number, .boolean]
  lastSeenMs : item.FieldIs "last_seen_ms" [.number]
  lastTryMs : item.FieldIs "last_try_ms" [.number, .boolean]
  lastSuccessMs : item.FieldIs "last_success_ms" [.number, .boolean]

def NamesOther (item : Json) (node : NodeAddress) : Prop :=
  item.kind = .object ∧ (∃ nodeItem, item.member "node" = some nodeItem ∧
    nodeFromJson truncate nodeItem = .ok (some node)) ∧
    ¬(decide (node.id = localId) || node.id.empty) = true

/-- The fields of an entry that names no other node are not read. -/
def EntryLegible (item : Json) : Prop :=
  ∀ node, NamesOther truncate localId item node → FieldsLegible item

structure DocumentLegible (doc : Json) : Prop where
  version : doc.kind = .object → doc.FieldIs "version" [.number, .boolean]
  entries : doc.value "version" (Json.getSigned truncate 32) 0 = .ok 1 →
    ∀ items, doc.member "entries" = some (.array items) →
      ∀ item ∈ items, EntryLegible truncate localId item

/-- A file that is missing or cannot be parsed is refused before any field is read. -/
def Legible (library : JsonLibrary) (file : Option Bytes) : Prop :=
  ∀ bytes ∈ file, ∀ doc, library.extract bytes = some doc →
    DocumentLegible library.truncate localId doc

end Legible

variable {doc : Json}

section Returns

variable {truncate : Text → ℤ} {config : RouteManagerConfig} {nowMs : ℤ} {localId : KcpConv}

theorem returns_nodeIdText (item : Json) : (nodeIdText item).Returns := by
  rw [nodeIdText, returns_bind]
  obtain ⟨key, read⟩ := item.returns_stringMember "public_key"
  refine ⟨key, read, ?_⟩
  cases key with
  | some text => simp
  | none =>
    obtain ⟨id, readId⟩ := item.returns_stringMember "id"
    simp only [readId, ok_bind]
    cases id with
    | some text => simp
    | none => exact item.returns_stringMember "convid"

theorem returns_nodeFromJson (item : Json) : (nodeFromJson truncate item).Returns :=
  returns_nodeFromJsonNamed (returns_nodeIdText item)

theorem returns_capabilityMember (item : Json) : (capabilityMember truncate item).Returns ↔
    ∀ capability, item.member "capability" = some capability → capability.kind = .object →
      capability.FieldIs "accepting_ingress" [.boolean] ∧
        capability.FieldIs "updated_at_ms" [.number, .boolean] := by
  rw [capabilityMember]
  cases item.member "capability" with
  | none => simp
  | some capability =>
    by_cases object : capability.kind = .object
    · simp [capabilityFromJson, object, returns_bind, exists_and_right, exists_eq_ok,
        Json.returns_value Json.returns_getBool, Json.returns_value Json.returns_getSigned]
    · simp [capabilityFromJson, object]

theorem returns_sourceMember (item : Json) : (sourceMember truncate item).Returns := by
  rw [sourceMember]
  cases item.member "source" with
  | none => simp
  | some source => exact returns_nodeFromJson source

theorem returns_getInt64 : (doc.getInt64 truncate).Returns ↔ doc.kind ∈ [Kind.number] := by
  cases doc <;> simp [Json.getInt64, Json.getSigned, Json.getNumber, Json.kind]

theorem returns_entryOfNode (item : Json) (node : NodeAddress) :
    (entryOfNode truncate config nowMs localId item node).Returns ↔ FieldsLegible item := by
  have source := @returns_sourceMember truncate item
  simp only [entryOfNode, returns_bind, returns_map, apply_ite Returns, returns_pure, ite_self,
    and_true, exists_and_right, exists_eq_ok, returns_capabilityMember,
    Json.returns_value Json.returns_getString, Json.returns_value Json.returns_getUnsigned,
    Json.returns_value Json.returns_getSigned, Json.returns_value returns_getInt64, source]
  constructor
  · rintro ⟨state, attempts, failures, capability, hopCount, lastSeenMs, lastTryMs, lastSuccessMs⟩
    exact ⟨state, attempts, failures, capability, hopCount, lastSeenMs, lastTryMs, lastSuccessMs⟩
  · rintro ⟨state, attempts, failures, capability, hopCount, lastSeenMs, lastTryMs, lastSuccessMs⟩
    exact ⟨state, attempts, failures, capability, hopCount, lastSeenMs, lastTryMs, lastSuccessMs⟩

theorem entryFromJson_of_not_names (item : Json)
    (names : ∀ node, ¬NamesOther truncate localId item node) :
    entryFromJson truncate config nowMs localId item = .ok none := by
  unfold entryFromJson
  by_cases object : item.kind = .object
  · rw [if_neg (not_not_intro object)]
    cases found : item.member "node" with
    | none => rfl
    | some nodeItem =>
      obtain ⟨node, read⟩ : (nodeFromJson truncate nodeItem).Returns :=
        returns_nodeFromJson nodeItem
      cases node with
      | none =>
        simp only [read, ok_bind]
        rfl
      | some node =>
        simp only [read, ok_bind]
        by_cases own : (decide (node.id = localId) || node.id.empty) = true
        · rw [if_pos own]
          rfl
        · exact absurd ⟨object, ⟨nodeItem, found, read⟩, own⟩ (names node)
  · rw [if_pos object]
    rfl

theorem entryFromJson_of_names {item : Json} {node : NodeAddress}
    (names : NamesOther truncate localId item node) :
    entryFromJson truncate config nowMs localId item =
      entryOfNode truncate config nowMs localId item node := by
  obtain ⟨object, ⟨nodeItem, found, read⟩, other⟩ := names
  rw [entryFromJson, if_neg (not_not_intro object), found]
  simp only [read, ok_bind, if_neg other]

theorem namesOther_of_read {item : Json} {entry : RouteEntry}
    (read : entryFromJson truncate config nowMs localId item = .ok (some entry)) :
    NamesOther truncate localId item entry.node := by
  by_cases names : ∃ node, NamesOther truncate localId item node
  · obtain ⟨node, isNode⟩ := names
    rw [entryFromJson_of_names isNode] at read
    rw [(entryOfNode_eq_some read).1]
    exact isNode
  · rw [entryFromJson_of_not_names item (not_exists.mp names)] at read
    cases read

theorem returns_entryFromJson (item : Json) :
    (entryFromJson truncate config nowMs localId item).Returns ↔
      EntryLegible truncate localId item := by
  by_cases names : ∃ node, NamesOther truncate localId item node
  · obtain ⟨node, isNode⟩ := names
    rw [entryFromJson_of_names isNode, returns_entryOfNode]
    exact ⟨fun legible _ _ => legible, fun legible => legible node isNode⟩
  · rw [entryFromJson_of_not_names item (not_exists.mp names)]
    exact ⟨fun _ node isNode => absurd ⟨node, isNode⟩ names, fun _ => returns_ok _⟩

theorem readEntries_legible (items : List Json) :
    (readEntries truncate config nowMs localId items).2 = none ↔
      ∀ item ∈ items, EntryLegible truncate localId item := by
  induction items with
  | nil => simp [readEntries]
  | cons item items ih =>
    rw [forall_mem_cons, ← ih, ← @returns_entryFromJson truncate config nowMs localId item,
      readEntries]
    cases entryFromJson truncate config nowMs localId item with
    | error error => simp
    | ok found =>
      cases found with
      | none => simp
      | some entry => simp

theorem returns_tableEntries (doc : Json) : (tableEntries truncate doc).Returns ↔
    (doc.kind = .object → doc.FieldIs "version" [.number, .boolean]) := by
  rw [tableEntries]
  by_cases object : doc.kind = .object
  · rw [if_neg (not_not_intro object), returns_bind_expect,
      Json.returns_value Json.returns_getSigned]
    refine ⟨fun returned _ => returned.1, fun version => ⟨version object, fun _ => ?_⟩⟩
    split <;> simp
  · rw [if_pos object]
    exact ⟨fun _ isObject => absurd isObject object, fun _ => returns_pure _⟩

theorem tableEntries_eq_some {items : List Json} :
    tableEntries truncate doc = .ok (some items) ↔ doc.kind = .object ∧
      doc.value "version" (Json.getSigned truncate 32) 0 = .ok 1 ∧
      doc.member "entries" = some (.array items) := by
  rw [tableEntries]
  by_cases object : doc.kind = .object
  · rw [if_neg (not_not_intro object), bind_eq_ok]
    constructor
    · rintro ⟨version, read, rest⟩
      split_ifs at rest with other
      · cases rest
      · rw [not_not.mp other] at read
        split at rest
        · next entries found =>
            cases rest
            exact ⟨object, read, found⟩
        · cases rest
    · rintro ⟨-, read, found⟩
      refine ⟨1, read, ?_⟩
      rw [if_neg (not_not_intro rfl), found]
      rfl
  · rw [if_pos object]
    constructor
    · intro none
      cases none
    · exact fun isObject => absurd isObject.1 object

end Returns

/-- What the call returns: `true`, `false` or nothing, if an exception leaves it. -/
def Outcome.result : Outcome → Option Bool
  | .absent => some true
  | .parseFailed => some false
  | .schemaInvalid => some false
  | .threw _ => none
  | .loaded => some true

section Reading

variable {truncate : Text → ℤ} {config : RouteManagerConfig} {nowMs : ℤ} {localId : KcpConv}

inductive Reading (truncate : Text → ℤ) (config : RouteManagerConfig) (nowMs : ℤ)
    (localId : KcpConv) (doc : Json) : Contents → Prop where
  | versionThrew {error : AccessError}
      (illegible : ¬(doc.kind = .object → doc.FieldIs "version" [.number, .boolean])) :
      Reading truncate config nowMs localId doc { outcome := .threw error }
  | refused (version : doc.kind = .object → doc.FieldIs "version" [.number, .boolean])
      (noEntries : ∀ items, ¬(doc.value "version" (Json.getSigned truncate 32) 0 = .ok 1 ∧
        doc.member "entries" = some (.array items))) :
      Reading truncate config nowMs localId doc { outcome := .schemaInvalid }
  | entries {items : List Json}
      (version : doc.kind = .object → doc.FieldIs "version" [.number, .boolean])
      (current : doc.value "version" (Json.getSigned truncate 32) 0 = .ok 1)
      (found : doc.member "entries" = some (.array items)) :
      Reading truncate config nowMs localId doc
        { outcome := ((readEntries truncate config nowMs localId items).2.map .threw).getD .loaded
          entries := (readEntries truncate config nowMs localId items).1 }

theorem kind_of_member {item : Json} {key : String} (found : doc.member key = some item) :
    doc.kind = .object := by
  cases doc with
  | object members => rfl
  | _ => cases found

variable {library : JsonLibrary}

theorem read_outcome {bytes : Bytes} (extracted : library.extract bytes = some doc) :
    Reading library.truncate config nowMs localId doc
      (read library config nowMs localId (some bytes)) := by
  have returned := @returns_tableEntries library.truncate doc
  simp only [read, extracted]
  cases follows : tableEntries library.truncate doc with
  | error error =>
    rw [follows] at returned
    exact .versionThrew fun version => not_returns_error error (returned.mpr version)
  | ok found =>
    rw [follows] at returned
    have version := returned.mp (returns_ok found)
    cases found with
    | none =>
      refine .refused version ?_
      rintro items ⟨current, isEntries⟩
      have accepted := tableEntries_eq_some.mpr
        ⟨kind_of_member isEntries, current, isEntries⟩
      cases follows.symm.trans accepted
    | some items =>
      obtain ⟨-, current, isEntries⟩ := tableEntries_eq_some.mp follows
      have entries := @Reading.entries library.truncate config nowMs localId doc items version current
        isEntries
      simp only
      cases result : readEntries library.truncate config nowMs localId items with
      | mk stored error =>
        rw [result] at entries
        cases error with
        | none => exact entries
        | some error => exact entries

theorem isSome_result_read (file : Option Bytes) :
    (read library config nowMs localId file).outcome.result.isSome ↔
      Legible localId library file := by
  cases file with
  | none => simp [read, Outcome.result, Legible]
  | some bytes =>
    cases extracted : library.extract bytes with
    | none => simp [read, Legible, extracted, Outcome.result]
    | some doc =>
      have same : Legible localId library (some bytes) ↔
          DocumentLegible library.truncate localId doc := by simp [Legible, extracted]
      have outcome := @read_outcome _ config nowMs localId library _ extracted
      rw [same]
      generalize read library config nowMs localId (some bytes) = contents at outcome ⊢
      cases outcome with
      | versionThrew illegible =>
        constructor
        · intro returned
          cases returned
        · exact fun legible => absurd legible.version illegible
      | refused version noEntries =>
        refine ⟨fun _ => ⟨version, fun current items found => ?_⟩, fun _ => rfl⟩
        exact absurd ⟨current, found⟩ (noEntries items)
      | @entries items version current found =>
        have legible := @readEntries_legible library.truncate config nowMs localId items
        have document : DocumentLegible library.truncate localId doc ↔
            ∀ item ∈ items, EntryLegible library.truncate localId item := by
          refine ⟨fun legible => legible.entries current items found, fun all => ⟨version, ?_⟩⟩
          intro _ others isOthers
          cases found.symm.trans isOthers
          exact all
        rw [document, ← legible]
        cases (readEntries library.truncate config nowMs localId items).2 with
        | none => simp [Outcome.result]
        | some error => simp [Outcome.result]

theorem entries_of_refused
    (refused : (read library config nowMs localId file).outcome.result = some false) :
    (read library config nowMs localId file).entries = [] := by
  cases file with
  | none => rfl
  | some bytes =>
    cases extracted : library.extract bytes with
    | none => simp [read, extracted]
    | some doc =>
      have outcome := @read_outcome _ config nowMs localId library _ extracted
      generalize read library config nowMs localId (some bytes) = contents at outcome refused ⊢
      cases outcome with
      | versionThrew => rfl
      | refused => rfl
      | @entries items _ _ _ =>
        simp only at refused
        cases threw : (readEntries library.truncate config nowMs localId items).2 with
        | none =>
          rw [threw] at refused
          cases refused
        | some error =>
          rw [threw] at refused
          cases refused

end Reading

end RouteFile

namespace RouteManager

variable {double : DoubleArithmetic} {config : RouteManagerConfig} {nowMs : ℤ} {localId : KcpConv}
  {manager : RouteManager} {library : JsonLibrary}

/-- Loading returns, and without a change unless it accepts the file, for exactly the legible
files. -/
theorem loadJsonFile_total_iff (file : Option Bytes) :
    ((manager.loadJsonFile double config nowMs library localId file).2.result.isSome ∧
        ((manager.loadJsonFile double config nowMs library localId file).2.result ≠ some true →
          (manager.loadJsonFile double config nowMs library localId file).1 = manager)) ↔
      RouteFile.Legible localId library file := by
  have outcome : (manager.loadJsonFile double config nowMs library localId file).2 =
    (RouteFile.read library config nowMs localId file).outcome := rfl
  rw [outcome, RouteFile.isSome_result_read, and_iff_left_iff_imp]
  intro legible notAccepted
  have returned := (@RouteFile.isSome_result_read config nowMs localId library file).mpr legible
  obtain ⟨accepted, isResult⟩ := Option.isSome_iff_exists.mp returned
  cases accepted with
  | true => exact absurd isResult notAccepted
  | false =>
    have notLoaded : (RouteFile.read library config nowMs localId file).outcome ≠ .loaded := by
      intro loaded
      rw [loaded] at isResult
      cases isResult
    rw [loadJsonFile, if_neg notLoaded, RouteFile.entries_of_refused isResult]
    rfl

section Example

def entryText (number : ℕ) (members : String) : Text :=
  "\x7b\"node\":\x7b\"host\":\"10.0.0.9\",\"port\":9000,\"public_key\":\"".toList ++
    convidToHex (.ofUint32 number) ++ "\"\x7d".toList ++ members.toList ++ "\x7d".toList

def fileOf (entries : List Text) : Bytes :=
  Text.toBytes <| "\x7b\"version\":1,\"entries\":[".toList ++ [','].intercalate entries ++
    "]\x7d".toList

/-- A number where a number is expected. -/
theorem load_number_attempts :
    RouteFile.Legible (.ofUint32 1) nlohmann
        (some (fileOf [entryText 2 "", entryText 3 ",\"attempts\":4"])) ∧
      ((loadJsonFile .exact {} 1000 {} nlohmann (.ofUint32 1)
        (some (fileOf [entryText 2 "", entryText 3 ",\"attempts\":4"]))).1.routes.map
          (·.attempts)) = [4, 0] := by
  refine ⟨?_, by decide +kernel⟩
  rw [← @loadJsonFile_total_iff .exact {} 1000 (.ofUint32 1) {} nlohmann]
  exact ⟨by decide +kernel, fun refused => absurd (by decide +kernel) refused⟩

/-- A text where a number is expected: the call throws, and the entry before is in the table. -/
theorem load_text_attempts :
    (loadJsonFile .exact {} 1000 {} nlohmann (.ofUint32 1)
        (some (fileOf [entryText 2 "", entryText 3 ",\"attempts\":\"many\""]))).2 =
        .threw (.wrongType .number .string) ∧
      (loadJsonFile .exact {} 1000 {} nlohmann (.ofUint32 1)
        (some (fileOf [entryText 2 "", entryText 3 ",\"attempts\":\"many\""]))).1.routes.map
          (·.node.id) = [.ofUint32 2] := by
  decide +kernel

end Example

section Capacity

def namedId (truncate : Text → ℤ) (item : Json) : Option KcpConv :=
  (item.member "node").bind fun nodeItem =>
    match RouteFile.nodeFromJson truncate nodeItem with
    | .ok node => node.map (·.id)
    | .error _ => none

def namedIds (library : JsonLibrary) (localId : KcpConv) (file : Option Bytes) : List KcpConv :=
  match (file.bind library.extract).bind (·.member "entries") with
  | some (.array items) => (items.filterMap (namedId library.truncate)).filter (· ≠ localId)
  | _ => []

/-- A file and the table do not name more nodes together than the table may hold. -/
def FitsTogether (config : RouteManagerConfig) (manager : RouteManager) : RouteOperation → Prop
  | .loadJsonFile _ library localId file =>
    (manager.routes.map (·.node.id) ++ namedIds library localId file).dedup.length ≤
      config.maxRoutes
  | _ => True

theorem mem_namedIds {entry : RouteEntry}
    (mem : entry ∈ (RouteFile.read library config nowMs localId file).entries) :
    entry.node.id ∈ namedIds library localId file := by
  cases file with
  | none => cases mem
  | some bytes =>
    cases extracted : library.extract bytes with
    | none => simp [RouteFile.read, extracted] at mem
    | some doc =>
      have outcome := @RouteFile.read_outcome _ config nowMs localId library _ extracted
      generalize RouteFile.read library config nowMs localId (some bytes) = contents
        at outcome mem
      cases outcome with
      | versionThrew => cases mem
      | refused => cases mem
      | entries _ _ found =>
        obtain ⟨item, isItem, read⟩ := RouteFile.exists_of_mem_readEntries mem
        obtain ⟨-, ⟨nodeItem, isNode, readNode⟩, other⟩ := RouteFile.namesOther_of_read read
        rw [Bool.or_eq_true, decide_eq_true_iff, not_or] at other
        have named : namedId library.truncate item = some entry.node.id := by
          simp [namedId, isNode, readNode]
        rw [namedIds, Option.bind_some, extracted, Option.bind_some, found]
        simp only [mem_filter, mem_filterMap, decide_eq_true_eq]
        exact ⟨⟨item, isItem, named⟩, other.1⟩

theorem length_loadJsonFile_le (distinct : manager.DistinctIds)
    (fits : (manager.routes.map (·.node.id) ++ namedIds library localId file).dedup.length ≤
      config.maxRoutes) :
    (manager.loadJsonFile double config nowMs library localId file).1.routes.length ≤
      config.maxRoutes := by
  set entries := (RouteFile.read library config nowMs localId file).entries with isEntries
  have stored : (entries.foldl store manager).DistinctIds := distinct.foldl_store entries
  have few : (entries.foldl store manager).routes.length ≤ config.maxRoutes := by
    have named : (entries.foldl store manager).routes.map (·.node.id) ⊆
        (manager.routes.map (·.node.id) ++ namedIds library localId file).dedup := by
      intro id mem
      obtain ⟨entry, isEntry, rfl⟩ := mem_map.mp mem
      rw [mem_dedup, mem_append]
      rcases mem_foldl_store isEntry with isRead | old
      · exact .inr (mem_namedIds isRead)
      · exact .inl (mem_map_of_mem old)
    have bound := (subperm_of_subset stored named).length_le
    rw [length_map] at bound
    exact bound.trans fits
  have trims := trimmed_trimIfNeeded double config nowMs stored
  rw [loadJsonFile]
  simp only [← isEntries]
  split_ifs
  · exact trims.sublist.length_le.trans few
  · exact few

/-- The table keeps to its limit, in every state that is reached while the files that are loaded do
not name too many nodes. -/
theorem length_routes_le {operations : List RouteOperation}
    (run : Run (perform double config) (FitsTogether config) {} operations manager) :
    manager.routes.length ≤ config.maxRoutes := by
  have invariant : manager.DistinctIds ∧ manager.routes.length ≤ config.maxRoutes := by
    apply run.invariant
    · exact ⟨Table.distinct_nil, Nat.zero_le _⟩
    · rintro before after operation fits performed ⟨distinct, bound⟩
      refine ⟨distinct.perform performed, ?_⟩
      cases operation with
      | addRoute =>
        cases performed
        exact (addRoute_outcome double config distinct).length_le bound
      | markAttempt =>
        cases performed
        exact (length_map _).le.trans bound
      | markSuccess =>
        cases performed
        exact (length_map _).le.trans bound
      | markFailure =>
        cases performed
        exact (length_map _).le.trans bound
      | markKcpDisconnected =>
        cases performed
        exact (length_map _).le.trans bound
      | loadJsonFile =>
        cases performed
        exact length_loadJsonFile_le distinct fits
      | rehash order =>
        simp only [perform, Option.ite_none_right_eq_some, Option.some.injEq] at performed
        obtain ⟨same, rfl⟩ := performed
        exact same.length_eq.trans_le bound
  exact invariant.2

def loadThree : List RouteOperation :=
  [.loadJsonFile 1000 nlohmann (.ofUint32 1)
    (some (fileOf [entryText 2 "", entryText 3 "", entryText 4 ""]))]

/-- Three nodes are loaded into a table for three nodes. -/
theorem length_after_fitting_file :
    ∃ finish, Run (perform .exact { maxRoutes := 3 }) (FitsTogether { maxRoutes := 3 }) {}
      loadThree finish ∧ finish.routes.length ≤ 3 := by
  have fits : FitsTogether { maxRoutes := 3 } {} (.loadJsonFile 1000 nlohmann (.ofUint32 1)
      (some (fileOf [entryText 2 "", entryText 3 "", entryText 4 ""]))) := by
    unfold FitsTogether
    decide +kernel
  have run : Run (perform .exact { maxRoutes := 3 }) (FitsTogether { maxRoutes := 3 }) {} loadThree
      _ := Run.single fits rfl
  exact ⟨_, run, length_routes_le run⟩

/-- Three nodes are loaded into a table for one. One of them is removed again. -/
theorem length_after_long_file :
    ∃ finish, Run (perform .exact { maxRoutes := 1 }) (fun _ _ => True) {} loadThree finish ∧
      finish.routes.length = 2 := by
  apply Run.exists_of_execute fun finish => finish.routes.length = 2
  · decide +kernel
  · intro finish _ facts
    simpa using facts

end Capacity

end RouteManager

end IotProxy.Proxy
