import IotProxy.Proxy.Nlohmann
import IotProxy.Proxy.RouteManager

/-!
# The file of the route table

A node keeps its route table in a file, which it reads when the discovery service starts. An entry
of the file replaces the entry of the table with the same id. Entries that name no node are skipped;
a field of the wrong type makes the reading throw, and the entries before it have been stored then.

The reading does not look at the table, so a file is first read and then stored here.
-/

namespace IotProxy.Proxy

open Json (AccessError)

/-- The body that the readers of messages and of the route file share. They differ in the keys under
which they look for the name. -/
def nodeFromJsonNamed (idText : Json → Except AccessError (Option Text)) (truncate : Text → ℤ)
    (item : Json) : Except AccessError (Option NodeAddress) :=
  match item.member "host", item.member "port" with
  | some host, some port =>
    if !host.isString || !port.isNumberUnsigned then pure none
    else do
      match ← idText item with
      | none => pure none
      | some text =>
        let host ← host.getString
        let port ← port.getUnsigned truncate 32
        if port = 0 ∨ 65535 < port then pure none
        else pure ((parseConvidHex text).map fun id => { endpoint := { host, port }, id })
  | _, _ => pure none

namespace RouteFile

def routeStateFromString (text : Text) : RouteState :=
  if text = "tried".toList then .tried
  else if text = "bad".toList then .bad
  else .new

/-- An unsigned number under a key; anything else counts as zero. -/
def jsonSizeValue (item : Json) (key : String) : ℕ :=
  match item.member key with
  | some (.number literal) =>
    match Json.storedNumber literal with
    | .unsigned value => value
    | _ => 0
  | _ => 0

section Reading

variable (truncate : Text → ℤ)

def capabilityFromJson (item : Json) : Except AccessError (Option NodeCapability) :=
  if item.kind ≠ .object then pure none
  else do
    let acceptingIngress ← item.value "accepting_ingress" Json.getBool true
    let updatedAtMs ← item.value "updated_at_ms" (Json.getSigned truncate 64) 0
    pure (some
      { present := true
        acceptingIngress
        maxKcpLinks := jsonSizeValue item "max_kcp_links"
        currentKcpLinks := jsonSizeValue item "current_kcp_links"
        maxIngressStreams := jsonSizeValue item "max_ingress_streams"
        currentIngressStreams := jsonSizeValue item "current_ingress_streams"
        maxIngressBytesPerSecond := jsonSizeValue item "max_ingress_bytes_per_second"
        currentIngressBytesPerSecond := jsonSizeValue item "current_ingress_bytes_per_second"
        updatedAtMs })

def nodeIdText (item : Json) : Except AccessError (Option Text) := do
  match ← item.stringMember "public_key" with
  | some text => pure (some text)
  | none =>
    match ← item.stringMember "id" with
    | some text => pure (some text)
    | none => item.stringMember "convid"

def nodeFromJson (item : Json) : Except AccessError (Option NodeAddress) :=
  nodeFromJsonNamed nodeIdText truncate item

def capabilityMember (item : Json) : Except AccessError NodeCapability :=
  match item.member "capability" with
  | some capability => (·.getD {}) <$> capabilityFromJson truncate capability
  | none => pure {}

def sourceMember (item : Json) : Except AccessError (Option NodeAddress) :=
  match item.member "source" with
  | some source => nodeFromJson truncate source
  | none => pure none

variable (config : RouteManagerConfig) (nowMs : ℤ) (localId : KcpConv)

def entryOfNode (item : Json) (node : NodeAddress) : Except AccessError (Option RouteEntry) := do
  let state ← routeStateFromString <$> item.value "state" Json.getString "new".toList
  let attempts ← item.value "attempts" (Json.getUnsigned truncate 32) 0
  let failures ← item.value "failures" (Json.getUnsigned truncate 32) 0
  let capability ← capabilityMember truncate item
  let hopCount ← (min · config.maxRouteHops) <$>
    item.value "hop_count" (Json.getUnsigned truncate 32) 0
  let lastSeenMs ← item.value "last_seen_ms" (Json.getInt64 truncate) nowMs
  let lastTryMs ← item.value "last_try_ms" (Json.getSigned truncate 64) 0
  let lastSuccessMs ← item.value "last_success_ms" (Json.getSigned truncate 64) 0
  let source ← sourceMember truncate item
  if config.maxRouteHops < hopCount then pure none
  else
    pure (some
      { node
        source := source.filter fun source => source.id ≠ node.id ∧ source.id ≠ localId
        capability
        state := if state = .tried ∧ lastSuccessMs = 0 then .new else state
        kcpConnected := false
        attempts
        failures
        hopCount
        lastSeenMs := if lastSeenMs = 0 then nowMs else lastSeenMs
        lastTryMs
        lastSuccessMs })

def entryFromJson (item : Json) : Except AccessError (Option RouteEntry) :=
  if item.kind ≠ .object then pure none
  else
    match item.member "node" with
    | none => pure none
    | some nodeItem => do
        match ← nodeFromJson truncate nodeItem with
        | none => pure none
        | some node =>
          if node.id = localId || node.id.empty then pure none
          else entryOfNode truncate config nowMs localId item node

def readEntries : List Json → List RouteEntry × Option AccessError
  | [] => ([], none)
  | item :: items =>
    match entryFromJson truncate config nowMs localId item with
    | .error error => ([], some error)
    | .ok none => readEntries items
    | .ok (some entry) =>
      let (entries, error) := readEntries items
      (entry :: entries, error)

def tableEntries (doc : Json) : Except AccessError (Option (List Json)) :=
  if doc.kind ≠ .object then pure none
  else do
    let version ← doc.value "version" (Json.getSigned truncate 32) 0
    if version ≠ 1 then pure none
    else
      match doc.member "entries" with
      | some (.array entries) => pure (some entries)
      | _ => pure none

end Reading

inductive Outcome where
  /-- There is no file, which is no error. -/
  | absent
  /-- "route table parse failed", with the message of the library. -/
  | parseFailed
  /-- "route table schema is invalid" -/
  | schemaInvalid
  | threw (error : AccessError)
  | loaded
  deriving DecidableEq

structure Contents where
  outcome : Outcome
  entries : List RouteEntry := []

def read (library : JsonLibrary) (config : RouteManagerConfig) (nowMs : ℤ) (localId : KcpConv)
    (file : Option Bytes) : Contents :=
  match file with
  | none => { outcome := .absent }
  | some bytes =>
    match library.extract bytes with
    | none => { outcome := .parseFailed }
    | some doc =>
      match tableEntries library.truncate doc with
      | .error error => { outcome := .threw error }
      | .ok none => { outcome := .schemaInvalid }
      | .ok (some items) =>
        match readEntries library.truncate config nowMs localId items with
        | (entries, some error) => { outcome := .threw error, entries }
        | (entries, none) => { outcome := .loaded, entries }

section Facts

variable {truncate : Text → ℤ} {config : RouteManagerConfig} {nowMs : ℤ} {localId : KcpConv}

variable {entry : RouteEntry}

theorem entryOfNode_eq_some {item : Json} {node : NodeAddress}
    (read : entryOfNode truncate config nowMs localId item node = .ok (some entry)) :
    entry.node = node ∧ entry.kcpConnected = false := by
  simp only [entryOfNode, Except.bind_eq_ok] at read
  obtain ⟨state, -, attempts, -, failures, -, capability, -, hopCount, -, lastSeenMs, -,
    lastTryMs, -, lastSuccessMs, -, source, -, read⟩ := read
  by_cases tooFar : config.maxRouteHops < hopCount
  · rw [if_pos tooFar] at read
    cases read
  · rw [if_neg tooFar] at read
    cases read
    exact ⟨rfl, rfl⟩

theorem entryFromJson_eq_some {item : Json}
    (read : entryFromJson truncate config nowMs localId item = .ok (some entry)) :
    entry.kcpConnected = false ∧ entry.node.id ≠ localId := by
  unfold entryFromJson at read
  split_ifs at read with isObject
  · cases read
  · cases found : item.member "node" with
    | none =>
      rw [found] at read
      cases read
    | some nodeItem =>
      simp only [found, Except.bind_eq_ok] at read
      obtain ⟨node, -, read⟩ := read
      cases node with
      | none => cases read
      | some node =>
        simp only at read
        split_ifs at read with refused
        · cases read
        · obtain ⟨same, connected⟩ := entryOfNode_eq_some read
          rw [Bool.or_eq_true, decide_eq_true_iff, not_or] at refused
          exact ⟨connected, same ▸ refused.1⟩

theorem exists_of_mem_readEntries {items : List Json}
    (mem : entry ∈ (readEntries truncate config nowMs localId items).1) :
    ∃ item ∈ items, entryFromJson truncate config nowMs localId item = .ok (some entry) := by
  induction items with
  | nil => cases mem
  | cons item items ih =>
    rw [readEntries] at mem
    cases outcome : entryFromJson truncate config nowMs localId item with
    | error error =>
      rw [outcome] at mem
      cases mem
    | ok first =>
      cases first with
      | none =>
        rw [outcome] at mem
        obtain ⟨source, isItem, read⟩ := ih mem
        exact ⟨source, List.mem_cons_of_mem item isItem, read⟩
      | some first =>
        simp only [outcome, List.mem_cons] at mem
        rcases mem with rfl | later
        · exact ⟨item, List.mem_cons_self, outcome⟩
        · obtain ⟨source, isItem, read⟩ := ih later
          exact ⟨source, List.mem_cons_of_mem item isItem, read⟩

theorem mem_read {library : JsonLibrary} {file : Option Bytes}
    (mem : entry ∈ (read library config nowMs localId file).entries) :
    entry.kcpConnected = false ∧ entry.node.id ≠ localId := by
  unfold read at mem
  cases file with
  | none => cases mem
  | some bytes =>
    cases parsed : library.extract bytes with
    | none =>
      simp only [parsed] at mem
      cases mem
    | some doc =>
      simp only [parsed] at mem
      cases follows : tableEntries library.truncate doc with
      | error error =>
        simp only [follows] at mem
        cases mem
      | ok items =>
        cases items with
        | none =>
          simp only [follows] at mem
          cases mem
        | some items =>
          simp only [follows] at mem
          cases result : readEntries library.truncate config nowMs localId items with
          | mk entries error =>
            have isEntry :
                entry ∈ (readEntries library.truncate config nowMs localId items).1 := by
              cases error <;> simpa only [result] using mem
            obtain ⟨item, -, read⟩ := exists_of_mem_readEntries isEntry
            exact entryFromJson_eq_some read

end Facts

end RouteFile

namespace RouteManager

variable (double : DoubleArithmetic) (config : RouteManagerConfig) (nowMs : ℤ)

/-- `routes_[entry.node.id] = entry`. The count of links stays as it is. -/
def store (manager : RouteManager) (entry : RouteEntry) : RouteManager :=
  if (manager.find entry.node.id).isSome then manager.modify entry.node.id fun _ => entry
  else { manager with routes := entry :: manager.routes }

def loadJsonFile (manager : RouteManager) (library : JsonLibrary) (localId : KcpConv)
    (file : Option Bytes) : RouteManager × RouteFile.Outcome :=
  let contents := RouteFile.read library config nowMs localId file
  let stored := contents.entries.foldl store manager
  (if contents.outcome = .loaded then stored.trimIfNeeded double config nowMs else stored,
    contents.outcome)

end RouteManager

end IotProxy.Proxy
