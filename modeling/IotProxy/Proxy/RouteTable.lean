import IotProxy.Lib.Run
import IotProxy.Lib.Table
import IotProxy.Proxy.RouteFile

/-!
# The route table over time

The operations of the route manager, in any order. The count of links is changed where an entry
gains or loses its link, but a file is loaded without regard to it: the count stays right as long as
no file names a linked node (`kcpLinkCount_eq_connected`).
-/

namespace IotProxy.Proxy

open List
open EventSystem (Run)
open Table (Distinct)

/-- The operations that change the route table, with the time at which they are called. The library
may also change the order in which the table is iterated. -/
inductive RouteOperation where
  | addRoute (nowMs : ℤ) (node : NodeAddress) (source : Option NodeAddress) (kcpConnected : Bool)
      (advertisedHopCount : ℕ) (capability : Option NodeCapability)
  | markAttempt (nowMs : ℤ) (id : KcpConv)
  | markSuccess (nowMs : ℤ) (id : KcpConv) (kcpConnected : Bool)
  | markFailure (nowMs : ℤ) (id : KcpConv)
  | markKcpDisconnected (id : KcpConv)
  | loadJsonFile (nowMs : ℤ) (library : JsonLibrary) (localId : KcpConv) (file : Option Bytes)
  | rehash (order : List RouteEntry)

namespace RouteManager

variable (double : DoubleArithmetic) (config : RouteManagerConfig)

def perform (manager : RouteManager) : RouteOperation → Option RouteManager
  | .addRoute nowMs node source kcpConnected advertisedHopCount capability =>
    some (manager.addRoute double config nowMs node source kcpConnected advertisedHopCount
      capability).1
  | .markAttempt nowMs id => some (manager.markAttempt nowMs id)
  | .markSuccess nowMs id kcpConnected => some (manager.markSuccess nowMs id kcpConnected)
  | .markFailure nowMs id => some (manager.markFailure config nowMs id)
  | .markKcpDisconnected id => some (manager.markKcpDisconnected id)
  | .loadJsonFile nowMs library localId file =>
    some (manager.loadJsonFile double config nowMs library localId file).1
  | .rehash order =>
    if order.Perm manager.routes then some { manager with routes := order } else none

def connectedCount (manager : RouteManager) : ℕ :=
  manager.routes.countP (·.kcpConnected)

def DistinctIds (manager : RouteManager) : Prop :=
  Distinct (·.node.id) manager.routes

variable {double config} {manager trimmed : RouteManager} {nowMs : ℤ} {id : KcpConv}
  {entry : RouteEntry} {change : RouteEntry → RouteEntry} {node : NodeAddress}
  {source : Option NodeAddress} {kcpConnected : Bool} {advertisedHopCount hops count : ℕ}
  {capability : Option NodeCapability}

theorem find_eq : manager.find id = Table.find (·.node.id) manager.routes id := rfl

theorem modify_eq : manager.modify id change =
    { manager with routes := Table.modify (·.node.id) manager.routes id change } := rfl

theorem id_of_find (found : manager.find id = some entry) : entry.node.id = id := by
  simpa using List.find?_some found

theorem find_modify (manager : RouteManager)
    (keeps : ∀ entry, entry.node.id = id → (change entry).node.id = id) (other : KcpConv) :
    (manager.modify id change).find other =
      if other = id then (manager.find id).map change else manager.find other := by
  split_ifs with same
  · subst same
    exact Table.find_modify_self keeps
  · exact Table.find_modify_of_ne keeps same

theorem DistinctIds.find_eq_some (distinct : manager.DistinctIds) :
    manager.find id = some entry ↔ entry ∈ manager.routes ∧ entry.node.id = id :=
  Table.Distinct.find_eq_some distinct

section Marks

def attempted (nowMs : ℤ) (entry : RouteEntry) : RouteEntry :=
  { entry with
    lastTryMs := nowMs
    attempts := if entry.attempts < 2 ^ 32 - 1 then entry.attempts + 1 else entry.attempts }

def succeeded (nowMs : ℤ) (kcpConnected : Bool) (entry : RouteEntry) : RouteEntry :=
  { entry with
    state := .tried, failures := 0, attempts := 0, lastSeenMs := nowMs, lastTryMs := nowMs
    lastSuccessMs := nowMs
    kcpConnected := entry.kcpConnected || kcpConnected
    hopCount := if kcpConnected then 1 else entry.hopCount
    source := if kcpConnected then none else entry.source }

def failed (config : RouteManagerConfig) (nowMs : ℤ) (entry : RouteEntry) : RouteEntry :=
  let failures := if entry.failures < 2 ^ 32 - 1 then entry.failures + 1 else entry.failures
  let tried := { entry with lastTryMs := nowMs, failures, kcpConnected := false }
  { tried with
    state :=
      if isTerrible config nowMs tried || config.badFailureThreshold ≤ failures then .bad
      else if entry.lastSuccessMs = 0 then .new
      else entry.state }

def disconnected (entry : RouteEntry) : RouteEntry :=
  { entry with kcpConnected := false }

theorem markAttempt_eq : manager.markAttempt nowMs id = manager.modify id (attempted nowMs) := rfl

theorem markSuccess_eq (kcpConnected : Bool) : manager.markSuccess nowMs id kcpConnected =
    { manager.modify id (succeeded nowMs kcpConnected) with
      kcpLinkCount :=
        if kcpConnected && (manager.find id).any fun entry => !entry.kcpConnected then
          manager.kcpLinkCount + 1
        else manager.kcpLinkCount } := by
  cases kcpConnected with
  | false => simp [markSuccess, modify, succeeded]
  | true => simp [markSuccess, modify, succeeded]

theorem markFailure_eq : manager.markFailure config nowMs id =
    { manager.modify id (failed config nowMs) with kcpLinkCount := manager.countWithout id } := by
  have same : ∀ entry : RouteEntry, failed config nowMs entry =
      (let entry := { entry with
        lastTryMs := nowMs
        failures := if entry.failures < 2 ^ 32 - 1 then entry.failures + 1 else entry.failures
        kcpConnected := false }
      if isTerrible config nowMs entry || config.badFailureThreshold ≤ entry.failures then
        { entry with state := .bad }
      else if entry.lastSuccessMs = 0 then { entry with state := .new }
      else entry) := by
    intro entry
    simp only [failed]
    split_ifs <;> rfl
  rw [markFailure, funext same]

end Marks

section Trim

/-- Some entries were dropped, and none of them was connected. -/
structure Trimmed (manager trimmed : RouteManager) : Prop where
  kept : ∃ keeps : RouteEntry → Bool, trimmed.routes = manager.routes.filter keeps ∧
    ∀ entry ∈ manager.routes, entry.kcpConnected = true → keeps entry = true
  count : trimmed.kcpLinkCount = manager.kcpLinkCount

theorem Trimmed.refl (manager : RouteManager) : Trimmed manager manager where
  kept := ⟨fun _ => true, by simp, by simp⟩
  count := rfl

theorem Trimmed.trans {last : RouteManager} (first : Trimmed manager trimmed)
    (second : Trimmed trimmed last) : Trimmed manager last := by
  obtain ⟨keeps, same, kept⟩ := first.kept
  obtain ⟨keepsNext, sameNext, keptNext⟩ := second.kept
  refine ⟨⟨fun entry => keepsNext entry && keeps entry, ?_, ?_⟩, second.count.trans first.count⟩
  · rw [sameNext, same, filter_filter]
  · intro entry mem connected
    have stays : entry ∈ trimmed.routes := by
      rw [same, mem_filter]
      exact ⟨mem, kept entry mem connected⟩
    rw [Bool.and_eq_true]
    exact ⟨keptNext entry stays connected, kept entry mem connected⟩

theorem Trimmed.sublist (trims : Trimmed manager trimmed) :
    trimmed.routes.Sublist manager.routes := by
  obtain ⟨keeps, same, -⟩ := trims.kept
  rw [same]
  exact filter_sublist

theorem Trimmed.distinct (trims : Trimmed manager trimmed) (distinct : manager.DistinctIds) :
    trimmed.DistinctIds :=
  Table.Distinct.of_sublist distinct trims.sublist

theorem Trimmed.connectedCount_eq (trims : Trimmed manager trimmed) :
    trimmed.connectedCount = manager.connectedCount := by
  obtain ⟨keeps, same, kept⟩ := trims.kept
  rw [connectedCount, same]
  exact Table.countP_filter_of_imp kept

theorem Trimmed.find_connected (trims : Trimmed manager trimmed) (distinct : manager.DistinctIds)
    (found : manager.find id = some entry) (connected : entry.kcpConnected = true) :
    trimmed.find id = some entry := by
  obtain ⟨keeps, same, kept⟩ := trims.kept
  rw [find_eq, same]
  exact Table.Distinct.find_filter distinct found (kept entry (Table.mem_of_find found) connected)

theorem Trimmed.find_absent (trims : Trimmed manager trimmed) (absent : manager.find id = none) :
    trimmed.find id = none := by
  obtain ⟨keeps, same, -⟩ := trims.kept
  rw [find_eq, same]
  exact Table.find_filter_eq_none absent

variable (double config nowMs) in
theorem trimmed_trimIfNeeded (distinct : manager.DistinctIds) :
    Trimmed manager (manager.trimIfNeeded double config nowMs) := by
  set keeps : RouteEntry → Bool := fun entry =>
    entry.kcpConnected || !isTerrible config nowMs entry with isKeeps
  have keepsConnected : ∀ entry ∈ manager.routes, entry.kcpConnected = true →
      keeps entry = true := by
    intro entry _ connected
    simp [isKeeps, connected]
  have dropped : Trimmed manager { manager with routes := manager.routes.filter keeps } :=
    ⟨⟨keeps, rfl, keepsConnected⟩, rfl⟩
  unfold trimIfNeeded
  by_cases room : manager.routes.length < config.maxRoutes
  · rw [if_pos room]
    exact .refl manager
  rw [if_neg room]
  simp only [← isKeeps]
  by_cases roomNow : (manager.routes.filter keeps).length < config.maxRoutes
  · rw [if_pos roomNow]
    exact dropped
  · rw [if_neg roomNow]
    cases chosen : ((manager.routes.filter keeps).filter fun entry =>
        !entry.kcpConnected).argmin (victimScore double config nowMs) with
    | none => simpa [chosen] using dropped
    | some victim =>
      have isVictim := argmin_mem chosen
      rw [mem_filter, mem_filter] at isVictim
      obtain ⟨⟨victimMem, -⟩, unconnected⟩ := isVictim
      simp only
      refine dropped.trans ⟨⟨fun entry => entry.node.id ≠ victim.node.id, rfl, ?_⟩, rfl⟩
      -- A connected entry with the id of the victim would be the victim.
      intro entry mem connected
      rw [decide_eq_true_iff]
      intro same
      have isVictim := Table.Distinct.eq_of_mem distinct (mem_of_mem_filter mem) victimMem
        same
      rw [← isVictim, connected] at unconnected
      cases unconnected

end Trim

section AddRoute

variable (config manager nowMs node source kcpConnected advertisedHopCount capability) in
inductive AddRoute : RouteManager → Prop where
  | refused
      (reason : validRouteNode node = false ∨
        config.maxRouteHops < localHopCount source kcpConnected advertisedHopCount) :
      AddRoute manager
  | refreshed {entry : RouteEntry} (valid : validRouteNode node = true)
      (near : localHopCount source kcpConnected advertisedHopCount ≤ config.maxRouteHops)
      (found : manager.find node.id = some entry) :
      AddRoute
        { manager.modify node.id fun entry => refreshEntry nowMs entry node source kcpConnected
            (localHopCount source kcpConnected advertisedHopCount) capability with
          kcpLinkCount :=
            if kcpConnected && !entry.kcpConnected then manager.kcpLinkCount + 1
            else manager.kcpLinkCount }
  | full {trimmed : RouteManager} (valid : validRouteNode node = true)
      (near : localHopCount source kcpConnected advertisedHopCount ≤ config.maxRouteHops)
      (absent : manager.find node.id = none) (trims : Trimmed manager trimmed)
      (noRoom : config.maxRoutes ≤ trimmed.routes.length) : AddRoute trimmed
  | added {trimmed : RouteManager} (valid : validRouteNode node = true)
      (near : localHopCount source kcpConnected advertisedHopCount ≤ config.maxRouteHops)
      (absent : manager.find node.id = none) (trims : Trimmed manager trimmed)
      (room : trimmed.routes.length < config.maxRoutes) :
      AddRoute
        { routes := newEntry nowMs node source kcpConnected
            (localHopCount source kcpConnected advertisedHopCount) capability :: trimmed.routes
          kcpLinkCount :=
            if kcpConnected then trimmed.kcpLinkCount + 1 else trimmed.kcpLinkCount }

variable (double config) in
theorem addRoute_outcome (distinct : manager.DistinctIds) :
    AddRoute config manager nowMs node source kcpConnected advertisedHopCount capability
      (manager.addRoute double config nowMs node source kcpConnected advertisedHopCount
        capability).1 := by
  unfold addRoute
  by_cases refused : (!validRouteNode node || decide (config.maxRouteHops <
      localHopCount source kcpConnected advertisedHopCount)) = true
  · rw [if_pos refused]
    exact .refused (by simpa using refused)
  · rw [if_neg refused]
    rw [Bool.not_eq_true, Bool.or_eq_false_iff, Bool.not_eq_false', decide_eq_false_iff_not,
      not_lt] at refused
    obtain ⟨valid, near⟩ := refused
    cases found : manager.find node.id with
    | some entry => exact .refreshed valid near found
    | none =>
      have once := trimmed_trimIfNeeded double config nowMs distinct
      have twice : Trimmed manager (if config.maxRoutes ≤
          (manager.trimIfNeeded double config nowMs).routes.length then
          (manager.trimIfNeeded double config nowMs).trimIfNeeded double config nowMs
          else manager.trimIfNeeded double config nowMs) := by
        split_ifs
        · exact once.trans (trimmed_trimIfNeeded double config nowMs (once.distinct distinct))
        · exact once
      simp only
      generalize (if config.maxRoutes ≤
          (manager.trimIfNeeded double config nowMs).routes.length then
          (manager.trimIfNeeded double config nowMs).trimIfNeeded double config nowMs
          else manager.trimIfNeeded double config nowMs) = trimmed at twice ⊢
      by_cases noRoom : config.maxRoutes ≤ trimmed.routes.length
      · rw [if_pos noRoom]
        exact .full valid near found twice noRoom
      · rw [if_neg noRoom]
        exact .added valid near found twice (not_le.mp noRoom)

theorem addRoute_elim {Holds : RouteManager → Prop} (distinct : manager.DistinctIds)
    (outcome : ∀ after, AddRoute config manager nowMs node source kcpConnected advertisedHopCount
      capability after → Holds after) :
    Holds (manager.addRoute double config nowMs node source kcpConnected advertisedHopCount
      capability).1 :=
  outcome _ (addRoute_outcome double config distinct)

end AddRoute

variable {after : RouteManager}

section Distinct

variable (entry source hops) in
def takesPath : Bool :=
  source.any validRouteNode && !entry.kcpConnected && (entry.hopCount = 0 || hops < entry.hopCount)

theorem refreshEntry_eq :
    refreshEntry nowMs entry node source kcpConnected hops capability =
      { node
        source :=
          if kcpConnected then none else if takesPath entry source hops then source else entry.source
        capability := match capability with
          | some capability => if capability.present then capability else entry.capability
          | none => entry.capability
        state := if kcpConnected then .tried else if entry.state = .bad then .new else entry.state
        kcpConnected := entry.kcpConnected || kcpConnected
        attempts := entry.attempts
        failures := if kcpConnected then 0 else entry.failures
        hopCount :=
          if kcpConnected then 1 else if takesPath entry source hops then hops else entry.hopCount
        lastSeenMs := nowMs
        lastTryMs := entry.lastTryMs
        lastSuccessMs := if kcpConnected then nowMs else entry.lastSuccessMs } := by
  have takes : (source.any validRouteNode && !entry.kcpConnected &&
      (entry.hopCount = 0 || hops < entry.hopCount)) = takesPath entry source hops := rfl
  simp only [refreshEntry, takes]
  by_cases bad : entry.state = .bad
  · cases capability <;> cases kcpConnected <;> cases takesPath entry source hops <;> simp [bad]
  · cases capability <;> cases kcpConnected <;> cases takesPath entry source hops <;> simp [bad]

theorem DistinctIds.modify (distinct : manager.DistinctIds)
    (keeps : ∀ entry, entry.node.id = id → (change entry).node.id = id) :
    (manager.modify id change).DistinctIds :=
  Table.Distinct.modify distinct keeps

theorem DistinctIds.addRoute (distinct : manager.DistinctIds) :
    (manager.addRoute double config nowMs node source kcpConnected advertisedHopCount
      capability).1.DistinctIds := by
  apply addRoute_elim distinct
  intro after outcome
  cases outcome with
  | refused => exact distinct
  | refreshed =>
    apply distinct.modify
    intro entry _
    rw [refreshEntry_eq]
  | full _ _ _ trims => exact trims.distinct distinct
  | added _ _ absent trims =>
    exact Table.Distinct.cons (trims.distinct distinct) (trims.find_absent absent)

theorem DistinctIds.markSuccess (distinct : manager.DistinctIds) :
    (manager.markSuccess nowMs id kcpConnected).DistinctIds := by
  rw [markSuccess_eq]
  exact distinct.modify fun _ same => same

theorem DistinctIds.markFailure (distinct : manager.DistinctIds) :
    (manager.markFailure config nowMs id).DistinctIds := by
  rw [markFailure_eq]
  exact distinct.modify fun _ same => same

theorem DistinctIds.store (distinct : manager.DistinctIds) (entry : RouteEntry) :
    (manager.store entry).DistinctIds := by
  unfold RouteManager.store
  cases found : manager.find entry.node.id with
  | some old => exact distinct.modify fun _ _ => rfl
  | none => exact Table.Distinct.cons distinct found

theorem DistinctIds.foldl_store (distinct : manager.DistinctIds) (entries : List RouteEntry) :
    (entries.foldl RouteManager.store manager).DistinctIds := by
  induction entries generalizing manager with
  | nil => exact distinct
  | cons entry entries ih => exact ih (distinct.store entry)

theorem DistinctIds.perform {operation : RouteOperation}
    (distinct : manager.DistinctIds)
    (performed : manager.perform double config operation = some after) :
    after.DistinctIds := by
  cases operation with
  | addRoute =>
    cases performed
    exact distinct.addRoute
  | markAttempt =>
    cases performed
    exact distinct.modify fun _ same => same
  | markSuccess =>
    cases performed
    exact distinct.markSuccess
  | markFailure =>
    cases performed
    exact distinct.markFailure
  | markKcpDisconnected =>
    cases performed
    exact distinct.modify fun _ same => same
  | loadJsonFile nowMs library localId file =>
    cases performed
    have stored := distinct.foldl_store
      (RouteFile.read library config nowMs localId file).entries
    simp only [RouteManager.loadJsonFile]
    split_ifs
    · exact (trimmed_trimIfNeeded double config nowMs stored).distinct stored
    · exact stored
  | rehash order =>
    simp only [RouteManager.perform, Option.ite_none_right_eq_some, Option.some.injEq] at performed
    obtain ⟨same, rfl⟩ := performed
    exact Table.Distinct.perm distinct same

theorem distinctIds_of_run {operations : List RouteOperation} {finish : RouteManager}
    {condition : RouteManager → RouteOperation → Prop}
    (run : Run (perform double config) condition {} operations finish) : finish.DistinctIds := by
  apply run.invariant
  · exact Table.distinct_nil
  · intro before after operation _ performed distinct
    exact distinct.perform performed

end Distinct

section Count

structure Consistent (manager : RouteManager) : Prop where
  distinct : manager.DistinctIds
  counted : manager.kcpLinkCount = manager.connectedCount

theorem Consistent.modify (consistent : manager.Consistent)
    (keeps : ∀ entry, entry.node.id = id → (change entry).node.id = id)
    (present : ∀ entry, manager.find id = some entry →
      count + entry.kcpConnected.toNat = manager.kcpLinkCount + (change entry).kcpConnected.toNat)
    (absent : manager.find id = none → count = manager.kcpLinkCount) :
    Consistent { manager.modify id change with kcpLinkCount := count } where
  distinct := consistent.distinct.modify keeps
  counted := by
    have counted := consistent.counted
    simp only [connectedCount, modify_eq] at counted ⊢
    cases found : manager.find id with
    | none =>
      have same : Table.modify (·.node.id) manager.routes id change = manager.routes :=
        Table.modify_of_absent found
      rw [absent found, counted, same]
    | some entry =>
      have changed : (Table.modify (·.node.id) manager.routes id change).countP
            (·.kcpConnected) + entry.kcpConnected.toNat =
          manager.routes.countP (·.kcpConnected) + (change entry).kcpConnected.toNat :=
        Table.Distinct.countP_modify consistent.distinct (·.kcpConnected) found
      have fits := present entry found
      omega

theorem Consistent.of_trimmed (consistent : manager.Consistent) (trims : Trimmed manager trimmed) :
    trimmed.Consistent where
  distinct := trims.distinct consistent.distinct
  counted := by rw [trims.count, trims.connectedCount_eq, consistent.counted]

theorem Consistent.count_pos (consistent : manager.Consistent)
    (found : manager.find id = some entry) (connected : entry.kcpConnected = true) :
    0 < manager.kcpLinkCount := by
  rw [consistent.counted, connectedCount, countP_pos_iff]
  exact ⟨entry, Table.mem_of_find found, connected⟩

theorem Consistent.addRoute (consistent : manager.Consistent) :
    (manager.addRoute double config nowMs node source kcpConnected advertisedHopCount
      capability).1.Consistent := by
  apply addRoute_elim consistent.distinct
  intro after outcome
  cases outcome with
  | refused => exact consistent
  | @refreshed entry _ _ found =>
    apply consistent.modify
    · intro entry _
      rw [refreshEntry_eq]
    · intro other isOther
      cases found.symm.trans isOther
      rw [refreshEntry_eq]
      cases kcpConnected <;> cases entry.kcpConnected <;> simp
    · intro absent
      cases found.symm.trans absent
  | full _ _ _ trims => exact consistent.of_trimmed trims
  | added _ _ absent trims =>
    have trimmed := consistent.of_trimmed trims
    refine ⟨Table.Distinct.cons trimmed.distinct (trims.find_absent absent), ?_⟩
    have counted := trimmed.counted
    simp only [connectedCount, countP_cons, newEntry] at counted ⊢
    cases kcpConnected <;> simp [counted]

theorem Consistent.markSuccess (consistent : manager.Consistent) :
    (manager.markSuccess nowMs id kcpConnected).Consistent := by
  rw [markSuccess_eq]
  apply consistent.modify
  · intro entry same
    exact same
  · intro entry found
    cases kcpConnected <;> cases linked : entry.kcpConnected <;> simp [found, succeeded, linked]
  · intro absent
    simp [absent]

theorem Consistent.disconnect (consistent : manager.Consistent)
    (keeps : ∀ entry, entry.node.id = id → (change entry).node.id = id)
    (disconnects : ∀ entry, (change entry).kcpConnected = false) :
    Consistent { manager.modify id change with kcpLinkCount := manager.countWithout id } := by
  apply consistent.modify keeps
  · intro entry found
    rw [countWithout, found, disconnects]
    cases connected : entry.kcpConnected with
    | false => simp [connected]
    | true =>
      have positive := consistent.count_pos found connected
      simp only [Option.any_some, connected, if_true, Bool.toNat_true, Bool.toNat_false]
      omega
  · intro absent
    simp [countWithout, absent]

theorem Consistent.markFailure (consistent : manager.Consistent) :
    (manager.markFailure config nowMs id).Consistent := by
  rw [markFailure_eq]
  exact consistent.disconnect (fun _ same => same) fun _ => rfl

theorem Consistent.store (consistent : manager.Consistent)
    (unconnected : entry.kcpConnected = false)
    (spares : ∀ old, manager.find entry.node.id = some old → old.kcpConnected = false) :
    (manager.store entry).Consistent := by
  refine ⟨consistent.distinct.store entry, ?_⟩
  unfold RouteManager.store
  cases found : manager.find entry.node.id with
  | some old =>
    have modified : Consistent { manager.modify entry.node.id (fun _ => entry) with
        kcpLinkCount := manager.kcpLinkCount } := by
      apply consistent.modify
      · intro _ _
        rfl
      · intro other isOther
        cases found.symm.trans isOther
        rw [unconnected, spares old found]
      · intro _
        rfl
    exact modified.counted
  | none =>
    simpa [connectedCount, unconnected] using consistent.counted

theorem mem_store {stored : RouteEntry} (mem : stored ∈ (manager.store entry).routes) :
    stored = entry ∨ stored ∈ manager.routes := by
  rw [store] at mem
  split_ifs at mem
  · obtain ⟨old, isOld, rfl⟩ := mem_map.mp mem
    split_ifs
    · exact .inl rfl
    · exact .inr isOld
  · exact mem_cons.mp mem

theorem mem_foldl_store {entries : List RouteEntry} {stored : RouteEntry}
    (mem : stored ∈ (entries.foldl store manager).routes) :
    stored ∈ entries ∨ stored ∈ manager.routes := by
  induction entries generalizing manager with
  | nil => exact .inr mem
  | cons entry entries ih =>
    rcases ih mem with later | earlier
    · exact .inl (mem_cons_of_mem entry later)
    · rcases mem_store earlier with rfl | old
      · exact .inl mem_cons_self
      · exact .inr old

theorem find_store_self : (manager.store entry).find entry.node.id = some entry := by
  unfold store
  cases found : manager.find entry.node.id with
  | some old =>
    have changed : (manager.modify entry.node.id fun _ => entry).find entry.node.id =
        (manager.find entry.node.id).map fun _ => entry :=
      Table.find_modify_self fun _ _ => rfl
    rw [found] at changed
    exact changed
  | none => simp [find]

theorem find_store_of_ne (elsewhere : id ≠ entry.node.id) :
    (manager.store entry).find id = manager.find id := by
  unfold store
  cases manager.find entry.node.id with
  | some old => exact Table.find_modify_of_ne (fun _ _ => rfl) elsewhere
  | none => simp [find, elsewhere.symm]

theorem Consistent.foldl_store {entries : List RouteEntry} (consistent : manager.Consistent)
    (unconnected : ∀ entry ∈ entries, entry.kcpConnected = false)
    (spares : ∀ entry ∈ entries, ∀ old, manager.find entry.node.id = some old →
      old.kcpConnected = false) :
    (entries.foldl RouteManager.store manager).Consistent := by
  induction entries generalizing manager with
  | nil => exact consistent
  | cons first entries ih =>
    rw [forall_mem_cons] at unconnected spares
    apply ih (consistent.store unconnected.1 spares.1) unconnected.2
    -- An entry that was stored just before is not connected either.
    intro entry mem old found
    by_cases same : entry.node.id = first.node.id
    · rw [same, find_store_self] at found
      cases found
      exact unconnected.1
    · rw [find_store_of_ne same] at found
      exact spares.2 entry mem old found

/-- No file that is loaded names a node to which there is a link. -/
def SparesLinks (config : RouteManagerConfig) (manager : RouteManager) :
    RouteOperation → Prop
  | .loadJsonFile nowMs library localId file =>
    ∀ entry ∈ (RouteFile.read library config nowMs localId file).entries,
      ∀ old ∈ manager.find entry.node.id, old.kcpConnected = false
  | _ => True

theorem Consistent.perform {operation : RouteOperation}
    (consistent : manager.Consistent) (spares : SparesLinks config manager operation)
    (performed : manager.perform double config operation = some after) : after.Consistent := by
  cases operation with
  | addRoute =>
    cases performed
    exact consistent.addRoute
  | markAttempt =>
    cases performed
    apply consistent.modify
    · intro entry same
      exact same
    · intro entry _
      rfl
    · intro _
      rfl
  | markSuccess =>
    cases performed
    exact consistent.markSuccess
  | markFailure =>
    cases performed
    exact consistent.markFailure
  | markKcpDisconnected =>
    cases performed
    exact consistent.disconnect (fun _ same => same) fun _ => rfl
  | loadJsonFile nowMs library localId file =>
    cases performed
    have stored := consistent.foldl_store
      (fun entry mem => (RouteFile.mem_read mem).1) spares
    simp only [RouteManager.loadJsonFile]
    split_ifs
    · exact stored.of_trimmed (trimmed_trimIfNeeded double config nowMs stored.distinct)
    · exact stored
  | rehash order =>
    simp only [RouteManager.perform, Option.ite_none_right_eq_some, Option.some.injEq] at performed
    obtain ⟨same, rfl⟩ := performed
    refine ⟨Table.Distinct.perm consistent.distinct same, ?_⟩
    rw [connectedCount, same.countP_eq]
    exact consistent.counted

/-- The count of links is the number of connected entries, in every state that is reached while no
file overwrites the entry of a connected node. -/
theorem kcpLinkCount_eq_connected {operations : List RouteOperation} {finish : RouteManager}
    (run : Run (perform double config) (SparesLinks config) {} operations finish) :
    finish.kcpLinkCount = finish.routes.countP (·.kcpConnected) := by
  have consistent : finish.Consistent := by
    apply run.invariant
    · exact ⟨Table.distinct_nil, rfl⟩
    · intro before after operation spares performed consistent
      exact consistent.perform spares performed
  exact consistent.counted

section Example

def numbered (number : ℕ) : NodeAddress where
  endpoint := { host := "10.0.0.9".toList, port := 9000 }
  id := .ofUint32 number

def fileNaming (node : NodeAddress) : Bytes :=
  Text.toBytes <| "\x7b\"version\":1,\"entries\":[\x7b\"node\":\x7b\"host\":\"".toList ++
    node.endpoint.host ++ "\",\"port\":9000,\"public_key\":\"".toList ++ convidToHex node.id ++
    "\"\x7d\x7d]\x7d".toList

def linkThenLoad (linked loaded : ℕ) : List RouteOperation :=
  [ .addRoute 1000 (numbered linked) none true 0 none,
    .loadJsonFile 2000 nlohmann (.ofUint32 1) (some (fileNaming (numbered loaded))) ]

instance (manager : RouteManager) (operation : RouteOperation) :
    Decidable (SparesLinks config manager operation) :=
  match operation with
  | .loadJsonFile nowMs library localId file => inferInstanceAs (Decidable
      (∀ entry ∈ (RouteFile.read library config nowMs localId file).entries,
        ∀ old ∈ manager.find entry.node.id, old.kcpConnected = false))
  | .addRoute .. | .markAttempt .. | .markSuccess .. | .markFailure .. | .markKcpDisconnected ..
  | .rehash .. => .isTrue trivial

/-- A file with another node is loaded. -/
theorem kcpLinkCount_after_other_file :
    ∃ finish, Run (perform .exact {}) (SparesLinks {}) {} (linkThenLoad 2 3) finish ∧
      finish.routes.length = 2 ∧ finish.kcpLinkCount = 1 ∧
      finish.kcpLinkCount = finish.routes.countP (·.kcpConnected) := by
  apply Run.exists_of_execute fun finish => finish.routes.length = 2 && finish.kcpLinkCount = 1
  · decide +kernel
  · intro finish run facts
    simp only [Bool.and_eq_true, decide_eq_true_eq] at facts
    exact ⟨facts.1, facts.2, kcpLinkCount_eq_connected run⟩

/-- The service is stopped and started while there is a link to a node in its file: the link is
counted and there is no connected entry. -/
theorem kcpLinkCount_after_own_file :
    ∃ finish, Run (perform .exact {}) (fun _ _ => True) {} (linkThenLoad 2 2) finish ∧
      finish.kcpLinkCount = 1 ∧ finish.routes.countP (·.kcpConnected) = 0 := by
  apply Run.exists_of_execute fun finish =>
    finish.kcpLinkCount = 1 && finish.routes.countP (·.kcpConnected) = 0
  · decide +kernel
  · intro finish _ facts
    simpa using facts

end Example

end Count

section Connected

def connected (manager : RouteManager) (id : KcpConv) : Bool :=
  (manager.find id).any (·.kcpConnected)

variable {other : KcpConv}

theorem connected_of_mem (distinct : manager.DistinctIds) (mem : entry ∈ manager.routes)
    (linked : entry.kcpConnected = true) : manager.connected entry.node.id = true := by
  have found := distinct.find_eq_some.mpr ⟨mem, rfl⟩
  simp [connected, found, linked]

theorem connected_withCount {count : ℕ} :
    ({ manager with kcpLinkCount := count }).connected other = manager.connected other := rfl

theorem connected_rehash {order : List RouteEntry} (distinct : manager.DistinctIds)
    (same : order.Perm manager.routes) (other : KcpConv) :
    ({ manager with routes := order }).connected other = manager.connected other := by
  have found : ({ manager with routes := order }).find other = manager.find other :=
    Table.Distinct.find_perm distinct same other
  rw [connected, found, connected]

theorem connected_modify (manager : RouteManager)
    (keeps : ∀ entry, entry.node.id = id → (change entry).node.id = id) (other : KcpConv) :
    (manager.modify id change).connected other =
      if other = id then (manager.find id).any fun entry => (change entry).kcpConnected
      else manager.connected other := by
  rw [connected, find_modify manager keeps]
  split_ifs
  · rw [Option.any_map]
  · rfl

theorem connected_markAttempt : (manager.markAttempt nowMs id).connected other =
    manager.connected other := by
  have keeps : ∀ entry : RouteEntry, entry.node.id = id →
      (attempted nowMs entry).node.id = id := fun _ same => same
  rw [markAttempt_eq, connected_modify manager keeps]
  split_ifs with same
  · rw [same, connected]
    rfl
  · rfl

theorem connected_markSuccess : (manager.markSuccess nowMs id kcpConnected).connected other =
    (manager.connected other || (kcpConnected && other = id && (manager.find id).isSome)) := by
  have keeps : ∀ entry : RouteEntry, entry.node.id = id →
      (succeeded nowMs kcpConnected entry).node.id = id := fun _ same => same
  rw [markSuccess_eq, connected_withCount, connected_modify manager keeps]
  split_ifs with same
  · subst same
    rw [connected]
    cases manager.find other with
    | none => simp
    | some entry => simp [succeeded]
  · simp [same]

theorem connected_markFailure : (manager.markFailure config nowMs id).connected other =
    (manager.connected other && other ≠ id) := by
  have keeps : ∀ entry : RouteEntry, entry.node.id = id →
      (failed config nowMs entry).node.id = id := fun _ same => same
  rw [markFailure_eq, connected_withCount, connected_modify manager keeps]
  split_ifs with same
  · cases manager.find id <;> simp [same, failed]
  · simp [same]

theorem Trimmed.connected_eq (trims : Trimmed manager trimmed) (distinct : manager.DistinctIds)
    (other : KcpConv) : trimmed.connected other = manager.connected other := by
  rw [Bool.eq_iff_iff, connected, connected, Option.any_eq_true, Option.any_eq_true]
  constructor
  · rintro ⟨entry, found, linked⟩
    have mem := trims.sublist.subset (Table.mem_of_find found)
    exact ⟨entry, distinct.find_eq_some.mpr ⟨mem, id_of_find found⟩, linked⟩
  · rintro ⟨entry, found, linked⟩
    exact ⟨entry, trims.find_connected distinct found linked, linked⟩

theorem connected_refreshed {hops : ℕ} (found : manager.find node.id = some entry)
    (other : KcpConv) :
    (manager.modify node.id fun entry =>
      refreshEntry nowMs entry node source kcpConnected hops capability).connected other =
      if other = node.id then entry.kcpConnected || kcpConnected else manager.connected other := by
  have keeps : ∀ entry : RouteEntry, entry.node.id = node.id →
      (refreshEntry nowMs entry node source kcpConnected hops capability).node.id = node.id := by
    intro entry _
    rw [refreshEntry_eq]
  rw [connected_modify manager keeps, found, Option.any_some, refreshEntry_eq]

theorem connected_cons {count : ℕ} (manager : RouteManager) (other : KcpConv) :
    ({ routes := entry :: manager.routes, kcpLinkCount := count : RouteManager }).connected other =
      if other = entry.node.id then entry.kcpConnected else manager.connected other := by
  rw [connected, connected]
  split_ifs with same
  · simp [find, same]
  · simp [find, Ne.symm same]

theorem AddRoute.connected_iff (distinct : manager.DistinctIds)
    (outcome : AddRoute config manager nowMs node source kcpConnected advertisedHopCount capability
      after) (other : KcpConv) :
    (after.connected other = true → manager.connected other = true ∨
      kcpConnected = true ∧ other = node.id) ∧
      (manager.connected other = true → after.connected other = true) := by
  cases outcome with
  | refused => exact ⟨.inl, id⟩
  | @refreshed entry _ _ found =>
    rw [connected_withCount, connected_refreshed found]
    split_ifs with same
    · have known : manager.connected node.id = entry.kcpConnected := by simp [connected, found]
      rw [same, known, Bool.or_eq_true]
      exact ⟨fun linked => linked.imp_right fun told => ⟨told, rfl⟩, .inl⟩
    · exact ⟨.inl, id⟩
  | full _ _ _ trims =>
    rw [trims.connected_eq distinct]
    exact ⟨.inl, id⟩
  | added _ _ absent trims =>
    rw [connected_cons, trims.connected_eq distinct]
    split_ifs with same
    · have unknown : manager.connected node.id = false := by simp [connected, absent]
      have isNode : other = node.id := same
      rw [isNode, unknown]
      simp [newEntry]
    · exact ⟨.inl, id⟩

theorem length_trimIfNeeded_lt (double : DoubleArithmetic) (nowMs : ℤ)
    (fits : manager.routes.length ≤ config.maxRoutes)
    (unconnected : manager.connectedCount < config.maxRoutes) :
    (manager.trimIfNeeded double config nowMs).routes.length < config.maxRoutes := by
  unfold trimIfNeeded
  by_cases room : manager.routes.length < config.maxRoutes
  · rwa [if_pos room]
  rw [if_neg room]
  set kept := manager.routes.filter fun entry =>
    entry.kcpConnected || !isTerrible config nowMs entry with isKept
  have shorter : kept.length ≤ manager.routes.length := length_filter_le _ _
  dsimp only
  by_cases roomNow : kept.length < config.maxRoutes
  · rwa [if_pos roomNow]
  rw [if_neg roomNow]
  -- Nothing was dropped, so there is an entry without a link, and one of them is the victim.
  cases chosen : (kept.filter fun entry => !entry.kcpConnected).argmin
      (victimScore double config nowMs) with
  | none =>
    rw [argmin_eq_none, filter_eq_nil_iff] at chosen
    have allConnected : kept.countP (·.kcpConnected) = kept.length := by
      rw [countP_eq_length]
      intro entry mem
      simpa using chosen entry mem
    have counted : kept.countP (·.kcpConnected) ≤ manager.connectedCount :=
      filter_sublist.countP_le
    omega
  | some victim =>
    have isVictim := mem_of_mem_filter (argmin_mem chosen)
    have dropped : (kept.filter fun entry => entry.node.id ≠ victim.node.id).length <
        kept.length := by
      apply length_filter_lt_length_iff_exists.mpr
      exact ⟨victim, isVictim, by simp⟩
    dsimp only
    omega

variable (double) in
theorem connected_addRoute_self (valid : validRouteNode node = true) (near : 1 ≤ config.maxRouteHops)
    (fits : manager.routes.length ≤ config.maxRoutes)
    (unconnected : manager.connectedCount < config.maxRoutes) :
    (manager.addRoute double config nowMs node source true advertisedHopCount
      capability).1.connected node.id = true := by
  have hops : localHopCount source true advertisedHopCount = 1 := rfl
  unfold addRoute
  rw [if_neg (by simpa [valid, hops] using Nat.one_le_iff_ne_zero.mp near)]
  cases found : manager.find node.id with
  | some entry =>
    dsimp only
    rw [connected_withCount, connected_refreshed found, if_pos rfl, Bool.or_true]
  | none =>
    have room := length_trimIfNeeded_lt double nowMs fits unconnected
    dsimp only
    rw [if_neg (not_le.mpr room), if_neg (not_le.mpr room), connected_cons]
    simp [newEntry]

theorem AddRoute.length_le (fits : manager.routes.length ≤ config.maxRoutes)
    (outcome : AddRoute config manager nowMs node source kcpConnected advertisedHopCount capability
      after) : after.routes.length ≤ config.maxRoutes := by
  cases outcome with
  | refused => exact fits
  | refreshed => exact le_of_eq_of_le Table.length_modify fits
  | full _ _ _ trims => exact trims.sublist.length_le.trans fits
  | added _ _ _ _ room => exact room

end Connected

section Paths

variable {after : RouteManager}

variable (source kcpConnected advertisedHopCount) in
/-- What `add_route` can do to the path of the entry that it is called for. -/
inductive PathChange (before : Option RouteEntry) (entry : RouteEntry) : Prop where
  | kept {old : RouteEntry} (was : before = some old) (sameSource : entry.source = old.source)
      (sameHops : entry.hopCount = old.hopCount)
  | linked (connects : kcpConnected = true)
      (learnt : entry.source = none ∨ entry.source = source.filter validRouteNode)
      (hops : entry.hopCount = 1)
  | taken (unconnected : kcpConnected = false)
      (learnt : entry.source = source.filter validRouteNode)
      (hops : entry.hopCount = localHopCount source false advertisedHopCount)
      (shorter : ∀ old ∈ before, source.any validRouteNode = true ∧
        (old.hopCount = 0 ∨ entry.hopCount < old.hopCount))

theorem pathChange_refreshEntry (nowMs : ℤ) (node : NodeAddress) (old : RouteEntry) :
    PathChange source kcpConnected advertisedHopCount (some old)
      (refreshEntry nowMs old node source kcpConnected
        (localHopCount source kcpConnected advertisedHopCount) capability) := by
  rw [refreshEntry_eq]
  cases kcpConnected with
  | true => exact .linked rfl (.inl rfl) rfl
  | false =>
    by_cases takes : takesPath old source (localHopCount source false advertisedHopCount) = true
    · have conditions := takes
      simp only [takesPath, Bool.and_eq_true, Bool.or_eq_true, decide_eq_true_eq] at conditions
      obtain ⟨⟨valid, -⟩, shorter⟩ := conditions
      refine .taken rfl ?_ ?_ ?_
      · cases source with
        | none => cases valid
        | some source =>
          have isValid : validRouteNode source = true := valid
          simp [takes, Option.filter, isValid]
      · simp [takes]
      · rintro _ ⟨⟩
        simpa [takes] using ⟨valid, shorter⟩
    · exact .kept rfl (by simp [takes]) (by simp [takes])

theorem AddRoute.pathChange (distinct : manager.DistinctIds)
    (outcome : AddRoute config manager nowMs node source kcpConnected advertisedHopCount capability
      after) (found : after.find id = some entry) :
    manager.find id = some entry ∨ id = node.id ∧ validRouteNode node = true ∧
      localHopCount source kcpConnected advertisedHopCount ≤ config.maxRouteHops ∧
      PathChange source kcpConnected advertisedHopCount (manager.find node.id) entry := by
  have trimmedFind : ∀ {trimmed : RouteManager}, Trimmed manager trimmed →
      trimmed.find id = some entry → manager.find id = some entry := by
    intro trimmed trims found
    have mem := trims.sublist.subset (Table.mem_of_find found)
    exact distinct.find_eq_some.mpr ⟨mem, id_of_find found⟩
  cases outcome with
  | refused => exact .inl found
  | @refreshed old valid near known =>
    have keeps : ∀ entry : RouteEntry, entry.node.id = node.id →
        (refreshEntry nowMs entry node source kcpConnected
          (localHopCount source kcpConnected advertisedHopCount) capability).node.id =
          node.id := by
      intro entry _
      rw [refreshEntry_eq]
    have changed : (manager.modify node.id fun entry => refreshEntry nowMs entry node source
        kcpConnected (localHopCount source kcpConnected advertisedHopCount) capability).find id =
        some entry := found
    rw [find_modify manager keeps] at changed
    split_ifs at changed with same
    · rw [known, Option.map_some, Option.some.injEq] at changed
      rw [known, ← changed]
      exact .inr ⟨same, valid, near, pathChange_refreshEntry nowMs node old⟩
    · exact .inl changed
  | full _ _ _ trims => exact .inl (trimmedFind trims found)
  | @added trimmed valid near absent trims =>
    by_cases same : id = node.id
    · subst same
      have isNew : newEntry nowMs node source kcpConnected
          (localHopCount source kcpConnected advertisedHopCount) capability = entry := by
        simpa [find, newEntry] using found
      refine .inr ⟨rfl, valid, near, ?_⟩
      rw [absent, ← isNew]
      cases kcpConnected with
      | true => exact .linked rfl (.inr rfl) rfl
      | false => exact .taken rfl rfl rfl (by simp)
    · left
      apply trimmedFind trims
      simpa [find, newEntry, Ne.symm same] using found

end Paths

section NextHop

/-- There is a link to the node, and it is not given up. -/
def Live (manager : RouteManager) (id : KcpConv) : Prop :=
  ∃ entry ∈ manager.find id, entry.kcpConnected = true ∧ entry.state ≠ .bad

theorem selectNextHop_isSome : (manager.selectNextHop id).isSome ↔
    ∃ entry ∈ manager.find id, entry.state ≠ .bad ∧
      (entry.kcpConnected = true ∨ ∃ source ∈ entry.source, manager.Live source.id) := by
  unfold selectNextHop
  cases manager.find id with
  | none => simp
  | some entry =>
    by_cases bad : entry.state = .bad
    · simp [bad]
    by_cases connected : entry.kcpConnected = true
    · simp [bad, connected]
    cases learnt : entry.source with
    | none => simp [bad, connected, learnt]
    | some source =>
      cases found : manager.find source.id with
      | none => simp [bad, connected, Live, learnt, found]
      | some via =>
        cases via.kcpConnected <;> by_cases given : via.state = .bad <;> simp_all [Live]

theorem selectNextHop_eq_some {hop : RouteNextHop} (chosen : manager.selectNextHop id = some hop) :
    ∃ entry, manager.find id = some entry ∧
      (hop.nextHop = entry.node ∨
        entry.kcpConnected = false ∧ ∃ source via, entry.source = some source ∧
          manager.find source.id = some via ∧ via.kcpConnected = true ∧
          hop.nextHop = via.node) := by
  unfold selectNextHop at chosen
  cases found : manager.find id with
  | none =>
    rw [found] at chosen
    cases chosen
  | some entry =>
    rw [found] at chosen
    dsimp only at chosen
    refine ⟨entry, rfl, ?_⟩
    split_ifs at chosen with bad connected
    · cases chosen
      exact .inl rfl
    · right
      refine ⟨by simpa using connected, ?_⟩
      cases learnt : entry.source with
      | none =>
        rw [learnt] at chosen
        cases chosen
      | some source =>
        rw [learnt, Option.bind_some] at chosen
        cases known : manager.find source.id with
        | none =>
          rw [known] at chosen
          cases chosen
        | some via =>
          rw [known] at chosen
          dsimp only at chosen
          split_ifs at chosen with unusable
          cases chosen
          rw [Bool.or_eq_true, not_or, Bool.not_eq_true, Bool.not_eq_false'] at unusable
          exact ⟨source, via, rfl, known, unusable.1, rfl⟩

variable {source target : NodeAddress} {advertisedHopCount : ℕ}
  {capability : Option NodeCapability}

/-- What is known about the target does not stand in the way of a path through the source: there is
nothing stored, what is stored is not shorter, or what is stored works. -/
def PathUsable (manager : RouteManager) (source target : NodeAddress) (advertisedHopCount : ℕ) :
    Prop :=
  ∀ entry ∈ manager.find target.id,
    entry.kcpConnected = true ∨ entry.hopCount = 0 ∨
      localHopCount (some source) false advertisedHopCount < entry.hopCount ∨
      ∃ stored ∈ entry.source, manager.Live stored.id

theorem localHopCount_le (source : Option NodeAddress) (hops : ℕ) :
    localHopCount source false hops ≤ hops + 1 := by
  unfold localHopCount
  split_ifs <;> omega

theorem live_modify (unconnected : ∀ entry ∈ manager.find id, entry.kcpConnected = false)
    (keeps : ∀ entry, entry.node.id = id → (change entry).node.id = id)
    (unlinked : ∀ entry ∈ manager.find id, (change entry).kcpConnected = false) (other : KcpConv) :
    (manager.modify id change).Live other ↔ manager.Live other := by
  by_cases same : other = id
  · have changed : (manager.modify id change).find id = (manager.find id).map change :=
      Table.find_modify_self keeps
    subst same
    rw [Live, Live, changed]
    cases found : manager.find other with
    | none => simp
    | some entry => simp [unconnected entry found, unlinked entry found]
  · have unchanged : (manager.modify id change).find other = manager.find other :=
      Table.find_modify_of_ne keeps same
    rw [Live, Live, unchanged]

theorem selectNextHop_refreshed {hops count : ℕ} (found : manager.find target.id = some entry)
    (validSource : validRouteNode source = true) (live : manager.Live source.id) :
    (({ manager.modify target.id fun entry =>
      refreshEntry nowMs entry target (some source) false hops capability with
        kcpLinkCount := count }).selectNextHop target.id).isSome ↔
      entry.kcpConnected = true ∨ entry.hopCount = 0 ∨ hops < entry.hopCount ∨
        ∃ stored ∈ entry.source, manager.Live stored.id := by
  set change : RouteEntry → RouteEntry := fun entry =>
    refreshEntry nowMs entry target (some source) false hops capability with isChange
  have keeps : ∀ entry : RouteEntry, entry.node.id = target.id →
      (change entry).node.id = target.id := by
    intro entry _
    simp [isChange, refreshEntry_eq]
  have changed : (manager.modify target.id change).find target.id = some (change entry) := by
    have changed : (manager.modify target.id change).find target.id =
        (manager.find target.id).map change := Table.find_modify_self keeps
    rw [changed, found, Option.map_some]
  have good : (change entry).state ≠ .bad := by
    simp only [isChange, refreshEntry_eq, Bool.false_eq_true, if_false]
    split_ifs with bad
    · simp
    · exact bad
  have linkKept : (change entry).kcpConnected = entry.kcpConnected := by
    simp [isChange, refreshEntry_eq]
  have expanded : (({ manager.modify target.id change with kcpLinkCount := count }).selectNextHop
      target.id).isSome ↔ entry.kcpConnected = true ∨
        ∃ stored ∈ (change entry).source, (manager.modify target.id change).Live stored.id := by
    rw [selectNextHop_isSome]
    constructor
    · rintro ⟨found, isFound, -, usable⟩
      cases changed.symm.trans isFound
      rw [linkKept] at usable
      exact usable
    · intro usable
      rw [← linkKept] at usable
      exact ⟨change entry, changed, good, usable⟩
  rw [expanded]
  cases linked : entry.kcpConnected with
  | true => simp
  | false =>
    have liveKept : ∀ other, (manager.modify target.id change).Live other ↔ manager.Live other := by
      apply live_modify _ keeps
      · intro other isOther
        cases found.symm.trans isOther
        rw [linkKept, linked]
      · intro other isOther
        cases found.symm.trans isOther
        exact linked
    have takes : takesPath entry (some source) hops = true ↔
        entry.hopCount = 0 ∨ hops < entry.hopCount := by
      simp [takesPath, validSource, linked]
    have path : (change entry).source =
        if takesPath entry (some source) hops then some source else entry.source := by
      simp [isChange, refreshEntry_eq]
    simp only [liveKept, path, Bool.false_eq_true, false_or, ← or_assoc, ← takes]
    cases takesPath entry (some source) hops with
    | true => simpa using live
    | false => simp

theorem AddRoute.selectNextHop_iff {via : RouteEntry}
    (outcome : AddRoute config manager nowMs target (some source) false advertisedHopCount
      capability after)
    (distinct : manager.DistinctIds) (different : source.id ≠ target.id)
    (validSource : validRouteNode source = true) (validTarget : validRouteNode target = true)
    (inTable : manager.find source.id = some via) (connected : via.kcpConnected = true)
    (good : via.state ≠ .bad) (near : advertisedHopCount + 1 ≤ config.maxRouteHops)
    (present : (after.find target.id).isSome) :
    (after.selectNextHop target.id).isSome ↔
      manager.PathUsable source target advertisedHopCount := by
  cases outcome with
  | refused reason =>
    have bound := localHopCount_le (some source) advertisedHopCount
    rcases reason with invalid | tooFar
    · rw [validTarget] at invalid
      cases invalid
    · omega
  | @refreshed entry _ _ found =>
    rw [selectNextHop_refreshed found validSource ⟨via, inTable, connected, good⟩]
    simp [PathUsable, found]
  | full _ _ absent trims =>
    rw [trims.find_absent absent] at present
    cases present
  | added _ _ absent trims =>
    -- The entry is new, and trimming has kept the source.
    have kept := trims.find_connected distinct inTable connected
    constructor
    · intro _ entry found
      cases absent.symm.trans found
    · intro _
      rw [selectNextHop_isSome]
      refine ⟨newEntry nowMs target (some source) false
        (localHopCount (some source) false advertisedHopCount) capability, ?_, ?_, .inr ?_⟩
      · simp [find, newEntry]
      · simp [newEntry]
      · refine ⟨source, by simp [newEntry, validSource], via, ?_, connected, good⟩
        rw [Option.mem_def, ← kept]
        simp [find, newEntry, different.symm]

/-- A node that advertises a target has a link. The table has a next hop to the target then exactly
if what was stored before does not stand in the way. -/
theorem selectNextHop_addRoute_iff {operations : List RouteOperation} {via : RouteEntry}
    (run : Run (perform double config) (fun _ _ => True) {} operations manager)
    (different : source.id ≠ target.id) (validSource : validRouteNode source = true)
    (validTarget : validRouteNode target = true) (inTable : manager.find source.id = some via)
    (connected : via.kcpConnected = true) (good : via.state ≠ .bad)
    (near : advertisedHopCount + 1 ≤ config.maxRouteHops)
    (present : ((manager.addRoute double config nowMs target (some source) false advertisedHopCount
      capability).1.find target.id).isSome) :
    ((manager.addRoute double config nowMs target (some source) false advertisedHopCount
      capability).1.selectNextHop target.id).isSome ↔
      manager.PathUsable source target advertisedHopCount :=
  have distinct := distinctIds_of_run run
  (addRoute_outcome double config distinct).selectNextHop_iff distinct different validSource
    validTarget inTable connected good near present

instance (manager : RouteManager) (id : KcpConv) : Decidable (manager.Live id) :=
  inferInstanceAs (Decidable (∃ entry ∈ manager.find id, entry.kcpConnected = true ∧
    entry.state ≠ .bad))

/-- Node 3 as node `source` advertises it. -/
def advertised (manager : RouteManager) (source : ℕ) : RouteManager :=
  (manager.addRoute .exact {} 3000 (numbered 3) (some (numbered source)) false 1 none).1

/-- The target was not in the table before it was advertised. -/
theorem selectNextHop_of_unknown :
    ∃ manager, Run (perform .exact {}) (fun _ _ => True) {}
      [.addRoute 1000 (numbered 2) none true 0 none] manager ∧
      ((manager.advertised 2).selectNextHop (.ofUint32 3)).isSome = true := by
  apply Run.exists_of_execute fun manager =>
    manager.Live (.ofUint32 2) && ((manager.advertised 2).find (.ofUint32 3)).isSome &&
      (manager.find (.ofUint32 3)).isNone
  · decide +kernel
  · intro manager run facts
    simp only [Bool.and_eq_true, decide_eq_true_eq] at facts
    obtain ⟨⟨⟨via, inTable, connected, good⟩, present⟩, absent⟩ := facts
    apply (selectNextHop_addRoute_iff run (by decide) (by decide) (by decide) inTable connected good
      (by decide) present).mpr
    intro entry found
    rw [Option.mem_def] at found
    have target : (numbered 3).id = .ofUint32 3 := rfl
    rw [target.symm, found] at absent
    cases absent

/-- Two histories after which a node that is linked advertises node 3 in vain: node 3 had a link of
its own, and node 3 was learnt from another node that had one. -/
theorem selectNextHop_of_stale :
    (∃ manager, Run (perform .exact {}) (fun _ _ => True) {}
      [ .addRoute 1000 (numbered 2) none true 0 none,
        .addRoute 1000 (numbered 3) none true 0 none,
        .markFailure 2000 (.ofUint32 3) ] manager ∧
      manager.Live (.ofUint32 2) ∧ ((manager.advertised 2).find (.ofUint32 3)).isSome = true ∧
      (manager.advertised 2).selectNextHop (.ofUint32 3) = none) ∧
    ∃ manager, Run (perform .exact {}) (fun _ _ => True) {}
      [ .addRoute 1000 (numbered 2) none true 0 none,
        .addRoute 1000 (numbered 4) none true 0 none,
        .addRoute 1000 (numbered 3) (some (numbered 4)) false 1 none,
        .markFailure 2000 (.ofUint32 4) ] manager ∧
      manager.Live (.ofUint32 2) ∧ ((manager.advertised 2).find (.ofUint32 3)).isSome = true ∧
      (manager.advertised 2).selectNextHop (.ofUint32 3) = none := by
  constructor
  · apply Run.exists_of_execute fun manager =>
      manager.Live (.ofUint32 2) && ((manager.advertised 2).find (.ofUint32 3)).isSome &&
        (manager.advertised 2).selectNextHop (.ofUint32 3) = none
    · decide +kernel
    · intro manager _ facts
      simpa [and_assoc] using facts
  · apply Run.exists_of_execute fun manager =>
      manager.Live (.ofUint32 2) && ((manager.advertised 2).find (.ofUint32 3)).isSome &&
        (manager.advertised 2).selectNextHop (.ofUint32 3) = none
    · decide +kernel
    · intro manager _ facts
      simpa [and_assoc] using facts

end NextHop

end RouteManager

end IotProxy.Proxy
