import IotProxy.Proxy.RouteTable

/-!
# Which route is kept, chosen and given up

A failure sets the time of the last try before it looks whether the route is terrible, and a route
that was just tried never is. So only the number of failures makes a route bad
(`markFailure_bad_iff`).
-/

namespace IotProxy.Proxy

open List

namespace RouteManager

variable {config : RouteManagerConfig} {manager : RouteManager} {nowMs : ℤ} {entry : RouteEntry}

def numberedNode (number : ℕ) : NodeAddress where
  endpoint := { host := "10.0.0.2".toList, port := 9000 }
  id := .ofUint32 number

section Failure

theorem isTerrible_tried {failures : ℕ} (terrible : isTerrible config nowMs entry = true)
    (more : entry.failures ≤ failures) :
    isTerrible config nowMs { entry with lastTryMs := nowMs, failures, kcpConnected := false } =
      decide (nowMs = 0) := by
  have recent : nowMs - secondsToMs config.retryBackoffSeconds ≤ nowMs := by
    unfold secondsToMs
    omega
  by_cases zero : nowMs = 0
  · unfold isTerrible at terrible ⊢
    simp only [zero, ne_eq, not_true_eq_false, false_and, if_false, decide_true] at terrible ⊢
    split_ifs at terrible ⊢ with tried future stale gaveUp
    · rfl
    · rfl
    · rfl
    · simp only [decide_eq_true_eq] at terrible ⊢
      exact ⟨terrible.1, terrible.2.1, terrible.2.2.trans more⟩
  · rw [isTerrible, if_pos ⟨zero, recent⟩, decide_eq_false zero]

/-- A route that was terrible is bad after a failure if and only if the clock is at zero, it has
failed often enough, or it was bad before and has had a success. -/
theorem markFailure_bad_iff {id : KcpConv} (found : manager.find id = some entry)
    (terrible : isTerrible config nowMs entry = true) :
    (∃ after, (manager.markFailure config nowMs id).find id = some after ∧ after.state = .bad) ↔
      nowMs = 0 ∨ entry.state = .bad ∧ entry.lastSuccessMs ≠ 0 ∨ config.badFailureThreshold ≤
        if entry.failures < 2 ^ 32 - 1 then entry.failures + 1 else entry.failures := by
  have after : (manager.markFailure config nowMs id).find id =
      some (failed config nowMs entry) := by
    have changed := @find_modify id (failed config nowMs) manager (fun _ same => same) id
    rw [if_pos rfl, found] at changed
    rw [markFailure_eq]
    exact changed
  have more : entry.failures ≤
      if entry.failures < 2 ^ 32 - 1 then entry.failures + 1 else entry.failures := by
    split_ifs <;> omega
  simp only [after, Option.some.injEq, exists_eq_left', failed, isTerrible_tried terrible more,
    Bool.or_eq_true, decide_eq_true_eq]
  generalize (if entry.failures < 2 ^ 32 - 1 then entry.failures + 1 else entry.failures) = failures
  split_ifs with givenUp never
  · tauto
  · tauto
  · tauto

/-- A route that has used up its attempts, and the failure that makes it bad. -/
theorem tenth_failure_bad :
    let entry : RouteEntry :=
      { node := numberedNode 2, attempts := 3, failures := 9, lastSeenMs := 1000000 }
    isTerrible {} 1000000 entry = true ∧
    ∃ after, ((⟨[entry], 0⟩ : RouteManager).markFailure {} 1000000 entry.node.id).find
      entry.node.id = some after ∧ after.state = .bad := by
  intro entry
  have terrible : isTerrible {} 1000000 entry = true := by decide
  refine ⟨terrible, (markFailure_bad_iff (by simp [find, entry]) terrible).mpr ?_⟩
  exact .inr (.inr (by decide))

/-- A node that never succeeded has used up its three attempts, and fails once more. -/
theorem hopeless_route_new :
    let entry : RouteEntry :=
      { node := numberedNode 2, attempts := 3, failures := 3, lastSeenMs := 1000000
        lastTryMs := 800000 }
    isTerrible {} 1000000 entry = true ∧
    ((⟨[entry], 0⟩ : RouteManager).markFailure {} 1000000 entry.node.id).routes.map (·.state) =
      [.new] := by
  decide

end Failure

section Choice

def HasRoom (current limit : ℕ) : Prop :=
  limit = 0 ∨ current < limit

/-- What the node has said about itself lets it take traffic. -/
def TakesTraffic (config : RouteManagerConfig) (nowMs : ℤ) (cap : NodeCapability) : Prop :=
  cap.present = false ∨ cap.acceptingIngress = true ∧
    ((cap.updatedAtMs ≠ 0 ∧
        cap.updatedAtMs < nowMs - secondsToMs config.capabilityStaleAfterSeconds) ∨
      (HasRoom cap.currentKcpLinks cap.maxKcpLinks ∧
        HasRoom cap.currentIngressStreams cap.maxIngressStreams ∧
        HasRoom cap.currentIngressBytesPerSecond cap.maxIngressBytesPerSecond))

def Eligible (config : RouteManagerConfig) (nowMs : ℤ) (entry : RouteEntry) : Prop :=
  entry.kcpConnected = true ∧ entry.state ≠ .bad ∧ TakesTraffic config nowMs entry.capability

theorem routeChance_pos : 0 < routeChance .exact nowMs entry := by
  have power : (0 : ℚ) < (66 / 100) ^ min entry.attempts 8 := by positivity
  simp only [routeChance, DoubleArithmetic.exact, DoubleArithmetic.mul, id_eq]
  cases entry.state <;> dsimp only <;> split_ifs <;> positivity

theorem loadOf_exact {load : ℚ} {current limit : ℕ} (below : load < 1) :
    (loadOf .exact load current limit = none ∧ ¬HasRoom current limit) ∨
      ∃ next, loadOf .exact load current limit = some next ∧ next < 1 ∧ HasRoom current limit := by
  unfold loadOf HasRoom
  split_ifs with unlimited full
  · exact .inr ⟨load, rfl, below, .inl unlimited⟩
  · exact .inl ⟨rfl, by omega⟩
  · refine .inr ⟨_, rfl, max_lt below ?_, by omega⟩
    simp only [DoubleArithmetic.exact, DoubleArithmetic.div, id_eq]
    rw [div_lt_one (by exact_mod_cast Nat.pos_of_ne_zero unlimited)]
    exact_mod_cast not_le.mp full

theorem capabilityScore_pos_iff : 0 < capabilityScore .exact config nowMs entry ↔
    TakesTraffic config nowMs entry.capability := by
  have scored {load : ℚ} (below : load < 1) : (0 : ℚ) <
      DoubleArithmetic.exact.add (DoubleArithmetic.exact.round (1 / 10))
        (DoubleArithmetic.exact.mul (DoubleArithmetic.exact.round (9 / 10))
          (DoubleArithmetic.exact.sub 1 (max 0 (min 1 load)))) := by
    have bound : max 0 (min 1 load) < 1 := max_lt one_pos ((min_le_right _ _).trans_lt below)
    simp only [DoubleArithmetic.exact, DoubleArithmetic.add, DoubleArithmetic.mul,
      DoubleArithmetic.sub, id_eq]
    linarith
  unfold capabilityScore TakesTraffic
  generalize entry.capability = cap
  dsimp only
  split_ifs with absent refusing stale
  · simp_all
  · simp_all
  · simp_all
  · simp only [Bool.not_eq_true', Bool.not_eq_false] at absent refusing
    simp only [absent, refusing, stale, Bool.true_eq_false, false_or, true_and]
    obtain ⟨none, full⟩ | ⟨links, isLinks, below, linksFree⟩ :=
      @loadOf_exact 0 cap.currentKcpLinks cap.maxKcpLinks one_pos
    · simp [none, full]
    · obtain ⟨none, full⟩ | ⟨streams, isStreams, below, streamsFree⟩ :=
        @loadOf_exact links cap.currentIngressStreams cap.maxIngressStreams below
      · simp [isLinks, none, full]
      · obtain ⟨none, full⟩ | ⟨bytes, isBytes, below, bytesFree⟩ := @loadOf_exact streams
          cap.currentIngressBytesPerSecond cap.maxIngressBytesPerSecond below
        · simp [isLinks, isStreams, none, full]
        · simp only [isLinks, isStreams, isBytes, Option.bind_some, linksFree, streamsFree,
            bytesFree, and_self, iff_true]
          exact scored below

theorem usable_iff : usable .exact config nowMs entry = true ↔ Eligible config nowMs entry := by
  have sign : 0 < routeScore .exact config nowMs entry ↔
      TakesTraffic config nowMs entry.capability := by
    rw [← @capabilityScore_pos_iff config nowMs entry]
    simp only [routeScore, DoubleArithmetic.exact, DoubleArithmetic.mul, DoubleArithmetic.div,
      id_eq]
    have chance := @routeChance_pos nowMs entry
    simp only [DoubleArithmetic.exact] at chance
    split_ifs with far
    · rw [div_pos_iff_of_pos_right (by exact_mod_cast Nat.zero_lt_of_lt far)]
      exact mul_pos_iff_of_pos_left chance
    · exact mul_pos_iff_of_pos_left chance
  simp [usable, Eligible, sign, and_assoc]

/-- A next hop is returned if and only if some route is eligible; it is the node of an eligible route,
and no eligible one has a larger score. -/
theorem selectDefaultNextHop_best (config : RouteManagerConfig) (manager : RouteManager)
    (nowMs : ℤ) :
    ((manager.selectDefaultNextHop .exact config nowMs).isSome = true ↔
      ∃ entry ∈ manager.routes, Eligible config nowMs entry) ∧
    ∀ hop ∈ manager.selectDefaultNextHop .exact config nowMs, ∃ entry ∈ manager.routes,
      Eligible config nowMs entry ∧
      hop = { target := entry.node, nextHop := entry.node, direct := true, hopCount := 1 } ∧
      ∀ other ∈ manager.routes, Eligible config nowMs other →
        routeScore .exact config nowMs other ≤ routeScore .exact config nowMs entry := by
  have eligible {entry : RouteEntry} : entry ∈ manager.routes.filter (usable .exact config nowMs) ↔
      entry ∈ manager.routes ∧ Eligible config nowMs entry := by
    rw [mem_filter, usable_iff]
  unfold selectDefaultNextHop
  constructor
  · rw [Option.isSome_map, Option.isSome_iff_ne_none, ne_eq, argmax_eq_none,
      eq_nil_iff_forall_not_mem]
    simp only [eligible]
    push Not
    rfl
  · intro hop chosen
    obtain ⟨entry, isBest, rfl⟩ := Option.map_eq_some_iff.mp chosen
    obtain ⟨mem, isEligible⟩ := eligible.mp (argmax_mem isBest)
    refine ⟨entry, mem, isEligible, rfl, ?_⟩
    intro other otherMem otherEligible
    exact le_of_mem_argmax (eligible.mpr ⟨otherMem, otherEligible⟩) isBest

end Choice

section Eviction

variable {double : DoubleArithmetic}

variable (config nowMs) in
def lasting (entry : RouteEntry) : Bool :=
  entry.kcpConnected || !isTerrible config nowMs entry

/-- The unconnected route with the lowest score. -/
structure Victim (double : DoubleArithmetic) (config : RouteManagerConfig) (nowMs : ℤ)
    (routes : List RouteEntry) (victim : RouteEntry) : Prop where
  mem : victim ∈ routes
  unconnected : victim.kcpConnected = false
  lowest : ∀ entry ∈ routes, entry.kcpConnected = false →
    victimScore double config nowMs victim ≤ victimScore double config nowMs entry

inductive Trims (double : DoubleArithmetic) (config : RouteManagerConfig) (nowMs : ℤ)
    (routes : List RouteEntry) : List RouteEntry → Prop where
  | room (free : routes.length < config.maxRoutes) : Trims double config nowMs routes routes
  | terrible (full : config.maxRoutes ≤ routes.length)
      (free : (routes.filter (lasting config nowMs)).length < config.maxRoutes) :
      Trims double config nowMs routes (routes.filter (lasting config nowMs))
  | connected (full : config.maxRoutes ≤ (routes.filter (lasting config nowMs)).length)
      (all : ∀ entry ∈ routes, entry.kcpConnected = true) : Trims double config nowMs routes routes
  | victim {victim : RouteEntry}
      (full : config.maxRoutes ≤ (routes.filter (lasting config nowMs)).length)
      (isVictim : Victim double config nowMs routes victim) :
      Trims double config nowMs routes (routes.filter (·.node.id ≠ victim.node.id))

variable (double nowMs) in
theorem trims_trimIfNeeded (bounded : manager.routes.length ≤ config.maxRoutes) :
    Trims double config nowMs manager.routes
      (manager.trimIfNeeded double config nowMs).routes := by
  have kept : (fun entry : RouteEntry => entry.kcpConnected || !isTerrible config nowMs entry) =
      lasting config nowMs := rfl
  simp only [trimIfNeeded, kept]
  split_ifs with free enough
  · exact .room free
  · exact .terrible (not_lt.mp free) enough
  · -- a table that is still full has lost nothing
    have same : manager.routes.filter (lasting config nowMs) = manager.routes :=
      filter_sublist.eq_of_length_le (by omega)
    have full := not_lt.mp enough
    simp only [same]
    cases least : (manager.routes.filter (!·.kcpConnected)).argmin
        (victimScore double config nowMs) with
    | none =>
      refine .connected full ?_
      intro entry mem
      have none := filter_eq_nil_iff.mp (argmin_eq_none.mp least) entry mem
      simpa using none
    | some victim =>
      have mem := mem_filter.mp (argmin_mem least)
      refine .victim full ⟨mem.1, by simpa using mem.2, ?_⟩
      intro entry isEntry unconnected
      exact le_of_mem_argmin (mem_filter.mpr ⟨isEntry, by simpa using unconnected⟩) least

section Kept

variable {routes kept : List RouteEntry}

theorem Trims.room_or_same (trims : Trims double config nowMs routes kept)
    (bounded : routes.length ≤ config.maxRoutes) :
    kept.length < config.maxRoutes ∨
      kept = routes ∧ ∀ entry ∈ routes, entry.kcpConnected = true := by
  cases trims with
  | room free => exact .inl free
  | terrible _ free => exact .inl free
  | connected _ all => exact .inr ⟨rfl, all⟩
  | victim _ isVictim =>
    left
    refine lt_of_lt_of_le (length_filter_lt_length_iff_exists.mpr ?_) bounded
    exact ⟨_, isVictim.mem, by simp⟩

theorem Trims.subset (trims : Trims double config nowMs routes kept) : kept ⊆ routes := by
  cases trims with
  | room _ => exact List.Subset.refl _
  | terrible _ _ => exact filter_subset_self _
  | connected _ _ => exact List.Subset.refl _
  | victim _ _ => exact filter_subset_self _

theorem mem_of_not_victim {entry victim : RouteEntry}
    (distinct : (routes.map (·.node.id)).Nodup) (mem : entry ∈ routes) (isIn : victim ∈ routes)
    (other : entry ≠ victim) : entry ∈ routes.filter (·.node.id ≠ victim.node.id) := by
  refine mem_filter.mpr ⟨mem, ?_⟩
  simp only [ne_eq, decide_eq_true_eq]
  intro sameId
  exact other (inj_on_of_nodup_map distinct mem isIn sameId)

theorem Trims.mem_connected {entry : RouteEntry} (trims : Trims double config nowMs routes kept)
    (distinct : (routes.map (·.node.id)).Nodup) (mem : entry ∈ routes)
    (connected : entry.kcpConnected = true) : entry ∈ kept := by
  cases trims with
  | room _ => exact mem
  | terrible _ _ => exact mem_filter.mpr ⟨mem, by simp [lasting, connected]⟩
  | connected _ _ => exact mem
  | victim _ isVictim =>
    refine mem_of_not_victim distinct mem isVictim.mem ?_
    rintro rfl
    exact Bool.false_ne_true (isVictim.unconnected.symm.trans connected)

theorem Trims.mem_lasting {entry : RouteEntry} (trims : Trims double config nowMs routes kept)
    (enough : (routes.filter (lasting config nowMs)).length < config.maxRoutes)
    (mem : entry ∈ routes) (lasts : lasting config nowMs entry = true) : entry ∈ kept := by
  cases trims with
  | room _ => exact mem
  | terrible _ _ => exact mem_filter.mpr ⟨mem, lasts⟩
  | connected full _ => exact absurd enough (not_lt.mpr full)
  | victim full _ => exact absurd enough (not_lt.mpr full)

theorem Trims.one_victim (trims : Trims double config nowMs routes kept)
    (distinct : (routes.map (·.node.id)).Nodup)
    (full : config.maxRoutes ≤ (routes.filter (lasting config nowMs)).length) :
    (∀ entry ∈ routes, entry ∈ kept) ∨ ∃ victim, Victim double config nowMs routes victim ∧
      ∀ entry ∈ routes, entry ≠ victim → entry ∈ kept := by
  cases trims with
  | room _ => exact .inl fun _ mem => mem
  | terrible _ free => exact absurd free (not_lt.mpr full)
  | connected _ _ => exact .inl fun _ mem => mem
  | victim _ isVictim =>
    exact .inr ⟨_, isVictim, fun _ mem other => mem_of_not_victim distinct mem isVictim.mem other⟩

theorem Trims.room_iff (trims : Trims double config nowMs routes kept)
    (bounded : routes.length ≤ config.maxRoutes) :
    kept.length < config.maxRoutes ↔ routes.length < config.maxRoutes ∨
      ∃ entry ∈ routes, entry.kcpConnected = false := by
  constructor
  · intro free
    by_cases room : routes.length < config.maxRoutes
    · exact .inl room
    right
    -- an entry is gone, and it was not connected
    cases trims with
    | room free => exact absurd free room
    | terrible _ enough =>
      have shorter := lt_of_lt_of_le enough (not_lt.mp room)
      obtain ⟨entry, mem, gone⟩ := length_filter_lt_length_iff_exists.mp shorter
      exact ⟨entry, mem, by simp_all [lasting]⟩
    | connected _ _ => exact absurd free room
    | victim _ isVictim => exact ⟨_, isVictim.mem, isVictim.unconnected⟩
  · rintro room
    rcases trims.room_or_same bounded with free | ⟨same, connected⟩
    · exact free
    rcases room with free | ⟨entry, mem, unconnected⟩
    · exact same ▸ free
    · exact absurd (connected entry mem) (by simp [unconnected])

end Kept

variable {node : NodeAddress} {source : Option NodeAddress} {kcpConnected : Bool}
  {advertisedHopCount : ℕ} {capability : Option NodeCapability}

variable (double nowMs capability) in
theorem addRoute_trims (bounded : manager.routes.length ≤ config.maxRoutes)
    (valid : validRouteNode node = true)
    (near : localHopCount source kcpConnected advertisedHopCount ≤ config.maxRouteHops)
    (isNew : manager.find node.id = none) :
    ∃ kept, Trims double config nowMs manager.routes kept ∧
      let result := manager.addRoute double config nowMs node source kcpConnected
        advertisedHopCount capability
      (config.maxRoutes ≤ kept.length ∧ result.1.routes = kept ∧ result.2 = false ∨
        kept.length < config.maxRoutes ∧ result.1.routes =
          newEntry nowMs node source kcpConnected
            (localHopCount source kcpConnected advertisedHopCount) capability :: kept ∧
          result.2 = true) := by
  have accepted : ¬ (!validRouteNode node || decide (config.maxRouteHops <
      localHopCount source kcpConnected advertisedHopCount)) = true := by
    simp [valid, near]
  have once := trims_trimIfNeeded nowMs double bounded
  have twice : Trims double config nowMs manager.routes (if config.maxRoutes ≤
      (manager.trimIfNeeded double config nowMs).routes.length then
      (manager.trimIfNeeded double config nowMs).trimIfNeeded double config nowMs
      else manager.trimIfNeeded double config nowMs).routes := by
    split_ifs with full
    · -- the second call sees the table of the first
      obtain ⟨same, -⟩ := (once.room_or_same bounded).resolve_left (not_lt.mpr full)
      rw [← same]
      exact trims_trimIfNeeded nowMs double (same ▸ bounded)
    · exact once
  unfold addRoute
  rw [if_neg accepted, isNew]
  simp only
  generalize (if config.maxRoutes ≤
      (manager.trimIfNeeded double config nowMs).routes.length then
      (manager.trimIfNeeded double config nowMs).trimIfNeeded double config nowMs
      else manager.trimIfNeeded double config nowMs) = trimmed at twice ⊢
  refine ⟨_, twice, ?_⟩
  by_cases full : config.maxRoutes ≤ trimmed.routes.length
  · rw [if_pos full]
    exact .inl ⟨full, rfl, rfl⟩
  · rw [if_neg full]
    exact .inr ⟨not_le.mp full, rfl, rfl⟩

/-- How a new route finds room in a full table. Connected entries stay. If the entries that are
connected or not terrible leave room, they stay, and else only the victim may go. The table keeps to
its limit, and the new entry is in it unless it is full of connected ones. -/
theorem addRoute_evicts (bounded : manager.routes.length ≤ config.maxRoutes)
    (distinct : manager.DistinctIds) (valid : validRouteNode node = true)
    (near : localHopCount source kcpConnected advertisedHopCount ≤ config.maxRouteHops)
    (isNew : manager.find node.id = none) :
    let result := manager.addRoute .exact config nowMs node source kcpConnected advertisedHopCount
      capability
    let added := newEntry nowMs node source kcpConnected
      (localHopCount source kcpConnected advertisedHopCount) capability
    (∀ entry ∈ manager.routes, entry.kcpConnected = true → entry ∈ result.1.routes) ∧
    ((manager.routes.filter (lasting config nowMs)).length < config.maxRoutes →
      ∀ entry ∈ manager.routes, lasting config nowMs entry = true → entry ∈ result.1.routes) ∧
    (config.maxRoutes ≤ (manager.routes.filter (lasting config nowMs)).length →
      (∀ entry ∈ manager.routes, entry ∈ result.1.routes) ∨
      ∃ victim, Victim .exact config nowMs manager.routes victim ∧
        ∀ entry ∈ manager.routes, entry ≠ victim → entry ∈ result.1.routes) ∧
    (∀ entry ∈ result.1.routes, entry ∈ manager.routes ∨ entry = added) ∧
    result.1.routes.length ≤ config.maxRoutes ∧
    (result.2 = true ↔ manager.routes.length < config.maxRoutes ∨
      ∃ entry ∈ manager.routes, entry.kcpConnected = false) ∧
    (result.2 = true ↔ added ∈ result.1.routes) := by
  obtain ⟨kept, trims, outcome⟩ := addRoute_trims nowMs .exact capability bounded valid near
    isNew
  intro result added
  have keeps : ∀ entry ∈ kept, entry ∈ result.1.routes := by
    rcases outcome with ⟨-, same, -⟩ | ⟨-, more, -⟩
    · exact fun _ mem => same ▸ mem
    · exact fun _ mem => more ▸ mem_cons_of_mem _ mem
  refine ⟨?_, ?_, ?_, ?_, ?_, ?_, ?_⟩
  · exact fun entry mem connected => keeps _ (trims.mem_connected distinct mem connected)
  · exact fun enough entry mem lasts => keeps _ (trims.mem_lasting enough mem lasts)
  · intro full
    rcases trims.one_victim distinct full with all | ⟨victim, isVictim, others⟩
    · exact .inl fun entry mem => keeps _ (all entry mem)
    · exact .inr ⟨victim, isVictim, fun entry mem other => keeps _ (others entry mem other)⟩
  · intro entry mem
    rcases outcome with ⟨-, same, -⟩ | ⟨-, more, -⟩
    · exact .inl (trims.subset (same ▸ mem))
    · rcases mem_cons.mp (more ▸ mem) with isAdded | isKept
      · exact .inr isAdded
      · exact .inl (trims.subset isKept)
  · rcases outcome with ⟨-, same, -⟩ | ⟨free, more, -⟩
    · rw [same]
      exact (trims.room_or_same bounded).elim le_of_lt fun unchanged => unchanged.1 ▸ bounded
    · exact more ▸ free
  · rw [← trims.room_iff bounded]
    rcases outcome with ⟨full, -, refused⟩ | ⟨free, -, admitted⟩
    · exact iff_of_false (by simp [result, refused]) (not_lt.mpr full)
    · exact iff_of_true admitted free
  · rcases outcome with ⟨full, same, refused⟩ | ⟨free, more, admitted⟩
    · refine iff_of_false (by simp [result, refused]) fun mem => ?_
      have isOld := trims.subset (same ▸ mem)
      exact Table.find_eq_none.mp isNew _ isOld rfl
    · exact iff_of_true admitted (more ▸ mem_cons_self)

/-- A full table of one route that is not connected: the route goes. -/
theorem unconnected_evicted :
    let old : RouteEntry := { node := numberedNode 2 }
    let config : RouteManagerConfig := { maxRoutes := 1 }
    (addRoute .exact config 1000 ⟨[old], 0⟩ (numberedNode 3) none false 0 none).2 = true :=
  (@addRoute_evicts { maxRoutes := 1 } ⟨[{ node := numberedNode 2 }], 0⟩ 1000 (numberedNode 3) none
    false 0 none le_rfl (List.nodup_singleton _) rfl (by decide) rfl).2.2.2.2.2.1.mpr
    (.inr ⟨_, List.mem_singleton_self _, rfl⟩)

end Eviction

end RouteManager

end IotProxy.Proxy
