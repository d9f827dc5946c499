import IotProxy.Lib.Run
import IotProxy.Proxy.Address

/-!
# The timers of the KCP sessions

`KcpManager` calls `ikcp_update` for each session when it is due. The due times are in a heap, whose
nodes are never taken out when a session is scheduled again: a node counts only while its number and
its time are those of the session. The manager keeps one timeout armed for the earliest node, and
replaces it by arming an earlier one: a timeout that fires counts only while its number is the last
one.

All that is modelled here runs on the loop thread. What the KCP library, the clock and the heap
decide (the answers of `ikcp_check`, whether a packet is accepted, the time at each look, which of
several earliest nodes is at the front) comes with the event.
-/

namespace IotProxy.Myring

open Proxy EventSystem List Function

/-- A reading of `steady_clock`, which counts nanoseconds in a signed 64-bit number. -/
structure SteadyTime where
  nanoseconds : ℕ
  bounded : nanoseconds < 2 ^ 63

def monotonicMs (time : SteadyTime) : ℕ := time.nanoseconds / 10 ^ 6

theorem monotonicMs_lt (time : SteadyTime) : monotonicMs time < 2 ^ 44 := by
  have bounded := time.bounded
  unfold monotonicMs
  omega

def kcpNowMs (monoMs : ℕ) : UInt32 := UInt32.ofNat monoMs

/-- The signed difference of the two times is not negative. -/
def kcpTimeReached (nowMs dueMs : UInt32) : Bool := (nowMs - dueMs).toNat < 2 ^ 31

def kcpDelayMs (nowMs dueMs : UInt32) : ℕ :=
  if kcpTimeReached nowMs dueMs then 1 else (dueMs - nowMs).toNat

theorem kcpDelayMs_pos (nowMs dueMs : UInt32) : 0 < kcpDelayMs nowMs dueMs := by
  unfold kcpDelayMs
  split
  · exact Nat.one_pos
  · next later =>
      rw [kcpTimeReached, decide_eq_true_eq, UInt32.toNat_sub] at later
      rw [UInt32.toNat_sub]
      have := nowMs.toNat_lt
      have := dueMs.toNat_lt
      omega

theorem kcpDelayMs_lt (nowMs dueMs : UInt32) : kcpDelayMs nowMs dueMs < 2 ^ 32 := by
  unfold kcpDelayMs
  split
  · decide
  · exact UInt32.toNat_lt _

structure KcpManagerConfig where
  idleTimeoutMs : ℕ := 0
  fallbackTickMs : ℕ := 10

namespace KcpManager

structure SessionEntry where
  lastActiveMonoMs : ℕ
  nextDueMonoMs : ℕ := 0
  scheduleSeq : ℕ := 0
  /-- Whether the session has been scheduled, which the code does not record. -/
  scheduled : Bool := false

structure TimerNode where
  dueMonoMs : ℕ
  scheduleSeq : ℕ
  key : KcpSessionKey
deriving DecidableEq

/-- A timeout of the dispatcher, with the time for which the manager has armed it. -/
structure Tick where
  seq : ℕ
  dueMonoMs : ℕ
  delayMs : ℕ
deriving DecidableEq

/-- The number of a timer and the number of a tick are counted in 64 bits, and so is the time. -/
def wrap (value : ℕ) : ℕ := value % 2 ^ 64

end KcpManager

open KcpManager in
structure KcpManager where
  sessions : KcpSessionKey → Option SessionEntry := fun _ => none
  timerHeap : List TimerNode := []
  nextIdleGcMonoMs : ℕ := 0
  armedTickDueMonoMs : ℕ := 0
  armedTickSeq : ℕ := 0
  ticks : List Tick := []

namespace KcpManager

variable (config : KcpManagerConfig) (manager : KcpManager)

def fallbackTickMs : ℕ := if config.fallbackTickMs = 0 then 10 else config.fallbackTickMs

/-- `arm_tick_for_due_in_loop` looks at the clock once more. -/
def armTickForDue (dueMonoMs : ℕ) (clock : SteadyTime) : KcpManager :=
  if manager.armedTickDueMonoMs ≠ 0 ∧ manager.armedTickDueMonoMs ≤ dueMonoMs then manager
  else
    let now := monotonicMs clock
    let seq := wrap (manager.armedTickSeq + 1)
    { manager with
      armedTickDueMonoMs := dueMonoMs
      armedTickSeq := seq
      ticks := manager.ticks ++ [{
        seq := seq
        dueMonoMs := dueMonoMs
        delayMs := if now < dueMonoMs then dueMonoMs - now else 1 }] }

/-- `schedule_session_in_loop`, where the session asks for an update at `dueKcpMs`. -/
def scheduleSession (key : KcpSessionKey) (entry : SessionEntry) (kcpNow : UInt32) (monoNow : ℕ)
    (dueKcpMs : UInt32) (clock : SteadyTime) : KcpManager :=
  let dueMonoMs := wrap (monoNow + kcpDelayMs kcpNow dueKcpMs)
  let seq := wrap (entry.scheduleSeq + 1)
  let scheduled := { entry with nextDueMonoMs := dueMonoMs, scheduleSeq := seq, scheduled := true }
  let node : TimerNode := { dueMonoMs, scheduleSeq := seq, key }
  let pushed := { manager with
    sessions := Function.update manager.sessions key (some scheduled)
    timerHeap := manager.timerHeap ++ [node] }
  pushed.armTickForDue dueMonoMs clock

def front (choice : ℕ) : Option TimerNode :=
  let earliest := manager.timerHeap.filter fun node =>
    manager.timerHeap.all fun other => node.dueMonoMs ≤ other.dueMonoMs
  earliest[choice % earliest.length]?

structure SessionAnswers where
  created : Bool := true
  createdAt : SteadyTime
  now : SteadyTime
  accepted : Bool := true
  dueKcpMs : UInt32
  clock : SteadyTime

def findOrCreateSessionEntry (key : KcpSessionKey) (answers : SessionAnswers) :
    Option SessionEntry :=
  match manager.sessions key with
  | some entry => some entry
  | none =>
    if key.valid && answers.created then
      some { lastActiveMonoMs := monotonicMs answers.createdAt }
    else none

/-- The common part of `handle_udp_packet` and `send_in_loop`. -/
def useSession (key : KcpSessionKey) (answers : SessionAnswers) : KcpManager :=
  match manager.findOrCreateSessionEntry key answers with
  | none => manager
  | some found =>
    let monoNow := monotonicMs answers.now
    let entry := { found with lastActiveMonoMs := monoNow }
    if answers.accepted then
      manager.scheduleSession key entry (kcpNowMs monoNow) monoNow answers.dueKcpMs answers.clock
    else { manager with sessions := Function.update manager.sessions key (some entry) }

/-- Give a datagram to its session, which is created if it does not exist. -/
def handleUdpPacket (peer : SockAddr) (data : Bytes) (answers : SessionAnswers) : KcpManager :=
  -- The packet starts with the name of the session.
  if data.length < 32 then manager
  else manager.useSession { addr := peer, conv := .ofBytes data } answers

def sendInLoop (key : KcpSessionKey) (data : Bytes) (answers : SessionAnswers) : KcpManager :=
  if key.valid && !data.isEmpty then manager.useSession key answers else manager

def maybeCollectIdleSessions (monoNow : ℕ) : KcpManager :=
  if config.idleTimeoutMs = 0 then manager
  else if manager.nextIdleGcMonoMs ≠ 0 ∧ monoNow < manager.nextIdleGcMonoMs then manager
  else
    { manager with
      nextIdleGcMonoMs := wrap (monoNow + 1000)
      sessions := fun key => (manager.sessions key).filter fun entry =>
        (monoNow + 2 ^ 64 - entry.lastActiveMonoMs) % 2 ^ 64 < config.idleTimeoutMs }

section Ticks

structure TickAnswers where
  choice : ℕ := 0
  /-- The answer of the session when it is scheduled. It was asked before, and updated if it was
  due; this shows in later answers only. -/
  dueKcpMs : UInt32
  clock : SteadyTime

def processNode (node : TimerNode) (monoNow : ℕ) (answers : TickAnswers) : KcpManager :=
  let popped := { manager with timerHeap := manager.timerHeap.erase node }
  match manager.sessions node.key with
  | none => popped
  | some entry =>
    if entry.scheduleSeq ≠ node.scheduleSeq ∨ entry.nextDueMonoMs ≠ node.dueMonoMs then popped
    else popped.scheduleSession node.key entry (kcpNowMs monoNow) monoNow answers.dueKcpMs
      answers.clock

/-- The loop of `handle_tick`. It returns if `fuel` is more than the number of its rounds. -/
def processDueNodes (monoNow : ℕ) : ℕ → (ℕ → TickAnswers) → KcpManager → Option KcpManager
  | 0, _, _ => none
  | fuel + 1, answers, manager =>
    match manager.front (answers 0).choice with
    | none => some manager
    | some top =>
      if monoNow < top.dueMonoMs then
        some (manager.armTickForDue top.dueMonoMs (answers 0).clock)
      else
        processDueNodes monoNow fuel (fun round => answers (round + 1))
          (manager.processNode top monoNow (answers 0))

structure HandleTickAnswers where
  now : SteadyTime
  rounds : ℕ → TickAnswers
  clock : SteadyTime

/-- If no timer is left, a tick is armed for the collection of idle sessions and for new ones. -/
def armFallback (monoNow : ℕ) (clock : SteadyTime) : KcpManager :=
  if manager.timerHeap.isEmpty then
    manager.armTickForDue (wrap (monoNow + fallbackTickMs config)) clock
  else manager

/-- The tick of the manager: it serves the sessions that are due. -/
def handleTick (answers : HandleTickAnswers) (fuel : ℕ) : Option KcpManager :=
  let monoNow := monotonicMs answers.now
  (processDueNodes monoNow fuel answers.rounds manager).map fun processed =>
    (processed.armFallback config monoNow answers.clock).maybeCollectIdleSessions config monoNow

end Ticks

def initialise (now clock : SteadyTime) : KcpManager :=
  { manager with nextIdleGcMonoMs := wrap (monotonicMs now + 1000) }.armTickForDue
    (wrap (monotonicMs now + fallbackTickMs config)) clock

/-- The callback of a timeout. It does nothing if another tick was armed since. -/
def fireTick (index : ℕ) (answers : HandleTickAnswers) (fuel : ℕ) : Option KcpManager :=
  match manager.ticks[index]? with
  | none => none
  | some tick =>
    let fired := { manager with ticks := manager.ticks.eraseIdx index }
    if tick.seq ≠ manager.armedTickSeq then some fired
    else { fired with armedTickDueMonoMs := 0 }.handleTick config answers fuel

inductive Event where
  | initialise (now clock : SteadyTime)
  | packet (peer : SockAddr) (data : Bytes) (answers : SessionAnswers)
  | send (key : KcpSessionKey) (data : Bytes) (answers : SessionAnswers)
  | tick (index : ℕ) (answers : HandleTickAnswers) (fuel : ℕ)

/-- The manager after a call of `start`, and whether the callback that it posts is still to run. -/
structure Started where
  manager : KcpManager := {}
  posted : Bool := true

def Started.step (started : Started) : Event → Option Started
  | .initialise now clock =>
    if started.posted then
      some { manager := started.manager.initialise config now clock, posted := false }
    else none
  | .packet peer data answers =>
    some { started with manager := started.manager.handleUdpPacket peer data answers }
  | .send key data answers =>
    some { started with manager := started.manager.sendInLoop key data answers }
  | .tick index answers fuel =>
    (started.manager.fireTick config index answers fuel).map fun manager =>
      { started with manager }

variable {config manager}

section Invariant

structure TimerNode.Serves (node : TimerNode) (key : KcpSessionKey) (entry : SessionEntry) :
    Prop where
  key_eq : node.key = key
  seq_eq : node.scheduleSeq = entry.scheduleSeq
  due_eq : node.dueMonoMs = entry.nextDueMonoMs

def HasNodes (manager : KcpManager) : Prop :=
  ∀ key entry, manager.sessions key = some entry → entry.scheduled = true →
    ∃ node ∈ manager.timerHeap, node.Serves key entry

/-- The tick that the manager takes to be armed is one that the dispatcher holds. -/
def HasTick (manager : KcpManager) : Prop :=
  manager.armedTickDueMonoMs ≠ 0 → ∃ tick ∈ manager.ticks, tick.seq = manager.armedTickSeq ∧
    tick.dueMonoMs = manager.armedTickDueMonoMs

def ArmedFor (manager : KcpManager) (dueMonoMs : ℕ) : Prop :=
  manager.armedTickDueMonoMs ≠ 0 ∧ manager.armedTickDueMonoMs ≤ dueMonoMs

structure Kept (manager : KcpManager) : Prop where
  nodes : manager.HasNodes
  tick : manager.HasTick
  armed : ∀ node ∈ manager.timerHeap, manager.ArmedFor node.dueMonoMs

end Invariant

section Arm

variable {dueMonoMs : ℕ} {clock : SteadyTime}

@[simp] theorem armTickForDue_sessions :
    (manager.armTickForDue dueMonoMs clock).sessions = manager.sessions := by
  unfold armTickForDue
  split <;> rfl

@[simp] theorem armTickForDue_timerHeap :
    (manager.armTickForDue dueMonoMs clock).timerHeap = manager.timerHeap := by
  unfold armTickForDue
  split <;> rfl

theorem HasTick.armTickForDue (tick : manager.HasTick) :
    (manager.armTickForDue dueMonoMs clock).HasTick := by
  unfold KcpManager.armTickForDue
  split
  · exact tick
  · exact fun _ => ⟨_, mem_append_right _ (mem_singleton_self _), rfl, rfl⟩

theorem HasNodes.armTickForDue (nodes : manager.HasNodes) :
    (manager.armTickForDue dueMonoMs clock).HasNodes := by
  intro key entry found scheduled
  rw [armTickForDue_sessions] at found
  rw [armTickForDue_timerHeap]
  exact nodes key entry found scheduled

theorem armedFor_armTickForDue (positive : dueMonoMs ≠ 0) :
    (manager.armTickForDue dueMonoMs clock).ArmedFor dueMonoMs := by
  unfold KcpManager.armTickForDue
  split
  · next armed => exact armed
  · exact ⟨positive, le_rfl⟩

theorem ArmedFor.armTickForDue {other : ℕ} (armed : manager.ArmedFor other)
    (positive : dueMonoMs ≠ 0) : (manager.armTickForDue dueMonoMs clock).ArmedFor other := by
  unfold KcpManager.armTickForDue
  split
  · exact armed
  · next earlier =>
      refine ⟨positive, ?_⟩
      have : dueMonoMs < manager.armedTickDueMonoMs :=
        Nat.lt_of_not_le fun later => earlier ⟨armed.1, later⟩
      exact this.le.trans armed.2

end Arm

section Schedule

variable {key : KcpSessionKey} {entry : SessionEntry} {kcpNow dueKcpMs : UInt32} {monoNow : ℕ}
  {clock : SteadyTime}

theorem lt_wrap_delay (small : monoNow < 2 ^ 44) :
    monoNow < wrap (monoNow + kcpDelayMs kcpNow dueKcpMs) := by
  have positive := kcpDelayMs_pos kcpNow dueKcpMs
  have bounded := kcpDelayMs_lt kcpNow dueKcpMs
  rw [wrap, Nat.mod_eq_of_lt (by omega)]
  omega

theorem hasNodes_scheduleSession
    (others : ∀ other entry, other ≠ key → manager.sessions other = some entry →
      entry.scheduled = true → ∃ node ∈ manager.timerHeap, node.Serves other entry) :
    (manager.scheduleSession key entry kcpNow monoNow dueKcpMs clock).HasNodes := by
  apply HasNodes.armTickForDue
  intro other found lookup scheduled
  by_cases same : other = key
  · subst same
    simp only [update_self, Option.some.injEq] at lookup
    subst lookup
    exact ⟨_, mem_append_right _ (mem_singleton_self _), rfl, rfl, rfl⟩
  · simp only [update_of_ne same] at lookup
    rcases others other found same lookup scheduled with ⟨node, member, serves⟩
    exact ⟨node, mem_append_left _ member, serves⟩

theorem HasTick.scheduleSession (tick : manager.HasTick) :
    (manager.scheduleSession key entry kcpNow monoNow dueKcpMs clock).HasTick :=
  HasTick.armTickForDue tick

theorem Kept.scheduleSession (kept : manager.Kept) (small : monoNow < 2 ^ 44) :
    (manager.scheduleSession key entry kcpNow monoNow dueKcpMs clock).Kept where
  nodes := hasNodes_scheduleSession fun other found _ => kept.nodes other found
  tick := kept.tick.scheduleSession
  armed := by
    have later : wrap (monoNow + kcpDelayMs kcpNow dueKcpMs) ≠ 0 :=
      Nat.ne_of_gt ((Nat.zero_le _).trans_lt (lt_wrap_delay small))
    intro node member
    rw [KcpManager.scheduleSession, armTickForDue_timerHeap] at member
    rcases mem_append.mp member with old | last
    · exact ArmedFor.armTickForDue (kept.armed node old) later
    · rw [mem_singleton.mp last]
      exact armedFor_armTickForDue later

theorem Kept.useSession {answers : SessionAnswers} (kept : manager.Kept) :
    (manager.useSession key answers).Kept := by
  unfold KcpManager.useSession
  split
  · exact kept
  · next found created =>
      dsimp only
      split
      · exact kept.scheduleSession (monotonicMs_lt _)
      · -- A session that is not scheduled now is as it was before, or new.
        refine ⟨fun other entry lookup scheduled => ?_, kept.tick, kept.armed⟩
        by_cases same : other = key
        · subst same
          simp only [update_self, Option.some.injEq] at lookup
          subst lookup
          unfold findOrCreateSessionEntry at created
          split at created
          · next known =>
              cases created
              rcases kept.nodes other _ known scheduled with ⟨node, member, serves⟩
              exact ⟨node, member, serves.1, serves.2, serves.3⟩
          · split at created <;> cases created
            cases scheduled
        · simp only [update_of_ne same] at lookup
          exact kept.nodes other entry lookup scheduled

end Schedule

section Ticks

variable {node : TimerNode} {monoNow choice : ℕ} {answers : TickAnswers}

theorem front_eq_some (found : manager.front choice = some node) :
    node ∈ manager.timerHeap ∧ ∀ other ∈ manager.timerHeap, node.dueMonoMs ≤ other.dueMonoMs := by
  have member := mem_of_getElem? found
  rw [mem_filter, all_eq_true] at member
  exact ⟨member.1, fun other inside => of_decide_eq_true (member.2 other inside)⟩

theorem timerHeap_eq_nil_of_front (absent : manager.front choice = none) :
    manager.timerHeap = [] := by
  rw [← argmin_eq_none (f := TimerNode.dueMonoMs)]
  rcases least : manager.timerHeap.argmin TimerNode.dueMonoMs with _ | node
  · rfl
  · -- An earliest node is among those of which the front is chosen.
    have isLeast : node ∈ manager.timerHeap.filter fun node =>
        manager.timerHeap.all fun other => node.dueMonoMs ≤ other.dueMonoMs := by
      rw [mem_filter, all_eq_true]
      refine ⟨argmin_mem least, fun other member => decide_eq_true ?_⟩
      exact le_of_mem_argmin member least
    rw [front, List.getElem?_eq_none_iff] at absent
    exact absurd (Nat.mod_lt choice (length_pos_of_mem isLeast)) (Nat.not_lt.mpr absent)

def dueCount (manager : KcpManager) (monoNow : ℕ) : ℕ :=
  manager.timerHeap.countP fun node => node.dueMonoMs ≤ monoNow

variable {clock : SteadyTime}

theorem dueCount_scheduleSession {key : KcpSessionKey} {entry : SessionEntry}
    {kcpNow dueKcpMs : UInt32} (small : monoNow < 2 ^ 44) :
    (manager.scheduleSession key entry kcpNow monoNow dueKcpMs clock).dueCount monoNow =
      manager.dueCount monoNow := by
  have later : ¬ wrap (monoNow + kcpDelayMs kcpNow dueKcpMs) ≤ monoNow :=
    Nat.not_le.mpr (lt_wrap_delay small)
  rw [dueCount, scheduleSession, armTickForDue_timerHeap, countP_append, countP_singleton,
    if_neg (by simpa using later)]
  rfl

theorem dueCount_processNode (small : monoNow < 2 ^ 44) (member : node ∈ manager.timerHeap)
    (due : node.dueMonoMs ≤ monoNow) :
    (manager.processNode node monoNow answers).dueCount monoNow < manager.dueCount monoNow := by
  have popped : (manager.timerHeap.erase node).countP (fun node => node.dueMonoMs ≤ monoNow) <
      manager.dueCount monoNow := by
    have positive : 0 < manager.dueCount monoNow :=
      countP_pos_iff.mpr ⟨node, member, decide_eq_true due⟩
    rw [countP_erase, if_pos ⟨member, decide_eq_true due⟩]
    exact Nat.sub_lt positive Nat.one_pos
  unfold processNode
  dsimp only
  split
  · exact popped
  · split
    · exact popped
    · exact (dueCount_scheduleSession small).trans_lt popped

theorem HasNodes.erase (nodes : manager.HasNodes)
    (stale : ∀ entry, manager.sessions node.key = some entry → ¬ node.Serves node.key entry) :
    { manager with timerHeap := manager.timerHeap.erase node }.HasNodes := by
  intro key entry found scheduled
  rcases nodes key entry found scheduled with ⟨serving, member, serves⟩
  refine ⟨serving, (mem_erase_of_ne ?_).mpr member, serves⟩
  rintro rfl
  rcases serves with ⟨rfl, same⟩
  exact stale entry found ⟨rfl, same, ‹_›⟩

theorem HasNodes.processNode (nodes : manager.HasNodes) :
    (manager.processNode node monoNow answers).HasNodes := by
  unfold KcpManager.processNode
  dsimp only
  split
  · next absent =>
      refine nodes.erase fun entry found => ?_
      rw [absent] at found
      cases found
  · next entry known =>
      split
      · next other =>
          refine nodes.erase fun found lookup serves => ?_
          rw [known] at lookup
          cases lookup
          exact other.elim (fun seq => seq serves.seq_eq.symm) (fun due => due serves.due_eq.symm)
      · -- The session whose node is taken is scheduled again.
        apply hasNodes_scheduleSession
        intro other found different lookup scheduled
        rcases nodes other found lookup scheduled with ⟨serving, member, serves⟩
        refine ⟨serving, (mem_erase_of_ne ?_).mpr member, serves⟩
        rintro rfl
        exact different serves.key_eq.symm

theorem HasTick.processNode (tick : manager.HasTick) :
    (manager.processNode node monoNow answers).HasTick := by
  unfold KcpManager.processNode
  dsimp only
  split
  · exact tick
  · split
    · exact tick
    · exact HasTick.scheduleSession tick

theorem exists_processDueNodes (small : monoNow < 2 ^ 44) (manager : KcpManager)
    (rounds : ℕ → TickAnswers) :
    ∃ after, ∀ fuel, manager.dueCount monoNow < fuel →
      processDueNodes monoNow fuel rounds manager = some after := by
  induction count : manager.dueCount monoNow using Nat.strong_induction_on
    generalizing manager rounds with
  | _ count ih =>
    subst count
    rcases found : manager.front (rounds 0).choice with _ | top
    · refine ⟨manager, fun fuel enough => ?_⟩
      rcases fuel with _ | fuel
      · exact absurd enough (Nat.not_lt_zero _)
      · rw [processDueNodes, found]
    · by_cases later : monoNow < top.dueMonoMs
      · refine ⟨manager.armTickForDue top.dueMonoMs (rounds 0).clock, fun fuel enough => ?_⟩
        rcases fuel with _ | fuel
        · exact absurd enough (Nat.not_lt_zero _)
        · rw [processDueNodes, found]
          exact if_pos later
      · have fewer : (manager.processNode top monoNow (rounds 0)).dueCount monoNow <
            manager.dueCount monoNow :=
          dueCount_processNode small (front_eq_some found).1 (Nat.le_of_not_lt later)
        rcases ih _ fewer _ (fun round => rounds (round + 1)) rfl with ⟨after, ends⟩
        refine ⟨after, fun fuel enough => ?_⟩
        rcases fuel with _ | fuel
        · exact absurd enough (Nat.not_lt_zero _)
        · rw [processDueNodes, found]
          exact (if_neg later).trans (ends fuel (by omega))

variable {after : KcpManager}

theorem processDueNodes_spec {fuel : ℕ} {rounds : ℕ → TickAnswers}
    (nodes : manager.HasNodes) (tick : manager.HasTick)
    (processed : processDueNodes monoNow fuel rounds manager = some after) :
    after.Kept ∧ ∀ node ∈ after.timerHeap, monoNow < node.dueMonoMs := by
  induction fuel generalizing manager rounds with
  | zero => cases processed
  | succ fuel ih =>
    rw [processDueNodes] at processed
    split at processed
    · next absent =>
        cases processed
        have empty := timerHeap_eq_nil_of_front absent
        refine ⟨⟨nodes, tick, ?_⟩, ?_⟩ <;> simp [empty]
    · next top found =>
        split at processed
        · next later =>
            cases processed
            have earliest := (front_eq_some found).2
            refine ⟨⟨nodes.armTickForDue, tick.armTickForDue, ?_⟩, ?_⟩
            · intro node member
              rw [armTickForDue_timerHeap] at member
              have armed : (manager.armTickForDue top.dueMonoMs (rounds 0).clock).ArmedFor
                  top.dueMonoMs :=
                armedFor_armTickForDue (Nat.ne_of_gt ((Nat.zero_le _).trans_lt later))
              exact ⟨armed.1, armed.2.trans (earliest node member)⟩
            · intro node member
              rw [armTickForDue_timerHeap] at member
              exact later.trans_le (earliest node member)
        · exact ih nodes.processNode tick.processNode processed

theorem Kept.maybeCollectIdleSessions (kept : manager.Kept) :
    (manager.maybeCollectIdleSessions config monoNow).Kept := by
  unfold KcpManager.maybeCollectIdleSessions
  split
  · exact kept
  · split
    · exact kept
    · refine ⟨fun key entry found scheduled => ?_, kept.tick, kept.armed⟩
      rw [Option.filter_eq_some_iff] at found
      exact kept.nodes key entry found.1 scheduled

@[simp] theorem maybeCollectIdleSessions_timerHeap :
    (manager.maybeCollectIdleSessions config monoNow).timerHeap = manager.timerHeap := by
  unfold maybeCollectIdleSessions
  split
  · rfl
  · split <;> rfl

theorem armFallback_timerHeap :
    (manager.armFallback config monoNow clock).timerHeap = manager.timerHeap := by
  unfold armFallback
  split
  · exact armTickForDue_timerHeap
  · rfl

theorem Kept.armFallback (kept : manager.Kept) :
    (manager.armFallback config monoNow clock).Kept := by
  unfold KcpManager.armFallback
  split
  · next empty =>
      refine ⟨kept.nodes.armTickForDue, kept.tick.armTickForDue, ?_⟩
      rw [armTickForDue_timerHeap, isEmpty_iff.mp empty]
      exact fun _ member => absurd member not_mem_nil
  · exact kept

variable {answers : HandleTickAnswers}

theorem handleTick_spec {fuel : ℕ} (nodes : manager.HasNodes) (tick : manager.HasTick)
    (handled : manager.handleTick config answers fuel = some after) :
    after.Kept ∧ ∀ node ∈ after.timerHeap, monotonicMs answers.now < node.dueMonoMs := by
  rcases Option.map_eq_some_iff.mp handled with ⟨processed, ended, same⟩
  subst same
  rcases processDueNodes_spec nodes tick ended with ⟨kept, later⟩
  refine ⟨kept.armFallback.maybeCollectIdleSessions, ?_⟩
  rwa [maybeCollectIdleSessions_timerHeap, armFallback_timerHeap]

theorem exists_handleTick (config : KcpManagerConfig) (manager : KcpManager)
    (answers : HandleTickAnswers) :
    ∃ after, ∀ fuel, manager.dueCount (monotonicMs answers.now) < fuel →
      manager.handleTick config answers fuel = some after := by
  rcases exists_processDueNodes (monotonicMs_lt answers.now) manager answers.rounds with
    ⟨processed, ends⟩
  refine ⟨(processed.armFallback config (monotonicMs answers.now)
    answers.clock).maybeCollectIdleSessions config (monotonicMs answers.now), ?_⟩
  intro fuel enough
  rw [handleTick, ends fuel enough]
  rfl

theorem HasTick.eraseIdx {index : ℕ} {fired : Tick} (tick : manager.HasTick)
    (fires : manager.ticks[index]? = some fired) (stale : fired.seq ≠ manager.armedTickSeq) :
    { manager with ticks := manager.ticks.eraseIdx index }.HasTick := by
  intro armed
  rcases tick armed with ⟨held, member, seq, due⟩
  refine ⟨held, ?_, seq, due⟩
  rcases mem_iff_getElem?.mp member with ⟨position, here⟩
  refine mem_eraseIdx_iff_getElem?.mpr ⟨position, ?_, here⟩
  rintro rfl
  rw [here] at fires
  cases fires
  exact stale seq

theorem fireTick_spec {index fuel : ℕ}
    (kept : manager.Kept) (fired : manager.fireTick config index answers fuel = some after) :
    after.Kept ∧ ∀ tick, manager.ticks[index]? = some tick → tick.seq = manager.armedTickSeq →
      ∀ node ∈ after.timerHeap, monotonicMs answers.now < node.dueMonoMs := by
  unfold fireTick at fired
  split at fired
  · cases fired
  · next tick fires =>
      dsimp only at fired
      split at fired
      · next stale =>
          cases fired
          refine ⟨⟨kept.nodes, kept.tick.eraseIdx fires stale, kept.armed⟩, ?_⟩
          intro other same current
          rw [fires] at same
          cases same
          exact absurd current stale
      · have unarmed : { manager with
            ticks := manager.ticks.eraseIdx index, armedTickDueMonoMs := 0 }.HasTick :=
          fun armed => absurd rfl armed
        have spec := handleTick_spec (show HasNodes { manager with
          ticks := manager.ticks.eraseIdx index, armedTickDueMonoMs := 0 } from kept.nodes)
          unarmed fired
        exact ⟨spec.1, fun _ _ _ => spec.2⟩

theorem exists_fireTick {index : ℕ} (fires : index < manager.ticks.length) :
    ∃ after, ∀ fuel, manager.dueCount (monotonicMs answers.now) < fuel →
      manager.fireTick config index answers fuel = some after := by
  rcases exists_handleTick config { manager with
    ticks := manager.ticks.eraseIdx index, armedTickDueMonoMs := 0 } answers with ⟨after, handled⟩
  by_cases stale : manager.ticks[index].seq ≠ manager.armedTickSeq
  · refine ⟨{ manager with ticks := manager.ticks.eraseIdx index }, fun fuel _ => ?_⟩
    rw [fireTick, List.getElem?_eq_getElem fires]
    exact if_pos stale
  · refine ⟨after, fun fuel enough => ?_⟩
    rw [fireTick, List.getElem?_eq_getElem fires]
    exact (if_neg stale).trans (handled fuel enough)

end Ticks

section Runs

variable {started after : Started} {event : Event} {events : List Event} {now clock : SteadyTime}

theorem empty_kept : ({} : KcpManager).Kept := by
  refine ⟨?_, fun armed => absurd rfl armed, fun _ member => absurd member not_mem_nil⟩
  rintro key entry ⟨⟩

theorem Kept.initialise (kept : manager.Kept) (small : config.fallbackTickMs ≤ 2 ^ 63) :
    (manager.initialise config now clock).Kept := by
  -- the sum does not wrap, so that its time is not the one that stands for no tick
  have positive : wrap (monotonicMs now + fallbackTickMs config) ≠ 0 := by
    have bounded := monotonicMs_lt now
    rw [wrap, fallbackTickMs]
    split <;> omega
  unfold KcpManager.initialise
  generalize wrap (monotonicMs now + 1000) = gc
  have begun : { manager with nextIdleGcMonoMs := gc }.Kept := ⟨kept.nodes, kept.tick, kept.armed⟩
  refine ⟨begun.nodes.armTickForDue, begun.tick.armTickForDue, ?_⟩
  intro node member
  rw [armTickForDue_timerHeap] at member
  exact (begun.armed node member).armTickForDue positive

theorem Kept.step (kept : started.manager.Kept) (small : config.fallbackTickMs ≤ 2 ^ 63)
    (taken : started.step config event = some after) : after.manager.Kept := by
  cases event with
  | initialise now clock =>
    rcases Option.ite_none_right_eq_some.mp taken with ⟨_, same⟩
    cases same
    exact kept.initialise small
  | packet peer data answers =>
    cases taken
    dsimp only
    unfold handleUdpPacket
    split
    · exact kept
    · exact kept.useSession
  | send key data answers =>
    cases taken
    dsimp only
    unfold sendInLoop
    split
    · exact kept.useSession
    · exact kept
  | tick index answers fuel =>
    rcases Option.map_eq_some_iff.mp taken with ⟨manager, fired, same⟩
    cases same
    exact (fireTick_spec kept fired).1

/-- After `start`, whatever packets arrive, whatever is sent and whenever timeouts fire: every session
that was scheduled has its node, while there are nodes a tick is armed that is not later than any of
them, and a timeout that fires is handled and leaves no node that is due. -/
theorem timers_kept (small : config.fallbackTickMs ≤ 2 ^ 63)
    (run : Run (Started.step config) (fun _ _ => True) {} events started) :
    (∀ key entry, started.manager.sessions key = some entry → entry.scheduled = true →
      ∃ node ∈ started.manager.timerHeap, node.key = key ∧
        node.scheduleSeq = entry.scheduleSeq ∧ node.dueMonoMs = entry.nextDueMonoMs) ∧
    (started.manager.timerHeap ≠ [] →
      ∃ tick ∈ started.manager.ticks, tick.seq = started.manager.armedTickSeq ∧
        ∀ node ∈ started.manager.timerHeap, tick.dueMonoMs ≤ node.dueMonoMs) ∧
    ∀ index tick answers, started.manager.ticks[index]? = some tick →
      ∃ after bound, (∀ fuel, bound < fuel →
          started.manager.fireTick config index answers fuel = some after) ∧
        (tick.seq = started.manager.armedTickSeq →
          ∀ node ∈ after.timerHeap, monotonicMs answers.now < node.dueMonoMs) := by
  have kept : started.manager.Kept := by
    apply run.invariant
    · exact empty_kept
    · intro before after event _ taken earlier
      exact earlier.step small taken
  refine ⟨?_, ?_, ?_⟩
  · intro key entry found scheduled
    rcases kept.nodes key entry found scheduled with ⟨node, member, serves⟩
    exact ⟨node, member, serves.key_eq, serves.seq_eq, serves.due_eq⟩
  · intro nonempty
    rcases exists_mem_of_ne_nil _ nonempty with ⟨first, present⟩
    rcases kept.tick (kept.armed first present).1 with ⟨tick, member, seq, due⟩
    exact ⟨tick, member, seq, fun node inside => due.le.trans (kept.armed node inside).2⟩
  · intro index tick answers fires
    rcases exists_fireTick (List.getElem?_eq_some_iff.mp fires).1 with ⟨after, fired⟩
    refine ⟨after, _, fired, fun current => ?_⟩
    exact (fireTick_spec kept (fired _ (Nat.lt_succ_self _))).2 tick fires current

def earlyTime (ms : Fin 1000) : SteadyTime where
  nanoseconds := ms * 10 ^ 6
  bounded := by omega

/-- A packet for a session of this peer, which asks for an update at this time. -/
def packetAt (peer : UInt8) (dueKcpMs : UInt32) : Event :=
  .packet { addr := [10, 0, 0, peer], port := 4000 } (List.replicate 52 1)
    { createdAt := earlyTime 5, now := earlyTime 5, dueKcpMs, clock := earlyTime 5 }

/-- A packet before the callback of `start`, the callback, and the tick that it arms. -/
def firstTicks : List Event :=
  [packetAt 1 30, .initialise (earlyTime 5) (earlyTime 5),
    .tick 1
      { now := earlyTime 16, rounds := fun _ => { dueKcpMs := 40, clock := earlyTime 16 }
        clock := earlyTime 16 } 1]

/-- A tick is armed for the session again. -/
theorem firstTicks_armed :
    ∃ started, Run (Started.step {}) (fun _ _ => True) {} firstTicks started ∧
      started.manager.timerHeap.map TimerNode.dueMonoMs = [30] ∧
      ∃ tick ∈ started.manager.ticks, tick.seq = started.manager.armedTickSeq ∧
        ∀ node ∈ started.manager.timerHeap, tick.dueMonoMs ≤ node.dueMonoMs := by
  apply Run.exists_of_execute
    (fun started => started.manager.timerHeap.map TimerNode.dueMonoMs == [30])
  · decide +kernel
  · intro started run facts
    have due := eq_of_beq facts
    refine ⟨due, (timers_kept (by decide) run).2.1 ?_⟩
    rintro empty
    simp [empty] at due

/-- The time of the tick of `start` wraps to the one that stands for no tick, so that the next packet
arms a tick that is later than the first session. -/
theorem later_tick_armed :
    ∃ started, Run (Started.step { fallbackTickMs := 2 ^ 64 - 5 }) (fun _ _ => True) {}
        [packetAt 1 8, .initialise (earlyTime 5) (earlyTime 5), packetAt 2 20] started ∧
      ∃ node ∈ started.manager.timerHeap, ∀ tick ∈ started.manager.ticks,
        tick.seq = started.manager.armedTickSeq → node.dueMonoMs < tick.dueMonoMs := by
  apply Run.exists_of_execute fun started => decide (∃ node ∈ started.manager.timerHeap,
    ∀ tick ∈ started.manager.ticks, tick.seq = started.manager.armedTickSeq →
      node.dueMonoMs < tick.dueMonoMs)
  · decide +kernel
  · intro started _ facts
    exact of_decide_eq_true facts

end Runs

end KcpManager

end IotProxy.Myring
