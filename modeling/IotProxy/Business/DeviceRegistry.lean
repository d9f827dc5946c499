import IotProxy.Business.KafkaMessage

/-!
# The device registry

The business service keeps a table of the devices that the proxies have served, with the time at
which each was last heard of. `syncKafkaDeviceConnectionToMySQL` is one round of its loop: fetch the
next message of the partition, parse it, write the device to the table and commit the offset. Any
error ends the loop, and with it the process; the next process starts at the committed offset.

`upserted` is not part of the program: it collects the offsets of the written messages.
-/

namespace IotProxy.Business

open Multiset Option Function
open Storage (Time WallClock)

/-- The table `proxy_served_device`: the time stamp of each device, by its MAC address, which is a
unique key. -/
abbrev ProxyServedDevices := Text → Option ℤ

inductive ServiceError where
  | fetchFailed
  | parse (error : ConnectionError)
  | invalidMac (macAddr : Text)
  | databaseFailed
  | commitFailed
  deriving DecidableEq

inductive CommitResult where
  | ok
  /-- A commit that reports an error may have been applied. -/
  | failed (applied : Bool)

structure Round where
  now : WallClock
  fetches : Bool := true
  stores : Bool := true
  commits : CommitResult := .ok

def Round.Succeeds (round : Round) : Prop :=
  round.fetches = true ∧ round.stores = true ∧ round.commits = .ok

structure Registry where
  committed : ℕ := 0
  table : ProxyServedDevices := fun _ => none
  upserted : List ℕ := []

section Service

variable (letterCase : Text.LetterCase)

/-- Insert the device, or overwrite its time stamp. -/
def upsertProxyServedDevice (table : ProxyServedDevices) (macAddr : Text) (timestamp : ℤ)
    (stores : Bool) : Except ServiceError ProxyServedDevices :=
  match normalizeMAC letterCase macAddr with
  | none => .error (.invalidMac macAddr)
  | some mac =>
    if stores then .ok (Function.update table mac (some timestamp)) else .error .databaseFailed

def storeMessage (round : Round) (value : Bytes) (table : ProxyServedDevices) :
    Except ServiceError ProxyServedDevices :=
  match parseKafkaDeviceConnection round.now value with
  | .error error => .error (.parse error)
  | .ok connection =>
    upsertProxyServedDevice letterCase table connection.macAddr connection.timestamp round.stores

def syncKafkaDeviceConnectionToMySQL (round : Round) (offset : ℕ) (value : Bytes)
    (registry : Registry) : Registry × Option ServiceError :=
  if !round.fetches then (registry, some .fetchFailed)
  else
    match storeMessage letterCase round value registry.table with
    | .error error => (registry, some error)
    | .ok table =>
      let stored := { registry with table, upserted := offset :: registry.upserted }
      match round.commits with
      | .ok => ({ stored with committed := offset + 1 }, none)
      | .failed applied =>
        (if applied then { stored with committed := offset + 1 } else stored,
          some .commitFailed)

/-- `Coroutine_Loop.Loop` on the messages from an offset on. At the end of the log the fetch waits;
an error is what the loop returns. -/
def loop (rounds : ℕ → Round) :
    ℕ → List Bytes → Registry → Registry × Option ServiceError
  | _, [], registry => (registry, none)
  | offset, value :: later, registry =>
    match syncKafkaDeviceConnectionToMySQL letterCase (rounds offset) offset value registry with
    | (registry, none) => loop rounds (offset + 1) later registry
    | (registry, some error) => (registry, some error)

/-- One run of the process: it reads on from the committed offset until an error. -/
def processRun (log : List Bytes) (rounds : ℕ → Round) (registry : Registry) : Registry :=
  (loop letterCase rounds registry.committed (log.drop registry.committed) registry).1

def afterRuns (log : List Bytes) (rounds : ℕ → ℕ → Round) (start : Registry) : ℕ → Registry
  | 0 => start
  | runs + 1 => processRun letterCase log (rounds runs) (afterRuns log rounds start runs)

end Service

variable {round : Round} {value : Bytes} {table : ProxyServedDevices} {timestamp : ℤ}

section Readings

variable (letterCase : Text.LetterCase)

def reading (now : Time) (value : Bytes) : Option (Text × ℤ) :=
  match parseKafkaDeviceConnection now value with
  | .error _ => none
  | .ok connection =>
    (normalizeMAC letterCase connection.macAddr).map fun mac => (mac, connection.timestamp)

def Acceptable (value : Bytes) : Prop :=
  ∃ now : WallClock, (reading letterCase now value).isSome

def EdgeKafkaMessage.ownTimestamp (envelope : EdgeKafkaMessage) : Option ℕ :=
  if envelope.timestampMS ≠ 0 then some envelope.timestampMS
  else if envelope.timestamp ≠ 0 then some envelope.timestamp
  else none

def ownTimestamp (value : Bytes) : Option ℕ :=
  (unmarshalEnvelope value).bind EdgeKafkaMessage.ownTimestamp

/-- The device of a message. A value is `none` here if and only if it is not accepted. -/
def deviceMac (value : Bytes) : Option Text :=
  match unmarshalEnvelope value with
  | none => none
  | some envelope =>
    if ¬ envelope.schema.isEmpty ∧ envelope.schema ≠ Storage.edgeKafkaSchema then none
    else if envelope.ownTimestamp.any (2 ^ 63 ≤ ·) then none
    else normalizeMAC letterCase (envelopeMac envelope)

variable {letterCase}

theorem storeMessage_eq_ok {after : ProxyServedDevices}
    (stored : storeMessage letterCase round value table = .ok after) :
    ∃ mac timestamp, reading letterCase round.now value = some (mac, timestamp) ∧
      after = update table mac (some timestamp) := by
  unfold storeMessage at stored
  unfold reading
  cases parsed : parseKafkaDeviceConnection round.now value with
  | error error => simp [parsed] at stored
  | ok connection =>
    simp only [parsed, upsertProxyServedDevice] at stored
    cases normalized : normalizeMAC letterCase connection.macAddr with
    | none => simp [normalized] at stored
    | some mac =>
      simp only [normalized] at stored
      split at stored
      · cases stored
        exact ⟨mac, connection.timestamp, by simp [normalized], rfl⟩
      · cases stored

theorem storeMessage_of_reading {mac : Text} (stores : round.stores = true)
    (read : reading letterCase round.now value = some (mac, timestamp)) :
    storeMessage letterCase round value table = .ok (update table mac (some timestamp)) := by
  unfold reading at read
  unfold storeMessage
  cases parsed : parseKafkaDeviceConnection round.now value with
  | error error => simp [parsed] at read
  | ok connection =>
    simp only [parsed, map_eq_some_iff, Prod.mk.injEq] at read
    rcases read with ⟨found, normalized, rfl, rfl⟩
    simp [upsertProxyServedDevice, normalized, stores]

theorem envelopeTimestamp_eq (envelope : EdgeKafkaMessage) (now : WallClock) :
    (envelopeTimestamp envelope now : ℤ) =
      (envelope.ownTimestamp.map Int.ofNat).getD (now : Time).unixMilli := by
  have afterEpoch := now.property
  have inRange : (now : Time).unixMilli < 2 ^ 63 := by
    simp only [Time.unixMilli, Text.wrapInt64]
    omega
  unfold envelopeTimestamp EdgeKafkaMessage.ownTimestamp
  by_cases hasMs : envelope.timestampMS = 0
  · by_cases hasTime : envelope.timestamp = 0
    · simp only [hasMs, hasTime, if_true, ne_eq, not_true_eq_false, if_false, map_none, getD_none]
      omega
    · simp [hasMs, hasTime]
  · simp [hasMs]

theorem le_envelopeTimestamp_iff (envelope : EdgeKafkaMessage) (now : WallClock) :
    envelopeTimestamp envelope now ≥ 2 ^ 63 ↔ envelope.ownTimestamp.any (2 ^ 63 ≤ ·) = true := by
  have fits := Storage.unixMilli_toNat_lt now
  unfold envelopeTimestamp EdgeKafkaMessage.ownTimestamp
  by_cases hasMs : envelope.timestampMS = 0
  · by_cases hasTime : envelope.timestamp = 0
    · simpa [hasMs, hasTime] using fits
    · simp [hasMs, hasTime]
  · simp [hasMs]

theorem reading_wallClock (now : WallClock) (value : Bytes) :
    reading letterCase now value =
      (deviceMac letterCase value).map fun mac =>
        (mac, ((ownTimestamp value).map Int.ofNat).getD (now : Time).unixMilli) := by
  unfold reading deviceMac parseKafkaDeviceConnection ownTimestamp
  cases unmarshalEnvelope value with
  | none => rfl
  | some envelope =>
    have timestamp := envelopeTimestamp_eq envelope now
    simp only [le_envelopeTimestamp_iff, bind_some]
    by_cases otherSchema : ¬ envelope.schema.isEmpty ∧ envelope.schema ≠ Storage.edgeKafkaSchema
    · rw [if_pos otherSchema, if_pos otherSchema]
      rfl
    · rw [if_neg otherSchema, if_neg otherSchema]
      by_cases overflows : envelope.ownTimestamp.any (2 ^ 63 ≤ ·) = true
      · rw [if_pos overflows, if_pos overflows]
        rfl
      · rw [if_neg overflows, if_neg overflows]
        by_cases noMac : (envelopeMac envelope).isEmpty = true
        · rw [if_pos noMac, List.isEmpty_iff.mp noMac]
          rfl
        · rw [if_neg noMac]
          simp only [timestamp]

def epoch : WallClock :=
  ⟨{ unixSec := 0, nsec := 0 }, by decide⟩

theorem acceptable_iff :
    Acceptable letterCase value ↔ (deviceMac letterCase value).isSome = true := by
  simp only [Acceptable, reading_wallClock, isSome_map]
  constructor
  · rintro ⟨_, isSome⟩
    exact isSome
  · intro isSome
    exact ⟨epoch, isSome⟩

instance (value : Bytes) : Decidable (Acceptable letterCase value) :=
  decidable_of_iff _ acceptable_iff.symm

end Readings

section Progress

variable {letterCase : Text.LetterCase} {log : List Bytes} {registry : Registry}

structure ReachedEnd (letterCase : Text.LetterCase) (log : List Bytes) (registry : Registry) :
    Prop where
  committed : registry.committed = log.length
  upserted : ∀ ⦃offset value⦄, log[offset]? = some value → Acceptable letterCase value →
    offset ∈ registry.upserted

structure Settled (letterCase : Text.LetterCase) (log : List Bytes) (registry : Registry) :
    Prop where
  inLog : registry.committed ≤ log.length
  acceptable : ∀ ⦃offset value⦄, offset < registry.committed → log[offset]? = some value →
    Acceptable letterCase value
  upserted : ∀ ⦃offset⦄, offset < registry.committed → offset ∈ registry.upserted

theorem settled_of_committed_eq_zero (start : registry.committed = 0) :
    Settled letterCase log registry := by
  constructor
  · omega
  · omega
  · omega

inductive Syncs (letterCase : Text.LetterCase) (round : Round) (value : Bytes)
    (registry : Registry) : Registry × Option ServiceError → Prop where
  | failed (error : ServiceError) : Syncs letterCase round value registry (registry, some error)
  | stored {table : ProxyServedDevices} {committed : ℕ} {error : Option ServiceError}
      (accepted : Acceptable letterCase value)
      (offset : committed = registry.committed + 1 ∨
        committed = registry.committed ∧ error.isSome = true) :
      Syncs letterCase round value registry
        ({ committed, table, upserted := registry.committed :: registry.upserted }, error)

theorem acceptable_of_stored {after : ProxyServedDevices}
    (stored : storeMessage letterCase round value table = .ok after) :
    Acceptable letterCase value := by
  rcases storeMessage_eq_ok stored with ⟨mac, timestamp, read, _⟩
  exact ⟨round.now, by simp [read]⟩

theorem syncs_sync (letterCase : Text.LetterCase) (round : Round) (value : Bytes)
    (registry : Registry) :
    Syncs letterCase round value registry
      (syncKafkaDeviceConnectionToMySQL letterCase round registry.committed value registry) := by
  unfold syncKafkaDeviceConnectionToMySQL
  split
  · exact .failed .fetchFailed
  · cases stored : storeMessage letterCase round value registry.table with
    | error error => exact .failed error
    | ok table =>
      have accepted := acceptable_of_stored stored
      cases round.commits with
      | ok => exact .stored accepted (.inl rfl)
      | failed applied =>
        cases applied with
        | true => exact .stored accepted (.inl rfl)
        | false => exact .stored accepted (.inr ⟨rfl, rfl⟩)

theorem Settled.syncs
    {result : Registry × Option ServiceError} (settled : Settled letterCase log registry)
    (present : log[registry.committed]? = some value)
    (syncs : Syncs letterCase round value registry result) : Settled letterCase log result.1 := by
  cases syncs with
  | failed error => exact settled
  | @stored table committed error accepted offset =>
    have inLog : registry.committed < log.length := (List.getElem?_eq_some_iff.mp present).1
    constructor
    · dsimp only
      omega
    · intro earlier other below found
      by_cases isThis : earlier = registry.committed
      · rw [isThis, present] at found
        cases found
        exact accepted
      · apply settled.acceptable _ found
        dsimp only at below
        omega
    · intro earlier below
      by_cases isThis : earlier = registry.committed
      · rw [isThis]
        exact List.mem_cons_self
      · apply List.mem_cons_of_mem
        apply settled.upserted
        dsimp only at below
        omega

theorem Settled.loop {rounds : ℕ → Round} {later : List Bytes}
    (settled : Settled letterCase log registry) (isRest : log.drop registry.committed = later) :
    Settled letterCase log (loop letterCase rounds registry.committed later registry).1 := by
  induction later generalizing registry with
  | nil => exact settled
  | cons value later ih =>
    have present : log[registry.committed]? = some value := by
      rw [← List.head?_drop, isRest, List.head?_cons]
    have rest : log.drop (registry.committed + 1) = later := by
      rw [← List.tail_drop, isRest, List.tail_cons]
    have syncs := syncs_sync letterCase (rounds registry.committed) value registry
    have next := settled.syncs present syncs
    rw [Business.loop]
    generalize syncKafkaDeviceConnectionToMySQL letterCase (rounds registry.committed)
      registry.committed value registry = result at syncs next
    cases syncs with
    | failed error => exact next
    | @stored table committed error accepted offset =>
      cases error with
      | some error => exact next
      | none =>
        have moved : committed = registry.committed + 1 := by simpa using offset
        subst moved
        exact ih next rest

theorem Settled.afterRuns {rounds : ℕ → ℕ → Round} (settled : Settled letterCase log registry)
    (runs : ℕ) : Settled letterCase log (afterRuns letterCase log rounds registry runs) := by
  induction runs with
  | zero => exact settled
  | succ runs ih => exact ih.loop rfl

theorem committed_le_of_rejected {rounds : ℕ → ℕ → Round} {offset : ℕ}
    (start : registry.committed = 0) (present : log[offset]? = some value)
    (rejected : ¬ Acceptable letterCase value) (runs : ℕ) :
    (afterRuns letterCase log rounds registry runs).committed ≤ offset := by
  have settled : Settled letterCase log (afterRuns letterCase log rounds registry runs) :=
    (settled_of_committed_eq_zero start).afterRuns runs
  by_contra beyond
  exact rejected (settled.acceptable (Nat.lt_of_not_le beyond) present)

theorem sync_of_acceptable (registry : Registry)
    (succeeds : round.Succeeds) (accepted : Acceptable letterCase value) :
    ∃ after, syncKafkaDeviceConnectionToMySQL letterCase round registry.committed value registry =
      (after, none) ∧ after.committed = registry.committed + 1 := by
  rcases isSome_iff_exists.mp (acceptable_iff.mp accepted) with ⟨mac, isMac⟩
  have read : reading letterCase round.now value = _ := reading_wallClock round.now value
  rw [isMac, map_some] at read
  rw [syncKafkaDeviceConnectionToMySQL, storeMessage_of_reading succeeds.2.1 read, succeeds.1,
    succeeds.2.2]
  exact ⟨_, rfl, rfl⟩

theorem committed_loop {rounds : ℕ → Round} (succeed : ∀ offset, (rounds offset).Succeeds)
    {later : List Bytes} (accepted : ∀ value ∈ later, Acceptable letterCase value) :
    (loop letterCase rounds registry.committed later registry).1.committed =
      registry.committed + later.length := by
  induction later generalizing registry with
  | nil => rfl
  | cons value later ih =>
    rw [List.forall_mem_cons] at accepted
    rcases sync_of_acceptable registry (succeed registry.committed) accepted.1 with
      ⟨after, synced, moved⟩
    rw [Business.loop, synced]
    dsimp only
    rw [← moved, ih accepted.2, moved, List.length_cons]
    omega

/-- The service consumes its log in finitely many processes if and only if every message is
accepted. -/
theorem reaches_end_iff (letterCase : Text.LetterCase) (log : List Bytes)
    (rounds : ℕ → ℕ → Round) (succeed : ∀ run offset, (rounds run offset).Succeeds)
    (table : ProxyServedDevices) :
    (∃ runs, ReachedEnd letterCase log (afterRuns letterCase log rounds { table } runs)) ↔
      ∀ value ∈ log, Acceptable letterCase value := by
  have settled (runs : ℕ) :
      Settled letterCase log (afterRuns letterCase log rounds { table } runs) :=
    (settled_of_committed_eq_zero rfl).afterRuns runs
  constructor
  · rintro ⟨runs, reached⟩ value mem
    rcases List.mem_iff_getElem?.mp mem with ⟨offset, present⟩
    apply (settled runs).acceptable _ present
    rw [reached.committed]
    exact (List.getElem?_eq_some_iff.mp present).1
  · intro accepted
    have committed : (afterRuns letterCase log rounds { table } 1).committed = log.length := by
      refine (committed_loop (succeed 0) accepted).trans ?_
      exact Nat.zero_add _
    refine ⟨1, committed, ?_⟩
    intro offset value present _
    apply (settled 1).upserted
    rw [committed]
    exact (List.getElem?_eq_some_iff.mp present).1

def deviceMessage : Bytes :=
  Utf8.encode "\x7b\"mac_hex\":\"aabbccddeeff\",\"timestamp_ms\":2\x7d".toList

def earlierMessage : Bytes :=
  Utf8.encode "\x7b\"mac_hex\":\"aabbccddeeff\",\"timestamp_ms\":1\x7d".toList

def badMessage : Bytes :=
  Utf8.encode "\x7b\"mac_hex\":\"aabbcc\",\"timestamp_ms\":1\x7d".toList

/-- Two good messages are both written and committed. -/
theorem good_log_reaches_end :
    ∃ runs, ReachedEnd .ascii [deviceMessage, earlierMessage]
      (afterRuns .ascii [deviceMessage, earlierMessage] (fun _ _ => { now := epoch }) {} runs) :=
  (reaches_end_iff .ascii _ _ (fun _ _ => ⟨rfl, rfl, rfl⟩) _).mpr
    (List.all_iff_forall_prop.mp (by decide +kernel))

/-- One message with a bad MAC address, and the good message after it is never written. -/
theorem bad_message_wedges :
    ¬ ∃ runs, ReachedEnd .ascii [badMessage, deviceMessage]
      (afterRuns .ascii [badMessage, deviceMessage] (fun _ _ => { now := epoch }) {} runs) := by
  rintro ⟨runs, reached⟩
  have rejected : ¬ Acceptable .ascii badMessage := by decide +kernel
  have stuck : (afterRuns .ascii [badMessage, deviceMessage] (fun _ _ => { now := epoch }) {}
      runs).committed ≤ 0 := committed_le_of_rejected rfl rfl rejected runs
  rw [reached.committed] at stuck
  cases stuck

end Progress

section Order

variable (letterCase : Text.LetterCase)

structure Delivery where
  value : Bytes
  now : WallClock

def deliver (table : ProxyServedDevices) (delivery : Delivery) : ProxyServedDevices :=
  match storeMessage letterCase { now := delivery.now } delivery.value table with
  | .ok table => table
  | .error _ => table

def served (deliveries : List Delivery) : ProxyServedDevices :=
  deliveries.foldl (deliver letterCase) fun _ => none

def timestamps (mac : Text) (deliveries : List Delivery) : List ℤ :=
  deliveries.filterMap fun delivery =>
    ((reading letterCase delivery.now delivery.value).filter (·.1 = mac)).map Prod.snd

/-- The messages are delivered in some order, each as often as it was sent or more often. -/
def Delivers (messages : Multiset Bytes) (deliveries : List Delivery) : Prop :=
  messages ≤ (deliveries.map Delivery.value : Multiset Bytes) ∧
    ∀ delivery ∈ deliveries, delivery.value ∈ messages

/-- The table is the same for all orders and holds the latest time stamp of each device. -/
def OrderInsensitive (messages : Multiset Bytes) : Prop :=
  ∀ first second, Delivers messages first → Delivers messages second →
    served letterCase first = served letterCase second ∧
      ∀ mac, served letterCase first mac = (timestamps letterCase mac first).max?

/-- Every message has its own time stamp, and the messages of a device have the same. -/
structure OneTimestamp (messages : Multiset Bytes) : Prop where
  own : ∀ value ∈ messages, (ownTimestamp value).isSome = true
  agree : ∀ value ∈ messages, ∀ other ∈ messages,
    deviceMac letterCase value = deviceMac letterCase other →
      ownTimestamp value = ownTimestamp other

variable {letterCase}

theorem deliver_of_none {delivery : Delivery}
    (rejected : reading letterCase delivery.now delivery.value = none) :
    deliver letterCase table delivery = table := by
  unfold deliver
  cases stored : storeMessage letterCase { now := delivery.now } delivery.value table with
  | error error => rfl
  | ok after =>
    rcases storeMessage_eq_ok stored with ⟨mac, timestamp, read, _⟩
    rw [rejected] at read
    cases read

theorem deliver_of_some {delivery : Delivery} {row : Text × ℤ}
    (read : reading letterCase delivery.now delivery.value = some row) :
    deliver letterCase table delivery = update table row.1 (some row.2) := by
  have stored : storeMessage letterCase { now := delivery.now } delivery.value table =
      .ok (update table row.1 (some row.2)) := storeMessage_of_reading rfl read
  rw [deliver, stored]

theorem served_eq_getLast (deliveries : List Delivery) (mac : Text) :
    served letterCase deliveries mac = (timestamps letterCase mac deliveries).getLast? := by
  induction deliveries using List.reverseRecOn with
  | nil => rfl
  | append_singleton earlier last ih =>
    rw [served, List.foldl_append, timestamps, List.filterMap_append, List.getLast?_append]
    change deliver letterCase (served letterCase earlier) last mac =
      Option.or _ (timestamps letterCase mac earlier).getLast?
    rw [← ih]
    cases read : reading letterCase last.now last.value with
    | none =>
      rw [deliver_of_none read]
      simp [read]
    | some row =>
      rw [deliver_of_some read]
      by_cases isMac : row.1 = mac
      · simp [read, isMac, Option.filter]
      · simp [read, isMac, Ne.symm isMac, Option.filter]

theorem mem_timestamps {deliveries : List Delivery} {mac : Text} :
    timestamp ∈ timestamps letterCase mac deliveries ↔
      ∃ delivery ∈ deliveries,
        reading letterCase delivery.now delivery.value = some (mac, timestamp) := by
  simp only [timestamps, List.mem_filterMap, map_eq_some_iff, filter_eq_some_iff, decide_eq_true_eq]
  constructor
  · rintro ⟨delivery, mem, row, ⟨read, rfl⟩, rfl⟩
    exact ⟨delivery, mem, read⟩
  · rintro ⟨delivery, mem, read⟩
    exact ⟨delivery, mem, (mac, timestamp), ⟨read, rfl⟩, rfl⟩

theorem served_append_singleton {earlier : List Delivery} {last : Delivery} {row : Text × ℤ}
    (read : reading letterCase last.now last.value = some row) :
    served letterCase (earlier ++ [last]) row.1 = some row.2 := by
  rw [served, List.foldl_append]
  change deliver letterCase _ last row.1 = some row.2
  rw [deliver_of_some read, update_self]

section Equal

variable {values : List ℤ} {value : ℤ} (equal : ∀ left ∈ values, ∀ right ∈ values, left = right)

include equal

theorem getLast?_eq_some_of_equal : values.getLast? = some value ↔ value ∈ values := by
  constructor
  · exact List.mem_of_getLast?
  · intro mem
    rw [List.getLast?_eq_some_getLast (List.ne_nil_of_mem mem)]
    exact congrArg some (equal _ (List.getLast_mem _) _ mem)

theorem max?_eq_some_of_equal : values.max? = some value ↔ value ∈ values := by
  rw [List.max?_eq_some_iff]
  constructor
  · exact And.left
  · intro mem
    exact ⟨mem, fun other otherMem => (equal other otherMem value mem).le⟩

end Equal

section OneTimestamp

variable {messages : Multiset Bytes} {deliveries : List Delivery} {mac : Text}

theorem mem_timestamps_iff (delivers : Delivers messages deliveries)
    (one : OneTimestamp letterCase messages) :
    timestamp ∈ timestamps letterCase mac deliveries ↔
      ∃ value ∈ messages, deviceMac letterCase value = some mac ∧
        (ownTimestamp value).map Int.ofNat = some timestamp := by
  have read (delivery : Delivery) (mem : delivery.value ∈ messages) :
      reading letterCase delivery.now delivery.value = some (mac, timestamp) ↔
        deviceMac letterCase delivery.value = some mac ∧
          (ownTimestamp delivery.value).map Int.ofNat = some timestamp := by
    rcases isSome_iff_exists.mp (one.own _ mem) with ⟨own, hasOwn⟩
    simp [reading_wallClock, hasOwn]
  rw [mem_timestamps]
  constructor
  · rintro ⟨delivery, mem, isReading⟩
    have sent := delivers.2 delivery mem
    exact ⟨delivery.value, sent, (read delivery sent).mp isReading⟩
  · rintro ⟨value, sent, isValue⟩
    rcases List.mem_map.mp (mem_coe.mp (mem_of_le delivers.1 sent)) with
      ⟨delivery, mem, rfl⟩
    exact ⟨delivery, mem, (read delivery sent).mpr isValue⟩

theorem timestamps_equal (delivers : Delivers messages deliveries)
    (one : OneTimestamp letterCase messages) :
    ∀ left ∈ timestamps letterCase mac deliveries,
      ∀ right ∈ timestamps letterCase mac deliveries, left = right := by
  intro left leftMem right rightMem
  rcases (mem_timestamps_iff delivers one).mp leftMem with ⟨value, sent, isMac, isLeft⟩
  rcases (mem_timestamps_iff delivers one).mp rightMem with ⟨other, otherSent, isSame, isRight⟩
  rw [one.agree value sent other otherSent (isMac.trans isSame.symm), isRight] at isLeft
  exact (Option.some.inj isLeft).symm

theorem delivers_again (last : Delivery) (sent : last.value ∈ messages) :
    Delivers messages (messages.toList.map (fun value => ⟨value, epoch⟩) ++ [last]) := by
  constructor
  · rw [List.map_append, List.map_map, ← coe_add]
    change messages ≤ ((messages.toList.map id : List Bytes) : Multiset Bytes) + _
    rw [List.map_id, coe_toList]
    exact le_add_right _ _
  · intro delivery mem
    rw [List.mem_append, List.mem_map, List.mem_singleton] at mem
    rcases mem with ⟨value, isSent, rfl⟩ | rfl
    · exact mem_toList.mp isSent
    · exact sent

theorem OrderInsensitive.timestamp_eq {other : ℤ}
    (insensitive : OrderInsensitive letterCase messages) (first second : Delivery)
    (firstSent : first.value ∈ messages) (secondSent : second.value ∈ messages)
    (firstRead : reading letterCase first.now first.value = some (mac, timestamp))
    (secondRead : reading letterCase second.now second.value = some (mac, other)) :
    timestamp = other := by
  have same := (insensitive _ _ (delivers_again first firstSent)
    (delivers_again second secondSent)).1
  have row := congrFun same mac
  rw [served_append_singleton firstRead, served_append_singleton secondRead] at row
  exact Option.some.inj row

end OneTimestamp

def secondAfterEpoch : WallClock :=
  ⟨{ unixSec := 1, nsec := 0 }, by decide⟩

/-- For messages that the parsers accept, the table does not depend on their order, and has the
latest time stamp of each device, if and only if each message has a time stamp of its own and the
messages of a device have the same. -/
theorem order_insensitive_iff (letterCase : Text.LetterCase) (messages : Multiset Bytes)
    (valid : ∀ value ∈ messages, Acceptable letterCase value) :
    OrderInsensitive letterCase messages ↔ OneTimestamp letterCase messages := by
  constructor
  · intro insensitive
    have own : ∀ value ∈ messages, (ownTimestamp value).isSome = true := by
      intro value sent
      by_contra noOwn
      rw [Bool.not_eq_true, isSome_eq_false_iff, isNone_iff_eq_none] at noOwn
      rcases isSome_iff_exists.mp (acceptable_iff.mp (valid value sent)) with ⟨mac, isMac⟩
      have read (now : WallClock) :
          reading letterCase now value = some (mac, (now : Time).unixMilli) := by
        simp [reading_wallClock, isMac, noOwn]
      -- the clock stands in for the time stamp, and it moves
      have same : (epoch : Time).unixMilli = (secondAfterEpoch : Time).unixMilli :=
        insensitive.timestamp_eq ⟨value, epoch⟩ ⟨value, secondAfterEpoch⟩ sent sent (read epoch)
          (read secondAfterEpoch)
      exact absurd same (by decide)
    refine ⟨own, ?_⟩
    intro value sent other otherSent sameMac
    rcases isSome_iff_exists.mp (acceptable_iff.mp (valid value sent)) with ⟨mac, isMac⟩
    rcases isSome_iff_exists.mp (own value sent) with ⟨timestamp, hasOwn⟩
    rcases isSome_iff_exists.mp (own other otherSent) with ⟨otherTimestamp, otherHasOwn⟩
    have read : reading letterCase epoch value = some (mac, (timestamp : ℤ)) := by
      simp [reading_wallClock, isMac, hasOwn]
    have otherRead : reading letterCase epoch other = some (mac, (otherTimestamp : ℤ)) := by
      simp [reading_wallClock, sameMac ▸ isMac, otherHasOwn]
    have same : (timestamp : ℤ) = otherTimestamp :=
      insensitive.timestamp_eq ⟨value, epoch⟩ ⟨other, epoch⟩ sent otherSent read otherRead
    rw [hasOwn, otherHasOwn, Int.ofNat_inj.mp same]
  · intro one first second firstDelivers secondDelivers
    refine ⟨?_, ?_⟩
    · funext mac
      apply Option.ext
      intro timestamp
      rw [served_eq_getLast, served_eq_getLast,
        getLast?_eq_some_of_equal (timestamps_equal firstDelivers one),
        getLast?_eq_some_of_equal (timestamps_equal secondDelivers one),
        mem_timestamps_iff firstDelivers one, mem_timestamps_iff secondDelivers one]
    · intro mac
      apply Option.ext
      intro timestamp
      rw [served_eq_getLast, getLast?_eq_some_of_equal (timestamps_equal firstDelivers one),
        max?_eq_some_of_equal (timestamps_equal firstDelivers one)]

def otherDeviceMessage : Bytes :=
  Utf8.encode "\x7b\"mac_hex\":\"aabbccddee00\",\"timestamp_ms\":1\x7d".toList

/-- The messages of two devices, in either order and with repetitions. -/
theorem two_devices_order_insensitive :
    OrderInsensitive .ascii {otherDeviceMessage, deviceMessage} := by
  have own : ∀ value ∈ [otherDeviceMessage, deviceMessage],
      Acceptable .ascii value ∧ (ownTimestamp value).isSome = true :=
    List.all_iff_forall_prop.mp (by decide +kernel)
  refine (order_insensitive_iff .ascii {otherDeviceMessage, deviceMessage}
    fun value sent => (own value sent).1).mpr ⟨fun value sent => (own value sent).2, ?_⟩
  have agree : ∀ value ∈ [otherDeviceMessage, deviceMessage],
      ∀ other ∈ [otherDeviceMessage, deviceMessage],
        deviceMac .ascii value = deviceMac .ascii other → ownTimestamp value = ownTimestamp other :=
    List.all_iff_forall_prop.mp (by decide +kernel)
  exact agree

/-- An earlier message that is processed last takes the later time stamp away. -/
theorem older_timestamp_wins :
    (∀ value ∈ ({earlierMessage, deviceMessage} : Multiset Bytes), Acceptable .ascii value) ∧
      served .ascii [⟨earlierMessage, epoch⟩, ⟨deviceMessage, epoch⟩]
        "aa:bb:cc:dd:ee:ff".toList = some 2 ∧
      served .ascii [⟨deviceMessage, epoch⟩, ⟨earlierMessage, epoch⟩]
        "aa:bb:cc:dd:ee:ff".toList = some 1 ∧
      ¬ OrderInsensitive .ascii {earlierMessage, deviceMessage} := by
  have accepted : ∀ value ∈ [earlierMessage, deviceMessage], Acceptable .ascii value :=
    List.all_iff_forall_prop.mp (by decide +kernel)
  refine ⟨accepted, by decide +kernel, by decide +kernel, ?_⟩
  intro insensitive
  have read : reading .ascii epoch earlierMessage = some ("aa:bb:cc:dd:ee:ff".toList, 1) := by
    decide +kernel
  have otherRead : reading .ascii epoch deviceMessage = some ("aa:bb:cc:dd:ee:ff".toList, 2) := by
    decide +kernel
  have same : (1 : ℤ) = 2 :=
    insensitive.timestamp_eq ⟨earlierMessage, epoch⟩ ⟨deviceMessage, epoch⟩ (by simp) (by simp)
      read otherRead
  cases same

end Order

end IotProxy.Business
