import IotProxy.Storage.Message

/-!
# The columns of a record

The rows of a batch are written as columns, the times as signed numbers of microseconds. The reader
accepts every time stamp below 2⁶³ milliseconds; in microseconds only a thousandth of them fits.
-/

namespace IotProxy.Storage

/-- Microseconds since the epoch, in `int64` arithmetic. -/
def Time.unixMicro (time : Time) : ℤ :=
  Text.wrapInt64 (time.unixSec * 1000000 + time.nsec / 1000)

/-- The columns of `DeviceMessageSchema`. -/
structure DeviceColumns where
  macAddr : List Text
  timestampMS : List ℤ
  eventTime : List ℤ
  payload : List Bytes
  createdAt : List ℤ
deriving DecidableEq

def deviceMessagesToRecord (rows : List DeviceMessage) : DeviceColumns where
  macAddr := rows.map fun row => row.macAddr
  timestampMS := rows.map fun row => row.timestampMS
  eventTime := rows.map fun row => row.eventTime.unixMicro
  payload := rows.map fun row => row.payload
  createdAt := rows.map fun row => row.createdAt.unixMicro

variable {letterCase : Text.LetterCase} {now createdAt : Time} {value : Bytes} {row : DeviceMessage}

theorem times_of_parseDeviceMessage
    (accepted : parseDeviceMessage letterCase now value createdAt = .ok row) :
    0 ≤ row.timestampMS ∧ row.timestampMS < 2 ^ 63 ∧
      row.eventTime = Time.ofUnixMilli row.timestampMS := by
  unfold parseDeviceMessage at accepted
  split at accepted
  · cases accepted
  · simp only at accepted
    split_ifs at accepted with schema overflow mac
    split at accepted
    · cases accepted
    · split at accepted
      · cases accepted
      · cases accepted
        refine ⟨Int.natCast_nonneg _, ?_, rfl⟩
        dsimp only
        omega

/-- The largest number of milliseconds whose microseconds are a signed number of 64 bits. -/
def maxExactMilli : ℤ :=
  9223372036854775

theorem unixMicro_ofUnixMilli_iff {milliseconds : ℤ} (positive : 0 ≤ milliseconds)
    (fits : milliseconds < 2 ^ 63) :
    (Time.ofUnixMilli milliseconds).unixMicro = 1000 * milliseconds ↔
      milliseconds ≤ maxExactMilli := by
  have exact : milliseconds / 1000 * 1000000 +
      (((milliseconds % 1000).toNat * 1000000 : ℕ) : ℤ) / 1000 = 1000 * milliseconds := by
    omega
  simp only [Time.unixMicro, Time.ofUnixMilli, exact, Text.wrapInt64, maxExactMilli]
  omega

/-- In the columns of any batch, the event time of an accepted message is its time stamp if and only
if its microseconds fit. -/
theorem eventTime_column_iff
    (accepted : parseDeviceMessage letterCase now value createdAt = .ok row)
    {rows : List DeviceMessage} {index : ℕ} (written : rows[index]? = some row) :
    ∃ eventTime timestampMS,
      (deviceMessagesToRecord rows).eventTime[index]? = some eventTime ∧
      (deviceMessagesToRecord rows).timestampMS[index]? = some timestampMS ∧
      (eventTime = 1000 * timestampMS ↔ timestampMS ≤ maxExactMilli) := by
  rcases times_of_parseDeviceMessage accepted with ⟨positive, fits, isEventTime⟩
  refine ⟨row.eventTime.unixMicro, row.timestampMS, ?_, ?_, ?_⟩
  · simp [deviceMessagesToRecord, written]
  · simp [deviceMessagesToRecord, written]
  · rw [isEventTime]
    exact unixMicro_ofUnixMilli_iff positive fits

def stampedEnvelope (digits : String) : Bytes :=
  Text.toBytes ("\x7b\"mac_hex\":\"aabbccddeeff\",\"timestamp_ms\":".toList ++ digits.toList ++
    "\x7d".toList)

def stampedRow (timestampMS : ℤ) (eventTime : Time) : DeviceMessage where
  macAddr := "aa:bb:cc:dd:ee:ff".toList
  timestampMS := timestampMS
  eventTime := eventTime
  payload := []
  createdAt := ⟨1700000000, 0⟩

def lastExactRow : DeviceMessage :=
  stampedRow 9223372036854775 ⟨9223372036854, 775000000⟩

/-- The largest time stamp whose microseconds fit into 64 bits. -/
theorem eventTime_of_last_exact :
    ∃ eventTime timestampMS,
      (deviceMessagesToRecord [lastExactRow]).eventTime[0]? = some eventTime ∧
      (deviceMessagesToRecord [lastExactRow]).timestampMS[0]? = some timestampMS ∧
      eventTime = 1000 * timestampMS := by
  have accepted : parseDeviceMessage .ascii ⟨1700000000, 0⟩ (stampedEnvelope "9223372036854775")
      ⟨1700000000, 0⟩ = .ok lastExactRow := by
    decide +kernel
  rcases eventTime_column_iff accepted (show [lastExactRow][0]? = some lastExactRow from rfl) with
    ⟨eventTime, timestampMS, isEventTime, isTimestamp, same⟩
  cases isTimestamp
  exact ⟨eventTime, _, isEventTime, rfl, same.mpr (by decide)⟩

/-- The next time stamp is accepted as well, and its event time is negative. -/
theorem eventTime_wraps :
    parseDeviceMessage .ascii ⟨1700000000, 0⟩ (stampedEnvelope "9223372036854776")
      ⟨1700000000, 0⟩ = .ok (stampedRow 9223372036854776 ⟨9223372036854, 776000000⟩) ∧
    (deviceMessagesToRecord
      [stampedRow 9223372036854776 ⟨9223372036854, 776000000⟩]).eventTime[0]? =
        some (-9223372036854775616) := by
  decide +kernel

end IotProxy.Storage
