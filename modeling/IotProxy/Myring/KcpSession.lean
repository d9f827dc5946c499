import IotProxy.Lib.Encoding

/-!
# The messages of a KCP session

A session gives application data to the KCP library. The library cuts a message into fragments, as
large as the transmission unit allows, and refuses a message of as many fragments as its window
holds. `send_app_data` reports that with a negative number.
-/

namespace IotProxy.Myring

structure KcpSessionConfig where
  mtu : ℤ := 1400

def ikcpOverhead : ℕ := 52

def ikcpWndRcv : ℕ := 128

def ikcpMtuDef : ℕ := 1400

/-- The size of a full fragment. `ikcp_setmtu` does not take a unit that is too small for a header,
and the default one stays. -/
def KcpSessionConfig.mss (config : KcpSessionConfig) : ℕ :=
  (if config.mtu < ikcpOverhead then ikcpMtuDef else config.mtu.toNat) - ikcpOverhead

def fragmentCount (mss length : ℕ) : ℕ :=
  if length ≤ mss then 1 else (length + mss - 1) / mss

def ikcpSend (mss length : ℕ) : ℤ :=
  if ikcpWndRcv ≤ fragmentCount mss length then -2 else length

def sendAppData (config : KcpSessionConfig) (data : Bytes) : ℤ :=
  if data.isEmpty || data.length > 2 ^ 31 - 1 then -1 else ikcpSend config.mss data.length

def SessionTakes (config : KcpSessionConfig) (data : Bytes) : Prop :=
  0 ≤ sendAppData config data

instance (config : KcpSessionConfig) (data : Bytes) : Decidable (SessionTakes config data) :=
  inferInstanceAs (Decidable (0 ≤ sendAppData config data))

theorem ikcpWndRcv_le_fragmentCount_iff {mss length : ℕ} (positive : 0 < mss) :
    ikcpWndRcv ≤ fragmentCount mss length ↔ (ikcpWndRcv - 1) * mss < length := by
  unfold fragmentCount ikcpWndRcv
  split
  · omega
  · rw [Nat.le_div_iff_mul_le positive]
    omega

def maxMessageSize : ℕ :=
  (ikcpWndRcv - 1) * ({} : KcpSessionConfig).mss

theorem sessionTakes_iff {data : Bytes} (hasData : data ≠ []) :
    SessionTakes {} data ↔ data.length ≤ maxMessageSize := by
  have size : ({} : KcpSessionConfig).mss = 1348 := rfl
  have refused := @ikcpWndRcv_le_fragmentCount_iff ({} : KcpSessionConfig).mss data.length
    (by decide)
  unfold SessionTakes sendAppData ikcpSend maxMessageSize
  simp only [size, ikcpWndRcv] at refused ⊢
  split
  · next outOfRange =>
      simp only [Bool.or_eq_true, List.isEmpty_iff, hasData, false_or, decide_eq_true_eq]
        at outOfRange
      omega
  · split
    · omega
    · omega

end IotProxy.Myring
