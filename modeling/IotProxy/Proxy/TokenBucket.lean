import IotProxy.Lib.Run
import IotProxy.Proxy.RouteManager

/-!
# The token bucket of the ingress

`try_accept_ingress_bytes` and `snapshot`, called by any threads with any clock readings. A call
fills the bucket up for the time since the greatest reading so far, so the bytes that are accepted
in a run are paid for by a full bucket and the growth of that reading (`accepted_le`).
-/

namespace IotProxy.Proxy

open List
open EventSystem (Run)

def AdmissionControl.snapshot (double : DoubleArithmetic) (config : AdmissionControlConfig)
    (admission : AdmissionControl) (nowMs wallMs : ℤ) (currentKcpLinks : ℕ) :
    AdmissionControl × NodeCapability :=
  let admission := admission.refillTokens double config nowMs
  (admission,
    { present := true
      acceptingIngress :=
        (config.maxIngressStreams = 0 ||
          admission.ingressStreams.length < config.maxIngressStreams) &&
        canAcceptKcpLink config currentKcpLinks
      maxKcpLinks := config.maxKcpLinks
      currentKcpLinks
      maxIngressStreams := config.maxIngressStreams
      currentIngressStreams := admission.ingressStreams.length
      maxIngressBytesPerSecond := config.maxIngressBytesPerSecond
      currentIngressBytesPerSecond :=
        max admission.currentSecondBytes admission.lastCompleteSecondBytes
      updatedAtMs := wallMs })

inductive BucketCall where
  | tryAcceptIngressBytes (nowMs : ℤ) (bytes : ℕ)
  | snapshot (nowMs wallMs : ℤ) (currentKcpLinks : ℕ)

/-- The admission control, with the greatest clock reading and the bytes that were accepted. -/
structure Bucket where
  admission : AdmissionControl
  latestMs : ℤ
  accepted : List (ℤ × ℕ) := []

namespace Bucket

section Model

variable (double : DoubleArithmetic) (config : AdmissionControlConfig)

def new (startMs : ℤ) : Bucket where
  admission := .new double config startMs
  latestMs := startMs

def call (bucket : Bucket) : BucketCall → Bucket
  | .tryAcceptIngressBytes nowMs bytes =>
    -- without bytes the clock is not read
    if bytes = 0 then bucket
    else
      let result := bucket.admission.tryAcceptIngressBytes double config nowMs bytes
      { admission := result.1
        latestMs := max bucket.latestMs nowMs
        accepted := if result.2 then (nowMs, bytes) :: bucket.accepted else bucket.accepted }
  | .snapshot nowMs wallMs currentKcpLinks =>
    { bucket with
      admission := (bucket.admission.snapshot double config nowMs wallMs currentKcpLinks).1
      latestMs := max bucket.latestMs nowMs }

def acceptedBytes (bucket : Bucket) : ℕ :=
  (bucket.accepted.map Prod.snd).sum

variable {double config} in
theorem call_bytes {bucket : Bucket} {nowMs : ℤ} {bytes : ℕ}
    (limited : 0 < config.maxIngressBytesPerSecond) (some : bytes ≠ 0) :
    bucket.call double config (.tryAcceptIngressBytes nowMs bytes) =
      let refilled := bucket.admission.refillTokens double config nowMs
      let latestMs := max bucket.latestMs nowMs
      if refilled.ingressByteTokens < double.round bytes then
        { bucket with admission := refilled, latestMs }
      else
        { admission := { refilled with
            ingressByteTokens := double.sub refilled.ingressByteTokens (double.round bytes)
            currentSecondBytes := refilled.currentSecondBytes + bytes }
          latestMs
          accepted := (nowMs, bytes) :: bucket.accepted } := by
  simp only [call, some, if_false, AdmissionControl.tryAcceptIngressBytes, limited.ne', or_self]
  by_cases short : (bucket.admission.refillTokens double config nowMs).ingressByteTokens <
    double.round bytes
  · simp only [if_pos short, Bool.false_eq_true, if_false]
  · simp only [if_neg short, if_true]

end Model

section Tokens

variable {config : AdmissionControlConfig} {bucket : Bucket} {nowMs : ℤ}

/-- The bucket is neither overdrawn nor overfull, and is filled up to the greatest reading. -/
structure Balanced (config : AdmissionControlConfig) (bucket : Bucket) : Prop where
  nonneg : 0 ≤ bucket.admission.ingressByteTokens
  full : bucket.admission.ingressByteTokens ≤ config.maxIngressBytesPerSecond
  filled : bucket.admission.tokenRefillMs = bucket.latestMs

/-- The bytes that can still be accepted are not more than before, but for the time that has
passed. -/
def Pays (config : AdmissionControlConfig) (before after : Bucket) : Prop :=
  after.acceptedBytes + after.admission.ingressByteTokens ≤
    before.acceptedBytes + before.admission.ingressByteTokens +
      config.maxIngressBytesPerSecond * (after.latestMs - before.latestMs) / 1000

theorem refill (limited : 0 < config.maxIngressBytesPerSecond) (balanced : bucket.Balanced config) :
    let refilled := { bucket with
      admission := bucket.admission.refillTokens .exact config nowMs
      latestMs := max bucket.latestMs nowMs }
    refilled.Balanced config ∧ bucket.Pays config refilled := by
  obtain ⟨nonneg, full, filled⟩ := balanced
  have capacity : (0 : ℚ) < config.maxIngressBytesPerSecond := by exact_mod_cast limited
  have fields : ∀ second : AdmissionControl,
      second.ingressByteTokens = bucket.admission.ingressByteTokens →
      second.tokenRefillMs = bucket.admission.tokenRefillMs →
      let elapsedMs := max 0 (nowMs - second.tokenRefillMs)
      let refilled :=
        if config.maxIngressBytesPerSecond = 0 ∨ elapsedMs = 0 then second
        else { second with
          ingressByteTokens := min (config.maxIngressBytesPerSecond : ℚ)
            (second.ingressByteTokens + config.maxIngressBytesPerSecond * elapsedMs / 1000)
          tokenRefillMs := nowMs }
      Balanced config { bucket with admission := refilled, latestMs := max bucket.latestMs nowMs } ∧
        bucket.Pays config
          { bucket with admission := refilled, latestMs := max bucket.latestMs nowMs } := by
    intro second sameTokens sameTime
    dsimp only
    split_ifs with idle
    · have latest : max bucket.latestMs nowMs = bucket.latestMs := by omega
      refine ⟨⟨by rwa [sameTokens], by rwa [sameTokens], by simp [sameTime, filled, latest]⟩, ?_⟩
      simp [Pays, acceptedBytes, sameTokens, latest]
    · have later : bucket.latestMs < nowMs := by omega
      have elapsed : max 0 (nowMs - second.tokenRefillMs) = nowMs - bucket.latestMs := by omega
      have growth : (0 : ℚ) < nowMs - bucket.latestMs := by
        exact_mod_cast sub_pos.mpr later
      have earned : (0 : ℚ) ≤
          config.maxIngressBytesPerSecond * (nowMs - bucket.latestMs) / 1000 := by positivity
      rw [elapsed, sameTokens]
      push_cast
      refine ⟨⟨?_, min_le_left _ _, by simp [later.le]⟩, ?_⟩
      · exact le_min capacity.le (by linarith)
      · simp only [Pays, acceptedBytes, max_eq_right later.le]
        have least := min_le_right (config.maxIngressBytesPerSecond : ℚ)
          (bucket.admission.ingressByteTokens +
            config.maxIngressBytesPerSecond * (nowMs - bucket.latestMs) / 1000)
        linarith
  unfold AdmissionControl.refillTokens
  simp only [DoubleArithmetic.exact, DoubleArithmetic.div, DoubleArithmetic.mul,
    DoubleArithmetic.add, id_eq]
  apply fields
  · split_ifs <;> rfl
  · split_ifs <;> rfl

theorem Balanced.call (limited : 0 < config.maxIngressBytesPerSecond)
    (balanced : bucket.Balanced config) (next : BucketCall) :
    (bucket.call .exact config next).Balanced config ∧
      bucket.Pays config (bucket.call .exact config next) := by
  cases next with
  | snapshot nowMs wallMs currentKcpLinks => exact refill limited balanced
  | tryAcceptIngressBytes nowMs bytes =>
    by_cases nothing : bytes = 0
    · simp only [Bucket.call, nothing, if_true]
      exact ⟨balanced, by simp [Pays]⟩
    · obtain ⟨refilled, pays⟩ := @refill config bucket nowMs limited balanced
      rw [call_bytes limited nothing]
      generalize bucket.admission.refillTokens .exact config nowMs = admission at refilled pays
      dsimp only
      split_ifs with short
      · exact ⟨refilled, pays⟩
      · have enough : (bytes : ℚ) ≤ admission.ingressByteTokens := not_lt.mp short
        have fewer : DoubleArithmetic.exact.sub admission.ingressByteTokens bytes =
          admission.ingressByteTokens - bytes := rfl
        refine ⟨⟨sub_nonneg.mpr enough, ?_, refilled.filled⟩, ?_⟩
        · exact (sub_le_self _ (Nat.cast_nonneg bytes)).trans refilled.full
        · simp only [Pays, acceptedBytes, map_cons, sum_cons, Nat.cast_add] at pays ⊢
          rw [show DoubleArithmetic.exact.round bytes = (bytes : ℚ) from rfl, fewer]
          linarith

theorem Balanced.calls (limited : 0 < config.maxIngressBytesPerSecond)
    (balanced : bucket.Balanced config) (calls : List BucketCall) :
    (calls.foldl (Bucket.call .exact config) bucket).Balanced config ∧
      bucket.Pays config (calls.foldl (Bucket.call .exact config) bucket) := by
  induction calls generalizing bucket with
  | nil => exact ⟨balanced, by simp [Pays]⟩
  | cons next calls ih =>
    obtain ⟨stays, paid⟩ := balanced.call limited next
    obtain ⟨final, paidLater⟩ := ih stays
    refine ⟨final, ?_⟩
    simp only [Pays, foldl_cons] at paid paidLater ⊢
    linarith

/-- After any calls the bucket is between empty and full, and what the calls of a run have accepted
is bounded by a full bucket and the growth of the greatest reading in it. -/
theorem accepted_le (limited : 0 < config.maxIngressBytesPerSecond) (startMs : ℤ)
    (earlier run : List BucketCall) :
    let before := earlier.foldl (Bucket.call .exact config) (.new .exact config startMs)
    let after := run.foldl (Bucket.call .exact config) before
    (0 ≤ after.admission.ingressByteTokens ∧
      after.admission.ingressByteTokens ≤ config.maxIngressBytesPerSecond) ∧
    (after.acceptedBytes : ℚ) - before.acceptedBytes ≤ config.maxIngressBytesPerSecond +
      config.maxIngressBytesPerSecond * (after.latestMs - before.latestMs) / 1000 := by
  intro before after
  have initial : (Bucket.new .exact config startMs).Balanced config :=
    ⟨Nat.cast_nonneg _, le_rfl, rfl⟩
  have balanced := (initial.calls limited earlier).1
  obtain ⟨final, paid⟩ := balanced.calls limited run
  refine ⟨⟨final.nonneg, final.full⟩, ?_⟩
  have full := balanced.full
  have nonneg := final.nonneg
  simp only [Pays] at paid
  linarith

/-- A full bucket is emptied, and a second later it is full again. -/
theorem bucket_refilled :
    let before : Bucket := .new .exact { maxIngressBytesPerSecond := 20 } 0
    let after := [.tryAcceptIngressBytes 0 20, .tryAcceptIngressBytes 1000 20].foldl
      (Bucket.call .exact { maxIngressBytesPerSecond := 20 }) before
    (after.acceptedBytes : ℚ) - before.acceptedBytes = 20 + 20 * (1000 - 0) / 1000 ∧
    (after.acceptedBytes : ℚ) - before.acceptedBytes ≤
      20 + 20 * (after.latestMs - before.latestMs) / 1000 := by
  refine ⟨by decide +kernel, ?_⟩
  exact (@accepted_le { maxIngressBytesPerSecond := 20 } (by decide) 0 []
    [.tryAcceptIngressBytes 0 20, .tryAcceptIngressBytes 1000 20]).2

end Tokens

section Rates

variable {double : DoubleArithmetic} {config : AdmissionControlConfig} {bucket : Bucket}
  {nowMs : ℤ}

def bytesIn (bucket : Bucket) (second : ℤ) : ℕ :=
  ((bucket.accepted.filter (·.1 / 1000 = second)).map Prod.snd).sum

/-- The clock does not go back, and after a second with bytes there is a call in the next one. -/
def Gapless (bucket : Bucket) (nowMs : ℤ) : Prop :=
  bucket.latestMs ≤ nowMs ∧ (nowMs / 1000 ≤ bucket.admission.currentSecond + 1 ∨
    bucket.admission.currentSecondBytes = 0)

def GaplessCall (bucket : Bucket) : BucketCall → Prop
  | .tryAcceptIngressBytes nowMs _ | .snapshot nowMs _ _ => bucket.Gapless nowMs

structure Rates (bucket : Bucket) : Prop where
  nonneg : 0 ≤ bucket.latestMs
  second : (bucket.admission.currentSecond : ℤ) = bucket.latestMs / 1000
  current : bucket.admission.currentSecondBytes = bucket.bytesIn bucket.admission.currentSecond
  last : bucket.admission.lastCompleteSecondBytes =
    bucket.bytesIn (bucket.admission.currentSecond - 1)
  past : ∀ entry ∈ bucket.accepted, entry.1 / 1000 ≤ bucket.admission.currentSecond

theorem bytesIn_of_past {second : ℤ} (past : ∀ entry ∈ bucket.accepted, entry.1 / 1000 < second) :
    bucket.bytesIn second = 0 := by
  have none : bucket.accepted.filter (·.1 / 1000 = second) = [] := by
    rw [filter_eq_nil_iff]
    intro entry mem
    simpa using (past entry mem).ne
  rw [bytesIn, none]
  rfl

theorem refillTokens_rates : let refilled := bucket.admission.refillTokens double config nowMs
    refilled.currentSecond = steadySecond nowMs ∧
    refilled.currentSecondBytes = (if steadySecond nowMs = bucket.admission.currentSecond then
      bucket.admission.currentSecondBytes else 0) ∧
    refilled.lastCompleteSecondBytes = (if steadySecond nowMs = bucket.admission.currentSecond then
      bucket.admission.lastCompleteSecondBytes else bucket.admission.currentSecondBytes) := by
  unfold AdmissionControl.refillTokens
  by_cases same : steadySecond nowMs = bucket.admission.currentSecond
  · simp only [same, if_true]
    split_ifs <;> exact ⟨rfl, rfl, rfl⟩
  · simp only [same, if_false]
    split_ifs <;> exact ⟨rfl, rfl, rfl⟩

theorem Rates.refill (rates : bucket.Rates) (gapless : bucket.Gapless nowMs) :
    Rates { bucket with
      admission := bucket.admission.refillTokens double config nowMs
      latestMs := max bucket.latestMs nowMs } := by
  obtain ⟨later, noGap⟩ := gapless
  obtain ⟨nonneg, second, current, last, past⟩ := rates
  obtain ⟨isSecond, isCurrent, isLast⟩ := @refillTokens_rates double config bucket nowMs
  have counted : (steadySecond nowMs : ℤ) = nowMs / 1000 := by
    unfold steadySecond
    split_ifs <;> omega
  refine ⟨?_, ?_, ?_, ?_, ?_⟩ <;> simp only [isSecond, isCurrent, isLast, max_eq_right later]
  · omega
  · exact counted
  · split_ifs with same
    · rw [current, same]
      rfl
    · refine (bytesIn_of_past ?_).symm
      intro entry mem
      have before := past entry mem
      omega
  · split_ifs with same
    · rw [last, same]
      rfl
    · by_cases next : nowMs / 1000 = bucket.admission.currentSecond + 1
      · rw [current, counted, next, add_sub_cancel_right]
        rfl
      · have empty : bucket.admission.currentSecondBytes = 0 := by omega
        refine empty.trans (bytesIn_of_past ?_).symm
        intro entry mem
        have before := past entry mem
        omega
  · intro entry mem
    have before := past entry mem
    omega

theorem Rates.call (limited : 0 < config.maxIngressBytesPerSecond) (rates : bucket.Rates)
    {next : BucketCall} (gapless : bucket.GaplessCall next) :
    (bucket.call double config next).Rates := by
  cases next with
  | snapshot nowMs wallMs currentKcpLinks => exact rates.refill gapless
  | tryAcceptIngressBytes nowMs bytes =>
    by_cases nothing : bytes = 0
    · simpa only [Bucket.call, nothing, if_true] using rates
    · have refilled := @Rates.refill double config bucket nowMs rates gapless
      rw [call_bytes limited nothing]
      generalize bucket.admission.refillTokens double config nowMs = admission at refilled
      dsimp only
      split_ifs
      · exact refilled
      · obtain ⟨nonneg, second, current, last, past⟩ := refilled
        have here : nowMs / 1000 = admission.currentSecond := by
          rw [second, max_eq_right gapless.1]
        refine ⟨nonneg, second, ?_, ?_, ?_⟩
        · simp only [bytesIn, filter_cons, here, decide_true, if_true, map_cons,
            sum_cons] at current ⊢
          omega
        · have isOther : ¬(admission.currentSecond : ℤ) = admission.currentSecond - 1 := by omega
          simpa [bytesIn, filter_cons, here, isOther] using last
        · simpa [here] using past

/-- The reported rate is the greater one of the bytes accepted in this second and in the one before,
if the calls had no gap. -/
theorem reportedRate_eq {startMs : ℤ} {calls : List BucketCall}
    (limited : 0 < config.maxIngressBytesPerSecond) (started : 0 ≤ startMs)
    (run : Run (fun bucket next => some (bucket.call double config next)) GaplessCall
      (.new double config startMs) calls bucket)
    (wallMs : ℤ) (currentKcpLinks : ℕ) (gapless : bucket.Gapless nowMs) :
    (bucket.admission.snapshot double config nowMs wallMs
        currentKcpLinks).2.currentIngressBytesPerSecond =
      max (bucket.bytesIn (nowMs / 1000)) (bucket.bytesIn (nowMs / 1000 - 1)) := by
  have rates : bucket.Rates := by
    apply run.invariant
    · refine ⟨started, ?_, rfl, rfl, by simp [new]⟩
      simp only [new, AdmissionControl.new, steadySecond]
      split_ifs <;> omega
    · intro before after next meets taken rates
      cases taken
      exact rates.call limited meets
  obtain ⟨-, second, current, last, -⟩ := @Rates.refill double config bucket nowMs rates gapless
  simp only [AdmissionControl.snapshot]
  simp only [max_eq_right gapless.1] at second
  rw [current, last, second]
  rfl

instance (bucket : Bucket) : (next : BucketCall) → Decidable (bucket.GaplessCall next)
  | .tryAcceptIngressBytes _ _ | .snapshot _ _ _ => inferInstanceAs (Decidable (_ ∧ (_ ∨ _)))

/-- Bytes in one second, and a snapshot in the next one. -/
theorem rate_of_last_second : ∃ bucket : Bucket,
    Run (fun bucket next => some (bucket.call .exact { maxIngressBytesPerSecond := 20 } next))
      GaplessCall (.new .exact { maxIngressBytesPerSecond := 20 } 500)
      [.tryAcceptIngressBytes 600 7] bucket ∧
    (bucket.admission.snapshot .exact { maxIngressBytesPerSecond := 20 } 1500 0
        0).2.currentIngressBytesPerSecond =
      max (bucket.bytesIn (1500 / 1000)) (bucket.bytesIn (1500 / 1000 - 1)) := by
  apply Run.exists_of_execute fun bucket =>
    decide (bucket.latestMs ≤ 1500 ∧ bucket.admission.currentSecond = 0)
  · decide +kernel
  · intro bucket run facts
    rw [decide_eq_true_eq] at facts
    exact reportedRate_eq (by decide) (by decide) run 0 0 ⟨facts.1, by simp [facts.2]⟩

/-- Five seconds without a call, and the rate of the old second is reported. -/
theorem stale_rate_reported :
    let bucket := (Bucket.new .exact { maxIngressBytesPerSecond := 20 } 500).call .exact
      { maxIngressBytesPerSecond := 20 } (.tryAcceptIngressBytes 600 7)
    (bucket.admission.snapshot .exact { maxIngressBytesPerSecond := 20 } 5500 0
        0).2.currentIngressBytesPerSecond = 7 ∧
      bucket.bytesIn (5500 / 1000) = 0 ∧ bucket.bytesIn (5500 / 1000 - 1) = 0 := by
  decide +kernel

end Rates

end Bucket

end IotProxy.Proxy
