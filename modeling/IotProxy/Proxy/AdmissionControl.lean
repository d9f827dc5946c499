import IotProxy.Proxy.Address

/-!
# Admission control

Limits on what a node takes in: the number of ingress streams, the bytes per second, in a token
bucket, and the number of KCP links. A limit of zero stands for no limit.

The bucket is a `double` in the code. The model computes with rational numbers and an open rounding
function for the result of every operation (`DoubleArithmetic`).
-/

namespace IotProxy.Proxy

/-- How operations on doubles are rounded, and what `std::pow` returns. -/
structure DoubleArithmetic where
  round : ℚ → ℚ
  pow : ℚ → ℕ → ℚ

namespace DoubleArithmetic

variable (double : DoubleArithmetic)

def mul (left right : ℚ) : ℚ :=
  double.round (left * right)

def div (left right : ℚ) : ℚ :=
  double.round (left / right)

def add (left right : ℚ) : ℚ :=
  double.round (left + right)

def sub (left right : ℚ) : ℚ :=
  double.round (left - right)

def exact : DoubleArithmetic where
  round := id
  pow base exponent := base ^ exponent

end DoubleArithmetic

structure AdmissionControlConfig where
  maxIngressStreams : ℕ := 4096
  maxIngressBytesPerSecond : ℕ := 0
  maxKcpLinks : ℕ := 512

structure AdmissionControl where
  ingressStreams : List ℕ := []
  ingressByteTokens : ℚ
  tokenRefillMs : ℤ
  currentSecond : ℕ
  currentSecondBytes : ℕ := 0
  lastCompleteSecondBytes : ℕ := 0

def steadySecond (ms : ℤ) : ℕ :=
  if ms ≤ 0 then 0 else (ms / 1000).toNat

namespace AdmissionControl

variable (double : DoubleArithmetic) (config : AdmissionControlConfig)

def new (nowMs : ℤ) : AdmissionControl where
  ingressByteTokens := double.round config.maxIngressBytesPerSecond
  tokenRefillMs := nowMs
  currentSecond := steadySecond nowMs

def tryAcceptIngressStream (admission : AdmissionControl) (streamId : ℕ) :
    AdmissionControl × Bool :=
  if streamId = 0 then (admission, false)
  else if streamId ∈ admission.ingressStreams then (admission, true)
  else if config.maxIngressStreams ≠ 0 ∧
      config.maxIngressStreams ≤ admission.ingressStreams.length then (admission, false)
  else ({ admission with ingressStreams := streamId :: admission.ingressStreams }, true)

def releaseIngressStream (admission : AdmissionControl) (streamId : ℕ) : AdmissionControl :=
  if streamId = 0 then admission
  else { admission with ingressStreams := admission.ingressStreams.filter (· ≠ streamId) }

def refillTokens (admission : AdmissionControl) (nowMs : ℤ) : AdmissionControl :=
  let second := steadySecond nowMs
  let admission :=
    if second = admission.currentSecond then admission
    else { admission with
      lastCompleteSecondBytes := admission.currentSecondBytes
      currentSecondBytes := 0
      currentSecond := second }
  let elapsedMs := max 0 (nowMs - admission.tokenRefillMs)
  if config.maxIngressBytesPerSecond = 0 ∨ elapsedMs = 0 then admission
  else
    let capacity := double.round config.maxIngressBytesPerSecond
    let refill := double.div (double.mul capacity (double.round elapsedMs)) 1000
    { admission with
      ingressByteTokens := min capacity (double.add admission.ingressByteTokens refill)
      tokenRefillMs := nowMs }

/-- Take bytes from the token bucket, which is filled first. -/
def tryAcceptIngressBytes (admission : AdmissionControl) (nowMs : ℤ) (bytes : ℕ) :
    AdmissionControl × Bool :=
  if bytes = 0 ∨ config.maxIngressBytesPerSecond = 0 then (admission, true)
  else
    let admission := admission.refillTokens double config nowMs
    let needed := double.round bytes
    if admission.ingressByteTokens < needed then (admission, false)
    else
      ({ admission with
          ingressByteTokens := double.sub admission.ingressByteTokens needed
          currentSecondBytes := admission.currentSecondBytes + bytes }, true)

def canAcceptKcpLink (currentKcpLinks : ℕ) : Bool :=
  config.maxKcpLinks = 0 || currentKcpLinks < config.maxKcpLinks

end AdmissionControl

end IotProxy.Proxy
