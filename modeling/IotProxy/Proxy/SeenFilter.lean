import IotProxy.Proxy.Gossip

/-!
# The filter of the broadcasts that a node has seen

`mark_broadcast_seen` as a bounded table of keys with a time of expiry. A full table drops whatever
entry its iteration starts with, so a key is recognised only while no call has to drop an entry
(`recognised`).
-/

namespace IotProxy.Proxy.KcpTunnel

open List
open EventSystem (Run)

structure SeenCall where
  answers : TunnelAnswers
  key : Bytes

section Calls

variable (config : KcpTunnelConfig) (tunnel : KcpTunnel)

def present (call : SeenCall) : Option KcpTunnel :=
  some (tunnel.markBroadcastSeen config call.answers call.key).1

def unexpired (nowMs : ℤ) : List (Bytes × ℤ) :=
  tunnel.seenBroadcasts.filter fun entry => nowMs < entry.2

/-- The call does not have to drop an entry: it finds its key or room for it. -/
def Fits (call : SeenCall) : Prop :=
  (tunnel.unexpired call.answers.nowMs).any (·.1 == call.key) = true ∨
    (tunnel.unexpired call.answers.nowMs).length < config.maxSeenBroadcasts

def expiresAt (nowMs : ℤ) : ℤ :=
  if (config.seenBroadcastSeconds * 1000 : ℤ) ≤ 0 then 2 ^ 63 - 1
  else nowMs + config.seenBroadcastSeconds * 1000

end Calls

section Memory

variable {config : KcpTunnelConfig} {tunnel : KcpTunnel} {answers : TunnelAnswers} {key : Bytes}

theorem seenBroadcasts_markBroadcastSeen (notEmpty : key ≠ [])
    (limited : config.maxSeenBroadcasts ≠ 0) :
    (tunnel.markBroadcastSeen config answers key).1.seenBroadcasts =
      if (tunnel.unexpired answers.nowMs).any (·.1 == key) = true then
        (tunnel.unexpired answers.nowMs).map fun entry =>
          if entry.1 == key then (key, expiresAt config answers.nowMs) else entry
      else (key, expiresAt config answers.nowMs) ::
        makeRoom config.maxSeenBroadcasts answers.firstEntry
          (tunnel.unexpired answers.nowMs).length (tunnel.unexpired answers.nowMs) := by
  unfold unexpired expiresAt
  rw [markBroadcastSeen, if_neg (by simp [notEmpty, limited])]
  dsimp only
  generalize (if (config.seenBroadcastSeconds * 1000 : ℤ) ≤ 0 then _ else _) = expiry
  split_ifs <;> rfl

theorem mem_after_mark (notEmpty : key ≠ []) (limited : config.maxSeenBroadcasts ≠ 0) :
    (key, expiresAt config answers.nowMs) ∈
      (tunnel.markBroadcastSeen config answers key).1.seenBroadcasts := by
  rw [seenBroadcasts_markBroadcastSeen notEmpty limited]
  split_ifs with known
  · obtain ⟨entry, mem, isKey⟩ := any_eq_true.mp known
    exact mem_map.mpr ⟨entry, mem, by rw [if_pos isKey]⟩
  · exact mem_cons_self

theorem mem_after_other {other : SeenCall} {expiry : ℤ} (different : other.key ≠ key)
    (fits : tunnel.Fits config other) (early : other.answers.nowMs < expiry)
    (mem : (key, expiry) ∈ tunnel.seenBroadcasts) :
    (key, expiry) ∈ (tunnel.markBroadcastSeen config other.answers other.key).1.seenBroadcasts := by
  by_cases ignored : other.key = [] ∨ config.maxSeenBroadcasts = 0
  · rw [markBroadcastSeen, if_pos (by simpa using ignored)]
    exact mem
  rw [not_or] at ignored
  have found : (key, expiry) ∈ tunnel.unexpired other.answers.nowMs :=
    mem_filter.mpr ⟨mem, decide_eq_true early⟩
  rw [seenBroadcasts_markBroadcastSeen ignored.1 ignored.2]
  split_ifs with known
  · exact mem_map.mpr ⟨_, found, if_neg (by simpa using different.symm)⟩
  · rw [makeRoom_of_lt (fits.resolve_left known)]
    exact mem_cons_of_mem _ found

/-- A key that comes again before it expires is a repetition, if no call in between had to drop an
entry. -/
theorem recognised {calls : List SeenCall} {later : KcpTunnel} {again : TunnelAnswers}
    (notEmpty : key ≠ []) (limited : 1 ≤ config.maxSeenBroadcasts)
    (run : Run (present config) (Fits config) (tunnel.markBroadcastSeen config answers key).1 calls
      later)
    (others : ∀ call ∈ calls, call.key ≠ key)
    (ordered : ∀ call ∈ calls, call.answers.nowMs ≤ again.nowMs)
    (early : again.nowMs < expiresAt config answers.nowMs) :
    (later.markBroadcastSeen config again key).2 = false := by
  have switchedOn : config.maxSeenBroadcasts ≠ 0 := by omega
  have remembered : (key, expiresAt config answers.nowMs) ∈ later.seenBroadcasts := by
    induction run with
    | nil => exact mem_after_mark notEmpty switchedOn
    | @snoc earlier before after call _ fits taken ih =>
      have isCall : call ∈ earlier ++ [call] := by simp
      obtain rfl := Option.some.inj taken
      have mem := ih (fun call mem => others call (mem_append_left _ mem))
        (fun call mem => ordered call (mem_append_left _ mem))
      exact mem_after_other (others call isCall) fits (lt_of_le_of_lt (ordered call isCall) early)
        mem
  rw [← Bool.not_eq_true, isNew_iff_forgotten notEmpty]
  rintro (off | expired)
  · exact switchedOn off
  · exact absurd early (not_lt.mpr (expired _ remembered rfl))

theorem length_makeRoom_lt {limit rounds : ℕ} {first : List (Bytes × ℤ) → ℕ}
    {seen : List (Bytes × ℤ)} (limited : limit ≠ 0) (enough : seen.length ≤ rounds) :
    (makeRoom limit first rounds seen).length < limit := by
  induction rounds generalizing seen with
  | zero => grind [makeRoom]
  | succ rounds ih =>
    rw [makeRoom]
    split_ifs with full
    · have inside := Nat.mod_lt (first seen) (length_pos_iff.mpr full.2)
      exact ih (by grind)
    · grind

theorem length_seenBroadcasts_mark
    (few : tunnel.seenBroadcasts.length ≤ config.maxSeenBroadcasts) :
    (tunnel.markBroadcastSeen config answers key).1.seenBroadcasts.length ≤
      config.maxSeenBroadcasts := by
  by_cases ignored : key = [] ∨ config.maxSeenBroadcasts = 0
  · rw [markBroadcastSeen, if_pos (by simpa using ignored)]
    exact few
  rw [not_or] at ignored
  rw [seenBroadcasts_markBroadcastSeen ignored.1 ignored.2]
  split_ifs
  · exact (length_map _).trans_le ((length_filter_le ..).trans few)
  · exact length_makeRoom_lt ignored.2 le_rfl

/-- Whatever keys come, the filter has at most as many entries as it may have. -/
theorem length_seenBroadcasts_le (calls : List SeenCall) :
    (calls.foldl (fun tunnel call => (markBroadcastSeen config tunnel call.answers call.key).1)
      {}).seenBroadcasts.length ≤ config.maxSeenBroadcasts := by
  induction calls using List.reverseRecOn with
  | nil => exact Nat.zero_le _
  | append_singleton calls call few =>
    rw [foldl_append]
    exact length_seenBroadcasts_mark few

def twoEntries : KcpTunnelConfig where
  identity := .ofUint32 1
  peer := { endpoint := { host := [], port := 0 }, id := .ofUint32 2 }
  maxSeenBroadcasts := 2
  seenBroadcastSeconds := 10

def answersAt (nowMs : ℤ) : TunnelAnswers where
  nowMs
  random := none
  accepts := fun _ => true
  firstEntry := fun _ => 0

/-- One key comes between the two. -/
theorem recognised_once :
    let first := (markBroadcastSeen twoEntries {} (answersAt 1000) [1]).1
    let second := (markBroadcastSeen twoEntries first (answersAt 2000) [2]).1
    (markBroadcastSeen twoEntries second (answersAt 3000) [1]).2 = false :=
  @recognised twoEntries {} (answersAt 1000) [1] [⟨answersAt 2000, [2]⟩] _ (answersAt 3000)
    (by decide) (by decide) (.single (.inr (by decide)) rfl) (by simp) (by simp [answersAt])
    (by decide)

/-- A table of two entries: of the keys 1, 2 and 3 the third one drops the second one, though it is
the only other key since. -/
theorem recent_key_dropped :
    let first := (markBroadcastSeen twoEntries {} (answersAt 1000) [1]).1
    let second := (markBroadcastSeen twoEntries first (answersAt 2000) [2]).1
    let third := (markBroadcastSeen twoEntries second (answersAt 3000) [3]).1
    3500 < expiresAt twoEntries 2000 ∧
      (markBroadcastSeen twoEntries third (answersAt 3500) [2]).2 = true := by
  decide +kernel

end Memory

end IotProxy.Proxy.KcpTunnel
