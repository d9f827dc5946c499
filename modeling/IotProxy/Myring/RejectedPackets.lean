import IotProxy.Myring.KcpTimers

/-!
# Rejected packets

A packet is given to its session, which is looked up by the address of the sender and the first 32
bytes. A session that does not exist is created before the packet is checked, and stays when the
packet is rejected. Only the collection of idle sessions takes it away, which may be switched off.
-/

namespace IotProxy.Myring

open Proxy

namespace KcpManager

variable {manager : KcpManager} {peer : SockAddr} {data : Bytes} {answers : SessionAnswers}

def sessionKeys (manager : KcpManager) : Set KcpSessionKey :=
  {key | (manager.sessions key).isSome = true}

def packetKey (peer : SockAddr) (data : Bytes) : KcpSessionKey where
  addr := peer
  conv := .ofBytes data

/-- The packet has a name for which there is no session yet, and a session can be made for it. -/
structure Creates (manager : KcpManager) (peer : SockAddr) (data : Bytes)
    (answers : SessionAnswers) : Prop where
  named : 32 ≤ data.length
  missing : manager.sessions (packetKey peer data) = none
  valid : (packetKey peer data).valid = true
  created : answers.created = true

theorem mem_sessionKeys_update_iff (key other : KcpSessionKey) (entry : SessionEntry) :
    other ∈ sessionKeys { manager with
        sessions := Function.update manager.sessions key (some entry) } ↔
      other ∈ manager.sessionKeys ∨ other = key := by
  by_cases same : other = key
  · simp [sessionKeys, same]
  · simp [sessionKeys, same]

theorem mem_sessionKeys_useSession_iff (rejected : answers.accepted = false)
    (key other : KcpSessionKey) :
    other ∈ (manager.useSession key answers).sessionKeys ↔ other ∈ manager.sessionKeys ∨
      (manager.sessions key = none ∧ key.valid = true ∧ answers.created = true) ∧ other = key := by
  unfold useSession findOrCreateSessionEntry
  cases found : manager.sessions key with
  | some entry =>
    simp only [rejected, Bool.false_eq_true, if_false, mem_sessionKeys_update_iff]
    have present : key ∈ manager.sessionKeys := by
      simp [sessionKeys, found]
    constructor
    · rintro (mem | rfl)
      · exact .inl mem
      · exact .inl present
    · rintro (mem | ⟨⟨missing, -⟩, -⟩)
      · exact .inl mem
      · cases missing
  | none =>
    by_cases creates : (key.valid && answers.created) = true
    · simp [creates, rejected, mem_sessionKeys_update_iff, ← Bool.and_eq_true]
    · rw [if_neg creates]
      rw [Bool.and_eq_true] at creates
      simp [creates]

theorem mem_sessionKeys_handleUdpPacket_iff (rejected : answers.accepted = false)
    (key : KcpSessionKey) :
    key ∈ (manager.handleUdpPacket peer data answers).sessionKeys ↔
      key ∈ manager.sessionKeys ∨ manager.Creates peer data answers ∧ key = packetKey peer data := by
  rw [handleUdpPacket]
  split_ifs with short
  · have notCreates : ¬ manager.Creates peer data answers := fun creates =>
      absurd creates.named (by omega)
    simp [notCreates]
  · have isCreation : manager.Creates peer data answers ↔
        manager.sessions (packetKey peer data) = none ∧ (packetKey peer data).valid = true ∧
          answers.created = true :=
      ⟨fun creates => ⟨creates.missing, creates.valid, creates.created⟩,
        fun ⟨missing, valid, created⟩ => ⟨by omega, missing, valid, created⟩⟩
    rw [isCreation]
    exact mem_sessionKeys_useSession_iff rejected _ key

/-- A rejected packet leaves the set of sessions as it is if and only if none was made for it. -/
theorem rejected_packet_keeps_sessions_iff (rejected : answers.accepted = false) :
    (manager.handleUdpPacket peer data answers).sessionKeys = manager.sessionKeys ↔
      ¬ manager.Creates peer data answers := by
  rw [Set.ext_iff]
  simp only [mem_sessionKeys_handleUdpPacket_iff rejected]
  constructor
  · intro same creates
    have present := (same (packetKey peer data)).mp (.inr ⟨creates, rfl⟩)
    rw [sessionKeys, Set.mem_ofPred_eq, creates.missing] at present
    cases present
  · intro notCreates key
    simp [notCreates]

def stranger : SockAddr where
  addr := [192, 0, 2, 1]
  port := 40000

def rejecting : SessionAnswers where
  createdAt := earlyTime (.last 999)
  now := earlyTime (.last 999)
  accepted := false
  dueKcpMs := 0
  clock := earlyTime (.last 999)

/-- The manager after a first packet of the stranger, which its session has taken. -/
def acquainted : KcpManager :=
  ({} : KcpManager).handleUdpPacket stranger (List.replicate 33 7) { rejecting with accepted := true }

/-- Thirty-two bytes that are no packet, with the name of a session. -/
theorem named_packet_keeps_sessions :
    packetKey stranger (List.replicate 32 7) ∈ acquainted.sessionKeys ∧
    (acquainted.handleUdpPacket stranger (List.replicate 32 7) rejecting).sessionKeys =
      acquainted.sessionKeys := by
  have present : (acquainted.sessions (packetKey stranger (List.replicate 32 7))).isSome = true := by
    decide +kernel
  refine ⟨present, (rejected_packet_keeps_sessions_iff rfl).mpr fun creates => ?_⟩
  rw [creates.missing] at present
  cases present

/-- Thirty-two bytes that are no packet leave a session. -/
theorem rejected_packet_leaves_session :
    packetKey stranger (List.replicate 32 7) ∉ ({} : KcpManager).sessionKeys ∧
    packetKey stranger (List.replicate 32 7) ∈
      (({} : KcpManager).handleUdpPacket stranger (List.replicate 32 7) rejecting).sessionKeys := by
  constructor
  · simp [sessionKeys]
  · refine (mem_sessionKeys_handleUdpPacket_iff rfl _).mpr (.inr ⟨⟨by decide, rfl, ?_, rfl⟩, rfl⟩)
    decide

end KcpManager

end IotProxy.Myring
