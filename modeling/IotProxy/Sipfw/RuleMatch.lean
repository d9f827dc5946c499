import IotProxy.Lib.Encoding
import IotProxy.Sipfw.RuleRefinement

/-!
# Matching packets

`SIPFW_IsMatch` looks for the first rule of a chain's snapshot that a packet meets. Zero fields of a
rule are wildcards in `SIPFW_IsIPMatch` and for the ports, but the stage that compares ports, flags
and types knows four protocols only.

Packets are their bytes from the network header on.
-/

namespace IotProxy.Sipfw

/-- The names of the devices of `struct nf_hook_state`. -/
structure HookState where
  input : Option Bytes
  output : Option Bytes

section Fields

variable (packet : Bytes)

def byteAt (offset : ℕ) : UInt8 :=
  packet.getD offset 0

def port (offset : ℕ) : UInt16 :=
  (byteAt packet offset).toUInt16 * 256 + (byteAt packet (offset + 1)).toUInt16

def address (offset : ℕ) : UInt32 :=
  (port packet offset).toUInt32 * 65536 + (port packet (offset + 2)).toUInt32

def ihl : ℕ := (byteAt packet 0).toNat % 16

def protocol : UInt8 := byteAt packet 9

def saddr : UInt32 := address packet 12

def daddr : UInt32 := address packet 16

/-- The length of the transport header that `SIPFW_EnsurePacketData` asks for. -/
def transportLength : UInt8 → ℕ
  | 6 => 20
  | 17 | 1 | 2 => 8
  | _ => 0

def ensurePacketData (ipLength : ℕ) : Bool :=
  ipLength + transportLength (protocol packet) ≤ packet.length

end Fields

section Stages

/-- The text that `strncmp` compares in a field of eight bytes. -/
def fieldText (text : Bytes) : Bytes :=
  (text.take 8).takeWhile (· ≠ 0)

variable (rule : Rule) (packet : Bytes)

def isIfnameMatch (state : Option HookState) : Bool :=
  let name := fieldText rule.ifname.toList
  let isName (device : Option Bytes) : Bool := device.any (fieldText · = name)
  if name = [] then true
  else
    match state with
    | none => false
    | some state =>
      if rule.chain = 0 then isName state.input
      else if rule.chain = 1 then isName state.output
      else if rule.chain = 2 then isName state.input || isName state.output
      else false

def isIPMatch : Bool :=
  (daddr packet = rule.dest || rule.dest = 0) && (saddr packet = rule.source || rule.source = 0) &&
    (protocol packet = rule.protocol || rule.protocol = 0)

/-- `addtion.valid` of the union, which the other members overlap. -/
def Rule.addtionValid : Bool :=
  rule.addtion ≠ #v[0, 0, 0, 0]

def portsMatch (data : ℕ) : Bool :=
  (port packet data = rule.sport || rule.sport = 0) &&
    (port packet (data + 2) = rule.dport || rule.dport = 0)

/-- The flags `ack`, `fin`, `syn` and `rst` of a byte of TCP flags. -/
def tcpFlags (byte : UInt8) : List Bool :=
  [4, 0, 1, 2].map byte.toNat.testBit

/-- The type and the code of the ICMP and IGMP branches. -/
def typeMatches (data : ℕ) : Bool :=
  !rule.addtionValid ||
    rule.addtion[1] = byteAt packet data && rule.addtion[2] = byteAt packet (data + 1)

/-- `SIPFW_IsAddtionMatch`, for the transport header at an offset. -/
def isAddtionMatch (data : ℕ) : Bool :=
  if ihl packet < 5 then false
  else
    match protocol packet with
    | 6 => portsMatch rule packet data &&
        (!rule.addtionValid || tcpFlags rule.addtion[1] = tcpFlags (byteAt packet (data + 13)))
    | 17 => portsMatch rule packet data
    | 1 | 2 => typeMatches rule packet data
    | _ => false

end Stages

section Match

variable (packet : Bytes) (state : Option HookState)

/-- Whether a packet meets a rule in every respect. -/
def meets (rule : Rule) : Bool :=
  isIfnameMatch rule state && isIPMatch rule packet && isAddtionMatch rule packet (ihl packet * 4)

/-- `SIPFW_IsMatch`: the rule that a packet meets. -/
def isMatch (snapshot : Option RuleSnapshot) : Option Rule :=
  if packet.length < 20 ∨ ihl packet < 5 then none
  else if !ensurePacketData packet (ihl packet * 4) then none
  else
    match snapshot with
    | none => none
    | some snapshot => (snapshot.rules.take snapshot.count).find? (meets packet state)

/-- A header with all of its options. -/
structure ValidHeader : Prop where
  fixed : 20 ≤ packet.length
  length : 5 ≤ ihl packet
  whole : ihl packet * 4 ≤ packet.length

/-- A rule that restricts the addresses and the device at most, and not those of the packet. -/
structure Wildcard (rule : Rule) : Prop where
  anyProtocol : rule.protocol = 0
  anySport : rule.sport = 0
  anyDport : rule.dport = 0
  noAddtion : rule.addtionValid = false
  source : rule.source = 0 ∨ rule.source = saddr packet
  dest : rule.dest = 0 ∨ rule.dest = daddr packet
  ifname : isIfnameMatch rule state = true

/-- The packet has a whole transport header of one of the four protocols. -/
def HasTransport : Prop :=
  protocol packet ∈ [6, 17, 1, 2] ∧
    ihl packet * 4 + transportLength (protocol packet) ≤ packet.length

instance : Decidable (HasTransport packet) :=
  inferInstanceAs (Decidable (_ ∧ _))

end Match

variable {packet : Bytes} {state : Option HookState} {rule : Rule}

theorem Wildcard.meetsAddresses (wild : Wildcard packet state rule) :
    isIPMatch rule packet = true := by
  rw [isIPMatch, wild.anyProtocol]
  simp only [Bool.and_eq_true, Bool.or_eq_true, decide_eq_true_eq, or_true, and_true]
  constructor
  · exact wild.dest.elim .inr fun same => .inl same.symm
  · exact wild.source.elim .inr fun same => .inl same.symm

theorem Wildcard.isAddtionMatch_iff (wild : Wildcard packet state rule)
    (header : ValidHeader packet) (data : ℕ) :
    isAddtionMatch rule packet data = true ↔ protocol packet ∈ [6, 17, 1, 2] := by
  rw [isAddtionMatch, if_neg (not_lt.mpr header.length)]
  have ports : portsMatch rule packet data = true := by
    simp [portsMatch, wild.anySport, wild.anyDport]
  have type : typeMatches rule packet data = true := by
    simp [typeMatches, wild.noAddtion]
  split <;> simp_all [wild.noAddtion]

theorem Wildcard.meets_iff (wild : Wildcard packet state rule) (header : ValidHeader packet) :
    meets packet state rule = true ↔ protocol packet ∈ [6, 17, 1, 2] := by
  rw [meets, wild.ifname, wild.meetsAddresses, Bool.and_true, Bool.true_and,
    wild.isAddtionMatch_iff header]

/-- A rule without restrictions, behind rules that the packet does not meet. -/
theorem wildcard_matches_iff {snapshot : RuleSnapshot} {before after : List Rule}
    (header : ValidHeader packet) (wild : Wildcard packet state rule)
    (isSnapshot : snapshot.rules.take snapshot.count = before ++ rule :: after)
    (unmet : ∀ earlier ∈ before, meets packet state earlier = false) :
    isMatch packet state (some snapshot) = some rule ↔ HasTransport packet := by
  have passes : ¬ (packet.length < 20 ∨ ihl packet < 5) := by
    rintro (short | short)
    · exact absurd header.fixed (not_le.mpr short)
    · exact absurd header.length (not_le.mpr short)
  have isLong : ensurePacketData packet (ihl packet * 4) = true ↔
      ihl packet * 4 + transportLength (protocol packet) ≤ packet.length := by
    simp [ensurePacketData]
  rw [isMatch, if_neg passes, HasTransport, ← wild.meets_iff header, ← isLong]
  cases ensurePacketData packet (ihl packet * 4) with
  | false => simp
  | true =>
    simp only [Bool.not_true, Bool.false_eq_true, if_false, and_true, isSnapshot]
    constructor
    · exact fun found => List.find?_some found
    · intro isMet
      have skipped : before.find? (meets packet state) = none :=
        List.find?_eq_none.mpr fun earlier mem => by simp [unmet earlier mem]
      rw [List.find?_append, skipped, List.find?_cons_of_pos isMet]
      rfl

def anyPacket : Rule where
  chain := 0
  source := 0
  dest := 0
  sport := 0
  dport := 0
  protocol := 0
  action := 0
  ifname := Vector.replicate 8 0
  addtion := #v[0, 0, 0, 0]

def bareHeader (protocol : UInt8) : Bytes :=
  [0x45, 0, 0, 20, 0, 0, 0, 0, 64, protocol, 0, 0, 10, 0, 0, 1, 10, 0, 0, 2]

theorem wildcard_anyPacket (packet : Bytes) (state : Option HookState) :
    Wildcard packet state anyPacket where
  anyProtocol := rfl
  anySport := rfl
  anyDport := rfl
  noAddtion := by decide
  source := .inl rfl
  dest := .inl rfl
  ifname := by
    have unnamed : fieldText anyPacket.ifname.toList = [] := by decide
    simp [isIfnameMatch, unnamed]

/-- A UDP packet without data. -/
theorem udp_matches :
    isMatch (bareHeader 17 ++ [0, 53, 0, 53, 0, 8, 0, 0]) none (snapshotOf [anyPacket]) =
      some anyPacket :=
  (@wildcard_matches_iff _ none anyPacket ⟨1, 1, [anyPacket]⟩ [] []
    ⟨by decide, by decide, by decide⟩ (wildcard_anyPacket _ _) rfl (by simp)).mpr (by decide)

/-- Neither GRE packets nor ICMP packets that are cut off match the rule without restrictions. -/
theorem protocol_not_matched :
    ValidHeader (bareHeader 47 ++ [0, 0, 8, 0]) ∧ ValidHeader (bareHeader 1) ∧
      isMatch (bareHeader 47 ++ [0, 0, 8, 0]) none (snapshotOf [anyPacket]) = none ∧
      isMatch (bareHeader 1) none (snapshotOf [anyPacket]) = none := by
  refine ⟨⟨by decide, by decide, by decide⟩, ⟨by decide, by decide, by decide⟩, ?_, ?_⟩
  · decide +kernel
  · decide +kernel

end IotProxy.Sipfw
