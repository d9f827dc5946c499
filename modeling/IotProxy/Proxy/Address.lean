import IotProxy.Lib.Encoding

/-!
# Names and addresses

Nodes, sessions and messages have 256-bit names; peers are reached at IPv4 addresses. A KCP session
is identified by an address and a name.
-/

namespace IotProxy.Proxy

/-- The 256-bit name of a node, a session or a message. -/
structure KcpConv where
  bytes : Bytes
  size : bytes.length = 32
  deriving DecidableEq

namespace KcpConv

def zero : KcpConv where
  bytes := List.replicate 32 0
  size := rfl

def empty (conv : KcpConv) : Bool :=
  conv.bytes.all (· == 0)

def ofBytes (bytes : Bytes) : KcpConv where
  bytes := bytes.takeD 32 0
  size := List.takeD_length 32 bytes 0

def ofUint32 (value : ℕ) : KcpConv where
  bytes := (BigEndian.store 4 value).reverse ++ List.replicate 28 0
  size := by simp [BigEndian.store]

theorem ofBytes_append (conv : KcpConv) (rest : Bytes) : ofBytes (conv.bytes ++ rest) = conv := by
  have front : (conv.bytes ++ rest).takeD 32 0 = conv.bytes := by
    rw [List.takeD_eq_take _ (by simp [conv.size]), List.take_left' conv.size]
  cases conv
  simp only [ofBytes, front]

end KcpConv

def convidToHex (conv : KcpConv) : Text :=
  Hex.encode conv.bytes

def parseHex (size : ℕ) (text : Text) : Option Bytes :=
  let value := match text with
    | '0' :: 'x' :: rest => rest
    | '0' :: 'X' :: rest => rest
    | text => text
  if value.length = size * 2 then Hex.decode value else none

def parseHex256 : Text → Option Bytes :=
  parseHex 32

def parseHex512 : Text → Option Bytes :=
  parseHex 64

/-- Read a name. The name of all zeros stands for no name and is refused. -/
def parseConvidHex (text : Text) : Option KcpConv :=
  match parseHex256 text with
  | none => none
  | some bytes => if (KcpConv.ofBytes bytes).empty then none else some (KcpConv.ofBytes bytes)

theorem parseHex_encode (bytes : Bytes) :
    parseHex bytes.length (Hex.encode bytes) = some bytes := by
  have noX : ∀ char ∈ Hex.encode bytes, char ≠ 'x' ∧ char ≠ 'X' := by
    intro char mem
    have digit := Hex.isSome_hexDigit_of_mem_encode mem
    constructor
    · rintro rfl
      exact absurd digit (by decide)
    · rintro rfl
      exact absurd digit (by decide)
  have length := Hex.length_encode bytes
  have decoded := Hex.decode_encode bytes
  unfold parseHex
  generalize Hex.encode bytes = text at noX length decoded ⊢
  split
  next rest => exact absurd rfl (noX 'x' (by simp)).1
  next rest => exact absurd rfl (noX 'X' (by simp)).2
  next => rw [if_pos (by omega), decoded]

theorem parseConvidHex_convidToHex (conv : KcpConv) :
    parseConvidHex (convidToHex conv) = if conv.empty then none else some conv := by
  have parsed : parseHex256 (convidToHex conv) = some conv.bytes := by
    have read := parseHex_encode conv.bytes
    rwa [conv.size] at read
  have same : KcpConv.ofBytes conv.bytes = conv := by
    simpa using KcpConv.ofBytes_append conv []
  rw [parseConvidHex, parsed]
  simp only [same]

structure Ipv4Endpoint where
  host : Text
  port : ℕ
  deriving DecidableEq

/-- The four bytes of a dotted address: decimal numbers up to 255 without leading zeros. -/
def inetPton (host : Text) : Option Bytes :=
  match host.splitOn '.' with
  | [first, second, third, fourth] => [first, second, third, fourth].mapM fun part =>
    if part.all Char.isDigit && !part.isEmpty && part.length ≤ 3
        && (part.length = 1 || part.head? != some '0') && Nat.ofDigitChars 10 part 0 ≤ 255 then
      some (Nat.ofDigitChars 10 part 0).toUInt8
    else none
  | _ => none

structure SockAddr where
  addr : Bytes
  port : ℕ
  deriving DecidableEq

def makeSockaddr (endpoint : Ipv4Endpoint) : Option SockAddr :=
  if endpoint.host.isEmpty || endpoint.port = 0 then none
  else (inetPton endpoint.host).map fun addr => { addr, port := endpoint.port }

structure NodeAddress where
  endpoint : Ipv4Endpoint
  id : KcpConv
  deriving DecidableEq

/-- The two ends of a session are told apart by the peer's address and the conversation. -/
structure KcpSessionKey where
  addr : SockAddr
  conv : KcpConv
  deriving DecidableEq

def KcpSessionKey.valid (key : KcpSessionKey) : Bool :=
  (key.addr.addr.any (· != 0) || key.addr.port != 0) && !key.conv.empty

end IotProxy.Proxy
