import IotProxy.Lib.Ascii
import IotProxy.Proxy.DiscoveryService

/-!
# What a hello signs

The signed text of a `hello` joins its fields with newlines. The host may hold newlines and digits
itself. The text still determines every field: the two names have a fixed length and stand in front,
the nonce, the time and the port have no newline and stand at the end, and the host is what remains.
-/

namespace IotProxy.Proxy

open List Option Text

section Lines

def newline : UInt8 := 10

variable {text : Text}

theorem printable_of_decode {bytes : Bytes} (decoded : Hex.decode text = some bytes) :
    Text.Printable text := by
  fun_induction Hex.decode text generalizing bytes with
  | case1 => exact fun char mem => absurd mem not_mem_nil
  | case2 => cases decoded
  | case3 high low rest ih =>
    simp only [bind_eq_bind, bind_eq_some_iff] at decoded
    rcases decoded with ⟨upper, isUpper, lower, isLower, later, isLater, -⟩
    have highVisible := hexDigit_printable (show (hexDigit high).isSome = true by
      rw [isUpper, isSome_some])
    have lowVisible := hexDigit_printable (show (hexDigit low).isSome = true by
      rw [isLower, isSome_some])
    exact .cons highVisible (.cons lowVisible (ih isLater))

theorem printable_of_parseHex256 (parsed : (parseHex256 text).isSome = true) :
    Text.Printable text := by
  rcases isSome_iff_exists.mp parsed with ⟨bytes, parsed⟩
  simp only [parseHex256, parseHex, ite_none_right_eq_some] at parsed
  rcases parsed with ⟨-, decoded⟩
  split at decoded
  · exact .cons (by decide) (.cons (by decide) (printable_of_decode decoded))
  · exact .cons (by decide) (.cons (by decide) (printable_of_decode decoded))
  · exact printable_of_decode decoded

theorem printable_convidToHex (conv : KcpConv) : Text.Printable (convidToHex conv) := fun _ mem =>
  hexDigit_printable (Hex.isSome_hexDigit_of_mem_encode mem)

theorem length_toBytes_convidToHex (conv : KcpConv) :
    (convidToHex conv).toBytes.length = 64 := by
  rw [toBytes, length_map, convidToHex, Hex.length_encode, conv.size]

theorem toBytes_convidToHex_injective :
    Function.Injective fun conv : KcpConv => (convidToHex conv).toBytes := by
  intro conv other same
  have sameText := (printable_convidToHex conv).eq_of_toBytes (printable_convidToHex other) same
  have read := Hex.decode_encode conv.bytes
  rw [← convidToHex, sameText, convidToHex, Hex.decode_encode, Option.some.injEq] at read
  cases conv
  cases other
  cases read
  rfl

theorem append_newline_inj {front otherFront back otherBack : Bytes} (noNewline : newline ∉ back)
    (otherNoNewline : newline ∉ otherBack)
    (same : front ++ newline :: back = otherFront ++ newline :: otherBack) :
    front = otherFront ∧ back = otherBack := by
  have inMiddle {first : UInt8} {rest back otherBack : Bytes}
      (isBack : newline :: back = first :: rest ++ newline :: otherBack) : newline ∈ back := by
    rw [cons_append, List.cons.injEq] at isBack
    rw [isBack.2]
    simp
  rcases append_eq_append_iff.mp same with ⟨middle, _, isBack⟩ | ⟨middle, _, isBack⟩
  · cases middle with
    | nil => simp_all
    | cons first rest => exact absurd (inMiddle isBack) noNewline
  · cases middle with
    | nil => simp_all
    | cons first rest => exact absurd (inMiddle isBack) otherNoNewline

theorem last_line_inj {front otherFront : Bytes} {line other : Text} (printable : line.Printable)
    (otherPrintable : other.Printable)
    (same : front ++ newline :: line.toBytes = otherFront ++ newline :: other.toBytes) :
    front = otherFront ∧ line = other := by
  rcases append_newline_inj (printable.notMem_toBytes (by decide))
    (otherPrintable.notMem_toBytes (by decide)) same with ⟨sameFront, sameLine⟩
  exact ⟨sameFront, printable.eq_of_toBytes otherPrintable sameLine⟩

end Lines

/-- The fields that a `hello` signs. The host is any string of bytes. -/
structure HelloFields where
  targetId : KcpConv
  nodeId : KcpConv
  host : Bytes
  port : ℕ
  timestampMs : ℤ
  nonceHex : Text
  nonceParses : (parseHex256 nonceHex).isSome = true

namespace HelloFields

def signingPayload (hello : HelloFields) : Bytes :=
  Text.toBytes "iota-discovery-v1\n".toList ++ (convidToHex hello.targetId).toBytes ++ newline ::
    ((convidToHex hello.nodeId).toBytes ++ newline :: (hello.host ++ newline ::
      ((Text.itoa hello.port).toBytes ++ newline :: ((Text.itoa hello.timestampMs).toBytes ++
        newline :: hello.nonceHex.toBytes))))

theorem utf8_of_printable {text : Text}
    (printable : Text.Printable text) : Utf8.encode text = text.toBytes := by
  induction text with
  | nil => rfl
  | cons char text ih =>
    have ascii : char.val.toNat ≤ 127 := Nat.le_of_lt_succ (printable char mem_cons_self).2
    have later := ih fun other mem => printable other (mem_cons_of_mem _ mem)
    have one : String.utf8EncodeChar char = [char.toNat.toUInt8] := by
      simp only [String.utf8EncodeChar, ascii, if_true]
      rfl
    rw [Utf8.encode] at later
    rw [Utf8.encode, flatMap_cons, later, one]
    rfl

/-- A node whose host is a text. -/
theorem helloSigningPayload_eq (node : NodeAddress) (targetId : KcpConv) (timestampMs : ℤ)
    (nonceHex : Text) (nonceParses : (parseHex256 nonceHex).isSome = true) :
    helloSigningPayload node targetId timestampMs nonceHex =
      signingPayload
        { targetId, nodeId := node.id, host := Utf8.encode node.endpoint.host
          port := node.endpoint.port, timestampMs, nonceHex, nonceParses } := by
  have encodeAppend (front back : Text) :
      Utf8.encode (front ++ back) = Utf8.encode front ++ Utf8.encode back :=
    flatMap_append
  have encodeNewline (rest : Text) : Utf8.encode ('\n' :: rest) = newline :: Utf8.encode rest :=
    rfl
  have title : Utf8.encode "iota-discovery-v1".toList = toBytes "iota-discovery-v1".toList := by
    decide
  simp only [helloSigningPayload, signingPayload, List.intercalate, List.intersperse,
    flatten_cons, flatten_nil, append_nil, cons_append, nil_append,
    encodeAppend, encodeNewline, title, utf8_of_printable (printable_convidToHex targetId),
    utf8_of_printable (printable_convidToHex node.id), utf8_of_printable (printable_itoa _),
    utf8_of_printable (printable_of_parseHex256 nonceParses)]
  rfl

/-- The text that a `hello` signs determines what it says. -/
theorem signingPayload_injective : Function.Injective signingPayload := by
  intro hello other same
  have sameLength (conv otherConv : KcpConv) :
      (convidToHex conv).toBytes.length = (convidToHex otherConv).toBytes.length := by
    rw [length_toBytes_convidToHex, length_toBytes_convidToHex]
  rw [signingPayload, signingPayload, append_assoc, append_assoc] at same
  -- from the front: the names
  rcases append_inj (append_cancel_left same) (sameLength _ _) with ⟨sameTarget, same⟩
  rcases append_inj (List.cons.inj same).2 (sameLength _ _) with ⟨sameNode, same⟩
  -- from the end: the nonce, the time and the port
  have regroup (host port time nonce : Bytes) :
      host ++ newline :: (port ++ newline :: (time ++ newline :: nonce)) =
        ((host ++ newline :: port) ++ newline :: time) ++ newline :: nonce := by
    simp
  have same := (List.cons.inj same).2
  rw [regroup, regroup] at same
  rcases last_line_inj (printable_of_parseHex256 hello.nonceParses)
    (printable_of_parseHex256 other.nonceParses) same with ⟨same, sameNonce⟩
  rcases last_line_inj (printable_itoa _) (printable_itoa _) same with ⟨same, sameTime⟩
  rcases last_line_inj (printable_itoa _) (printable_itoa _) same with
    ⟨sameHost, samePort⟩
  have isTarget := toBytes_convidToHex_injective sameTarget
  have isNode := toBytes_convidToHex_injective sameNode
  have isTime := itoa_injective sameTime
  have isPort := itoa_injective samePort
  cases hello
  cases other
  simp_all

end HelloFields

end IotProxy.Proxy
