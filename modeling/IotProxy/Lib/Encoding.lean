import Mathlib.Data.Bool.AllAny
import IotProxy.Lib.Text

/-!
# Byte encodings

UTF-8 and standard Base64, as the usual library decoders treat them, hexadecimal digits and numbers
in network byte order.

A UTF-8 decoder reads the longest well-formed sequence at each position. Where there is none, a
strict decoder rejects the input and a lossy one replaces that single byte by U+FFFD and goes on.
-/

abbrev Bytes := List UInt8

def Text.toBytes (text : Text) : Bytes :=
  text.map fun char => char.toNat.toUInt8

namespace Utf8

def isContinuation (byte : UInt8) : Bool :=
  0x80 ≤ byte && byte ≤ 0xBF

def continuation (byte : UInt8) : ℕ :=
  byte.toNat - 0x80

/-- The character of the well-formed sequence that starts with `first`, and the number of
bytes it takes from `rest`. Overlong forms, surrogates and values above U+10FFFF are not
well formed. -/
def sequence (first : UInt8) (rest : Bytes) : Option (Char × ℕ) :=
  if first < 0x80 then some (Char.ofNat first.toNat, 0)
  else if 0xC2 ≤ first && first ≤ 0xDF then
    match rest with
    | second :: _ =>
      if isContinuation second then
        some (Char.ofNat ((first.toNat - 0xC0) * 64 + continuation second), 1)
      else none
    | [] => none
  else if 0xE0 ≤ first && first ≤ 0xEF then
    match rest with
    | second :: third :: _ =>
      let value := (first.toNat - 0xE0) * 4096 + continuation second * 64 + continuation third
      if isContinuation second && isContinuation third && 0x800 ≤ value
          && !(0xD800 ≤ value && value ≤ 0xDFFF) then
        some (Char.ofNat value, 2)
      else none
    | _ => none
  else if 0xF0 ≤ first && first ≤ 0xF4 then
    match rest with
    | second :: third :: fourth :: _ =>
      let value := (first.toNat - 0xF0) * 262144 + continuation second * 4096
        + continuation third * 64 + continuation fourth
      if isContinuation second && isContinuation third && isContinuation fourth
          && 0x10000 ≤ value && value ≤ 0x10FFFF then
        some (Char.ofNat value, 3)
      else none
    | _ => none
  else none

/-- The characters of a byte string; `none` stands for a byte that starts no well-formed
sequence. The first argument counts bytes that belong to the preceding character. -/
def runesFrom : ℕ → Bytes → List (Option Char)
  | _, [] => []
  | skip + 1, _ :: rest => runesFrom skip rest
  | 0, first :: rest =>
    match sequence first rest with
    | some (char, taken) => some char :: runesFrom taken rest
    | none => none :: runesFrom 0 rest

def runes (bytes : Bytes) : List (Option Char) :=
  runesFrom 0 bytes

def decodeLossy (bytes : Bytes) : Text :=
  (runes bytes).map fun rune => rune.getD '\ufffd'

def decode (bytes : Bytes) : Option Text :=
  (runes bytes).mapM id

def encode (text : Text) : Bytes :=
  text.flatMap String.utf8EncodeChar

theorem runesFrom_eq_drop (skip : ℕ) (bytes : Bytes) :
    runesFrom skip bytes = runesFrom 0 (bytes.drop skip) := by
  induction skip generalizing bytes with
  | zero => rfl
  | succ skip ih =>
    cases bytes with
    | nil => simp [runesFrom]
    | cons byte bytes => rw [runesFrom, ih, List.drop_succ_cons]

section Encode

theorem toNat_ofNat {value : ℕ} (small : value < 256) : (UInt8.ofNat value).toNat = value := by
  rw [UInt8.toNat_ofNat']
  omega

theorem isContinuation_ofNat {value : ℕ} (small : value < 64) :
    isContinuation (UInt8.ofNat (value + 128)) = true := by
  have byte := toNat_ofNat (show value + 128 < 256 by omega)
  simp only [isContinuation, Bool.and_eq_true, decide_eq_true_eq, UInt8.le_iff_toNat_le, byte,
    UInt8.reduceToNat]
  omega

theorem continuation_ofNat {value : ℕ} (small : value < 64) :
    continuation (UInt8.ofNat (value + 128)) = value := by
  have byte := toNat_ofNat (show value + 128 < 256 by omega)
  unfold continuation
  omega

theorem sequence_two {first second : UInt8} {rest : Bytes} {lead : ℕ}
    (isLead : first.toNat = lead + 192) (lower : 2 ≤ lead) (upper : lead < 32)
    (continues : isContinuation second = true) :
    sequence first (second :: rest) = some (Char.ofNat (lead * 64 + continuation second), 1) := by
  unfold sequence
  simp only [UInt8.lt_iff_toNat_lt, UInt8.le_iff_toNat_le, isLead, UInt8.reduceToNat]
  rw [if_neg (by omega), if_pos (by simp; omega), if_pos continues, Nat.add_sub_cancel]

theorem sequence_three {first second third : UInt8} {rest : Bytes} {lead value : ℕ}
    (isLead : first.toNat = lead + 224) (upper : lead < 16)
    (continues : isContinuation second = true) (continuesThird : isContinuation third = true)
    (isValue : lead * 4096 + continuation second * 64 + continuation third = value)
    (range : 0x800 ≤ value) (valid : value < 0xD800 ∨ 0xDFFF < value) :
    sequence first (second :: third :: rest) = some (Char.ofNat value, 2) := by
  unfold sequence
  simp only [UInt8.lt_iff_toNat_lt, UInt8.le_iff_toNat_le, isLead, UInt8.reduceToNat,
    Nat.add_sub_cancel, isValue, continues, continuesThird]
  rw [if_neg (by omega), if_neg (by simp), if_pos (by simp; omega), if_pos]
  simp
  omega

theorem sequence_four {first second third fourth : UInt8} {rest : Bytes} {lead value : ℕ}
    (isLead : first.toNat = lead + 240) (upper : lead < 5)
    (continues : isContinuation second = true) (continuesThird : isContinuation third = true)
    (continuesFourth : isContinuation fourth = true)
    (isValue : lead * 262144 + continuation second * 4096 + continuation third * 64
      + continuation fourth = value)
    (lower : 0x10000 ≤ value) (valid : value ≤ 0x10FFFF) :
    sequence first (second :: third :: fourth :: rest) = some (Char.ofNat value, 3) := by
  unfold sequence
  simp only [UInt8.lt_iff_toNat_lt, UInt8.le_iff_toNat_le, isLead, UInt8.reduceToNat,
    Nat.add_sub_cancel, isValue, continues, continuesThird, continuesFourth]
  rw [if_neg (by omega), if_neg (by simp), if_neg (by simp), if_pos (by simp; omega), if_pos]
  simp
  omega

theorem exists_encodeChar (char : Char) :
    ∃ first others, String.utf8EncodeChar char = first :: others ∧
      ∀ rest, sequence first (others ++ rest) = some (char, others.length) := by
  have valid : char.val.toNat < 0xD800 ∨ 0xDFFF < char.val.toNat ∧ char.val.toNat < 0x110000 :=
    char.valid
  have same : Char.ofNat char.val.toNat = char := Char.ofNat_toNat char
  unfold String.utf8EncodeChar
  generalize char.val.toNat = value at valid same
  dsimp only
  split_ifs with one two three
  · refine ⟨_, _, rfl, ?_⟩
    intro rest
    have byte := toNat_ofNat (show value < 256 by omega)
    have small : UInt8.ofNat value < 0x80 := by
      rw [UInt8.lt_iff_toNat_lt, byte]
      exact Nat.lt_succ_of_le one
    unfold sequence
    rw [if_pos small, byte, same]
    rfl
  · refine ⟨_, _, rfl, ?_⟩
    intro rest
    refine (sequence_two (toNat_ofNat ?_) ?_ ?_ (isContinuation_ofNat ?_)).trans ?_
    · omega
    · omega
    · omega
    · omega
    · rw [continuation_ofNat (by omega), ← same]
      congr 3
      omega
  · refine ⟨_, _, rfl, ?_⟩
    intro rest
    rw [← same]
    apply sequence_three (toNat_ofNat _) _ (isContinuation_ofNat _) (isContinuation_ofNat _)
    · rw [continuation_ofNat (by omega), continuation_ofNat (by omega)]
      omega
    all_goals omega
  · refine ⟨_, _, rfl, ?_⟩
    intro rest
    rw [← same]
    apply sequence_four (toNat_ofNat _) _ (isContinuation_ofNat _) (isContinuation_ofNat _)
      (isContinuation_ofNat _)
    · rw [continuation_ofNat (by omega), continuation_ofNat (by omega),
        continuation_ofNat (by omega)]
      omega
    all_goals omega

theorem runes_encode (text : Text) : runes (encode text) = text.map some := by
  induction text with
  | nil => rfl
  | cons char text ih =>
    rcases exists_encodeChar char with ⟨first, others, encoded, read⟩
    rw [runes, encode] at ih
    rw [encode, List.flatMap_cons, encoded, List.cons_append, runes, runesFrom, read]
    dsimp only
    rw [runesFrom_eq_drop, List.drop_left, ih, List.map_cons]

theorem decodeLossy_encode (text : Text) : decodeLossy (encode text) = text := by
  rw [decodeLossy, runes_encode]
  simp

end Encode

end Utf8

namespace Hex

def digit (value : ℕ) : Char :=
  Nat.digitChar value

def encode (bytes : Bytes) : Text :=
  bytes.flatMap fun byte => [digit (byte.toNat / 16), digit (byte.toNat % 16)]

def decode : Text → Option Bytes
  | [] => some []
  | [_] => none
  | high :: low :: rest => do
      let byte := (← Text.hexDigit high) * 16 + (← Text.hexDigit low)
      let bytes ← decode rest
      some (byte.toUInt8 :: bytes)

theorem hexDigit_digit {value : ℕ} (small : value < 16) :
    Text.hexDigit (digit value) = some value := by
  interval_cases value <;> decide

theorem digit_mem {value : ℕ} (small : value < 16) : digit value ∈ "0123456789abcdef".toList := by
  interval_cases value <;> decide

theorem mem_of_mem_encode {bytes : Bytes} {char : Char} (mem : char ∈ encode bytes) :
    char ∈ "0123456789abcdef".toList := by
  rcases List.mem_flatMap.mp mem with ⟨byte, -, isDigit⟩
  have bound := byte.toNat_lt
  simp only [List.mem_cons, List.not_mem_nil, or_false] at isDigit
  rcases isDigit with rfl | rfl
  · exact digit_mem (by omega)
  · exact digit_mem (by omega)

theorem isSome_hexDigit_of_mem_encode {bytes : Bytes} {char : Char} (mem : char ∈ encode bytes) :
    (Text.hexDigit char).isSome = true := by
  have digits : ∀ char ∈ "0123456789abcdef".toList, (Text.hexDigit char).isSome = true :=
    List.all_iff_forall_prop.mp (by decide)
  exact digits char (mem_of_mem_encode mem)

theorem length_encode (bytes : Bytes) : (encode bytes).length = 2 * bytes.length := by
  simp [encode, Nat.mul_comm]

theorem decode_encode (bytes : Bytes) : decode (encode bytes) = some bytes := by
  induction bytes with
  | nil => rfl
  | cons byte bytes ih =>
    have bound := byte.toNat_lt
    have high : byte.toNat / 16 < 16 := by omega
    have low : byte.toNat % 16 < 16 := Nat.mod_lt _ (by decide)
    have split : encode (byte :: bytes) =
        digit (byte.toNat / 16) :: digit (byte.toNat % 16) :: encode bytes := by
      simp [encode]
    have whole : (byte.toNat / 16 * 16 + byte.toNat % 16).toUInt8 = byte := by
      rw [Nat.div_add_mod']
      simp
    rw [split, decode, hexDigit_digit high, hexDigit_digit low, ih]
    simpa using whole

end Hex

namespace BigEndian

/-- The number that a string of bytes spells, most significant byte first. -/
def load (bytes : Bytes) : ℕ :=
  bytes.foldl (fun value byte => value * 256 + byte.toNat) 0

theorem load_lt (bytes : Bytes) : load bytes < 256 ^ bytes.length := by
  induction bytes using List.reverseRecOn with
  | nil => decide
  | append_singleton bytes byte ih =>
    have last := byte.toNat_lt
    rw [load, List.foldl_append, List.length_append, pow_add]
    change load bytes * 256 + byte.toNat < 256 ^ bytes.length * 256
    omega

/-- The low `width` bytes of a number, most significant byte first. -/
def store : ℕ → ℕ → Bytes
  | 0, _ => []
  | width + 1, value => store width (value / 256) ++ [(value % 256).toUInt8]

@[simp] theorem length_store (width value : ℕ) : (store width value).length = width := by
  induction width generalizing value with
  | zero => rfl
  | succ width ih => simp [store, ih]

theorem load_store {width value : ℕ} (fits : value < 256 ^ width) :
    load (store width value) = value := by
  induction width generalizing value with
  | zero => simp_all [store, load]
  | succ width ih =>
    have higher : value / 256 < 256 ^ width := by
      rw [Nat.div_lt_iff_lt_mul (by decide), ← pow_succ]
      exact fits
    have last : ((value % 256).toUInt8).toNat = value % 256 := by
      simp
    rw [store, load, List.foldl_append]
    change load (store width (value / 256)) * 256 + ((value % 256).toUInt8).toNat = value
    rw [ih higher, last]
    omega

theorem store_load (bytes : Bytes) : store bytes.length (load bytes) = bytes := by
  induction bytes using List.reverseRecOn with
  | nil => rfl
  | append_singleton bytes byte ih =>
    have last := byte.toNat_lt
    have value : load (bytes ++ [byte]) = load bytes * 256 + byte.toNat := by
      simp [load]
    have higher : (load bytes * 256 + byte.toNat) / 256 = load bytes := by omega
    have lowest : (load bytes * 256 + byte.toNat) % 256 = byte.toNat := by omega
    rw [List.length_append, List.length_singleton, store, value, higher, lowest, ih]
    simp

end BigEndian

namespace Base64

def sextet (char : Char) : Option ℕ :=
  if 'A' ≤ char ∧ char ≤ 'Z' then some (char.toNat - 'A'.toNat)
  else if 'a' ≤ char ∧ char ≤ 'z' then some (char.toNat - 'a'.toNat + 26)
  else if '0' ≤ char ∧ char ≤ '9' then some (char.toNat - '0'.toNat + 52)
  else if char = '+' then some 62
  else if char = '/' then some 63
  else none

/-- Decode groups of four characters, the last one padded with `=`. The unused bits of a
padded group are ignored. -/
def decodeGroups : Text → Option Bytes
  | [] => some []
  | first :: second :: '=' :: '=' :: [] => do
      let value := (← sextet first) * 64 + (← sextet second)
      some [(value / 16).toUInt8]
  | first :: second :: third :: '=' :: [] => do
      let value := (← sextet first) * 4096 + (← sextet second) * 64 + (← sextet third)
      some [(value / 1024).toUInt8, (value / 4 % 256).toUInt8]
  | first :: second :: third :: fourth :: rest => do
      let value := (← sextet first) * 262144 + (← sextet second) * 4096
        + (← sextet third) * 64 + (← sextet fourth)
      let bytes ← decodeGroups rest
      some ((value / 65536).toUInt8 :: (value / 256 % 256).toUInt8 :: (value % 256).toUInt8
        :: bytes)
  | _ => none

/-- The standard decoder: line breaks are ignored, padding is required. -/
def decode (text : Text) : Option Bytes :=
  decodeGroups (text.filter fun char => char != '\r' && char != '\n')

def alphabet : List Char :=
  "ABCDEFGHIJKLMNOPQRSTUVWXYZabcdefghijklmnopqrstuvwxyz0123456789+/".toList

def symbol (sextet : ℕ) : Char :=
  alphabet.getD (sextet % 64) '='

def encode : Bytes → Text
  | [] => []
  | [first] =>
    let chunk := first.toNat * 65536
    [symbol (chunk / 262144), symbol (chunk / 4096), '=', '=']
  | [first, second] =>
    let chunk := first.toNat * 65536 + second.toNat * 256
    [symbol (chunk / 262144), symbol (chunk / 4096), symbol (chunk / 64), '=']
  | first :: second :: third :: rest =>
    let chunk := first.toNat * 65536 + second.toNat * 256 + third.toNat
    symbol (chunk / 262144) :: symbol (chunk / 4096) :: symbol (chunk / 64) :: symbol chunk
      :: encode rest

theorem sextet_symbol (value : ℕ) : sextet (symbol value) = some (value % 64) := by
  have small : value % 64 < 64 := Nat.mod_lt _ (by decide)
  rw [symbol]
  generalize value % 64 = digit at small ⊢
  interval_cases digit <;> decide

theorem symbol_ne_padding (value : ℕ) : symbol value ≠ '=' := by
  intro padding
  have read := sextet_symbol value
  rw [padding] at read
  cases read

theorem decodeGroups_symbols (first second third fourth : ℕ) (rest : Text) :
    decodeGroups (symbol first :: symbol second :: symbol third :: symbol fourth :: rest) =
      (decodeGroups rest).map fun bytes =>
        let value := first % 64 * 262144 + second % 64 * 4096 + third % 64 * 64 + fourth % 64
        (value / 65536).toUInt8 :: (value / 256 % 256).toUInt8 :: (value % 256).toUInt8
          :: bytes := by
  have notPadding := symbol_ne_padding fourth
  conv_lhs => unfold decodeGroups
  split
  · next same => cases same
  · next same =>
      simp only [List.cons.injEq] at same
      exact absurd same.2.2.2.1 notPadding
  · next same =>
      simp only [List.cons.injEq] at same
      exact absurd same.2.2.2.1 notPadding
  · next same =>
      simp only [List.cons.injEq] at same
      rcases same with ⟨rfl, rfl, rfl, rfl, rfl⟩
      simp only [sextet_symbol]
      cases decodeGroups rest <;> rfl
  · next other => exact absurd rfl (other _ _ _ _ _)

theorem toUInt8_of_eq {value : ℕ} {byte : UInt8} (same : value = byte.toNat) :
    value.toUInt8 = byte := by
  rw [same]
  exact UInt8.ofNat_toNat

theorem decodeGroups_encode (bytes : Bytes) : decodeGroups (encode bytes) = some bytes := by
  fun_induction encode bytes with
  | case1 => rfl
  | case2 first chunk =>
    have bound := first.toNat_lt
    simp only [decodeGroups, sextet_symbol, Option.bind_eq_bind, Option.bind_some,
      Option.some.injEq, List.cons.injEq, and_true]
    apply toUInt8_of_eq
    omega
  | case3 first second chunk =>
    have bound := first.toNat_lt
    have secondBound := second.toNat_lt
    have notPadding := symbol_ne_padding (chunk / 64)
    simp only [decodeGroups, sextet_symbol, Option.bind_eq_bind, Option.bind_some,
      Option.some.injEq, List.cons.injEq, and_true]
    constructor
    · apply toUInt8_of_eq
      omega
    · apply toUInt8_of_eq
      omega
  | case4 first second third rest chunk ih =>
    have bound := first.toNat_lt
    have secondBound := second.toNat_lt
    have thirdBound := third.toNat_lt
    rw [decodeGroups_symbols, ih]
    simp only [Option.map_some, Option.some.injEq, List.cons.injEq, and_true]
    refine ⟨toUInt8_of_eq ?_, toUInt8_of_eq ?_, toUInt8_of_eq ?_⟩
    · omega
    · omega
    · omega

theorem symbol_mem_alphabet (value : ℕ) : symbol value ∈ alphabet := by
  have small : value % 64 < 64 := Nat.mod_lt _ (by decide)
  rw [symbol]
  generalize value % 64 = digit at small ⊢
  interval_cases digit <;> decide

theorem mem_of_mem_encode {bytes : Bytes} {char : Char} (mem : char ∈ encode bytes) :
    char ∈ '=' :: alphabet := by
  have symbolMem (value : ℕ) : symbol value ∈ '=' :: alphabet :=
    List.mem_cons_of_mem _ (symbol_mem_alphabet value)
  fun_induction encode bytes with
  | case1 => cases mem
  | case2 first chunk =>
    simp only [List.mem_cons, List.not_mem_nil, or_false] at mem
    rcases mem with rfl | rfl | rfl | rfl
    · exact symbolMem _
    · exact symbolMem _
    · exact List.mem_cons_self
    · exact List.mem_cons_self
  | case3 first second chunk =>
    simp only [List.mem_cons, List.not_mem_nil, or_false] at mem
    rcases mem with rfl | rfl | rfl | rfl
    · exact symbolMem _
    · exact symbolMem _
    · exact symbolMem _
    · exact List.mem_cons_self
  | case4 first second third rest chunk ih =>
    simp only [List.mem_cons] at mem
    rcases mem with rfl | rfl | rfl | rfl | mem
    · exact symbolMem _
    · exact symbolMem _
    · exact symbolMem _
    · exact symbolMem _
    · exact ih mem

theorem decode_encode (bytes : Bytes) : decode (encode bytes) = some bytes := by
  have noBreaks : ∀ char ∈ '=' :: alphabet, (char != '\r' && char != '\n') = true :=
    List.all_iff_forall_prop.mp (by decide)
  rw [decode, List.filter_eq_self.mpr fun char mem => noBreaks char (mem_of_mem_encode mem)]
  exact decodeGroups_encode bytes

theorem encode_eq_nil_iff (bytes : Bytes) : encode bytes = [] ↔ bytes = [] := by
  rcases bytes with _ | ⟨first, _ | ⟨second, _ | ⟨third, rest⟩⟩⟩ <;> simp [encode]

end Base64
