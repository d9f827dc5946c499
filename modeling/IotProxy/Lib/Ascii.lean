import IotProxy.Lib.Encoding

/-!
# Printable ASCII

Texts of printable ASCII characters are determined by their bytes and have no control bytes, so that
they may stand between line ends. Decimal numbers are such texts.
-/

namespace Text

def Printable (text : Text) : Prop :=
  ∀ char ∈ text, 32 ≤ char.toNat ∧ char.toNat < 128

def ofBytes (bytes : Bytes) : Text := bytes.map fun byte => Char.ofNat byte.toNat

variable {text other : Text}

theorem toNat_toUInt8 {char : Char} (ascii : char.toNat < 128) :
    char.toNat.toUInt8.toNat = char.toNat := by
  rw [Nat.toUInt8, UInt8.toNat_ofNat']
  omega

theorem Printable.notMem_toBytes (printable : Printable text) {byte : UInt8}
    (control : byte.toNat < 32) : byte ∉ text.toBytes := by
  intro mem
  rcases List.mem_map.mp mem with ⟨char, charMem, rfl⟩
  rcases printable char charMem with ⟨visible, ascii⟩
  rw [toNat_toUInt8 ascii] at control
  omega

theorem Printable.ofBytes_toBytes (printable : Printable text) : ofBytes text.toBytes = text := by
  rw [ofBytes, toBytes, List.map_map]
  conv_rhs => rw [← List.map_id text]
  apply List.map_congr_left
  intro char mem
  rw [Function.comp_apply, toNat_toUInt8 (printable char mem).2, Char.ofNat_toNat, id]

theorem Printable.eq_of_toBytes (printable : Printable text) (otherPrintable : Printable other)
    (same : text.toBytes = other.toBytes) : text = other := by
  rw [← printable.ofBytes_toBytes, ← otherPrintable.ofBytes_toBytes, same]

theorem Printable.cons {char : Char} (visible : 32 ≤ char.toNat ∧ char.toNat < 128)
    (printable : Printable text) : Printable (char :: text) := by
  intro other mem
  rcases List.mem_cons.mp mem with rfl | mem
  · exact visible
  · exact printable other mem

theorem printable_toDigits (number : ℕ) : Printable (Nat.toDigits 10 number) := by
  intro char mem
  have digit := isDigit_of_mem_toDigits mem
  simp only [Char.isDigit, Bool.and_eq_true, decide_eq_true_eq] at digit
  have lower : 48 ≤ char.toNat := digit.1
  have upper : char.toNat ≤ 57 := digit.2
  omega

theorem printable_itoa (number : ℤ) : Printable (itoa number) := by
  rw [itoa]
  split
  · exact .cons (by decide) (printable_toDigits _)
  · exact printable_toDigits _

theorem itoa_injective : Function.Injective itoa := by
  have digits {left right : ℕ} (same : Nat.toDigits 10 left = Nat.toDigits 10 right) :
      left = right := by
    have read := readDigits_toDigits left
    rw [same, readDigits_toDigits] at read
    exact (Option.some.inj read).symm
  have noSign {rest : Text} {number : ℕ} (same : '-' :: rest = Nat.toDigits 10 number) : False := by
    have mem : '-' ∈ Nat.toDigits 10 number := by
      rw [← same]
      exact List.mem_cons_self
    exact absurd (isDigit_of_mem_toDigits mem) (by decide)
  intro left right same
  simp only [itoa] at same
  split_ifs at same with leftNegative rightNegative rightNegative
  · have magnitudes := digits (List.cons.inj same).2
    omega
  · exact (noSign same).elim
  · exact (noSign same.symm).elim
  · have magnitudes := digits same
    omega

theorem hexDigit_printable {char : Char} (digit : (hexDigit char).isSome = true) :
    32 ≤ char.toNat ∧ char.toNat < 128 := by
  rw [hexDigit] at digit
  have inRange {low high : Char} (range : low ≤ char ∧ char ≤ high) (ascii : high.toNat < 128)
      (visible : 32 ≤ low.toNat) : 32 ≤ char.toNat ∧ char.toNat < 128 := by
    have lower : low.toNat ≤ char.toNat := range.1
    have upper : char.toNat ≤ high.toNat := range.2
    omega
  split_ifs at digit with decimal lower upper
  · exact inRange decimal (by decide) (by decide)
  · exact inRange lower (by decide) (by decide)
  · exact inRange upper (by decide) (by decide)
  · cases digit

end Text
