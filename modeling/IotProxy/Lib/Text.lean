import Mathlib.Tactic
import Mathlib.Data.List.DropRight
import Mathlib.Data.List.Lex

/-!
# Text and decimal numerals

Text is the list of its characters, ordered lexicographically by code point; for well-formed UTF-8
this is also the byte order of the encoded text.

The numeral functions are those of the usual libraries: `itoa` and `atoi` are the decimal
conversions of a 64-bit signed integer, `zeroPadded` is the `%0wd` verb.
-/

abbrev Text := List Char

namespace Text

open List

def isSpace (char : Char) : Bool :=
  char ∈ ['\t', '\n', '\x0b', '\x0c', '\r', ' ', '\u0085', '\u00a0', '\u1680',
    '\u2000', '\u2001', '\u2002', '\u2003', '\u2004', '\u2005', '\u2006', '\u2007',
    '\u2008', '\u2009', '\u200a', '\u2028', '\u2029', '\u202f', '\u205f', '\u3000']

def trimSpace (text : Text) : Text :=
  (text.dropWhile isSpace).rdropWhile isSpace

/-- A lower-case mapping of characters. The Unicode tables are data; what is fixed is the
ASCII part. -/
structure LetterCase where
  lower : Char → Char
  lower_ascii : ∀ char : Char, char.toNat < 128 → lower char = char.toLower

def LetterCase.ascii : LetterCase where
  lower := Char.toLower
  lower_ascii _ _ := rfl

def isWord (char : Char) : Bool :=
  char.isAlphanum || char == '_'

def hexDigit (char : Char) : Option ℕ :=
  if '0' ≤ char ∧ char ≤ '9' then some (char.toNat - '0'.toNat)
  else if 'a' ≤ char ∧ char ≤ 'f' then some (char.toNat - 'a'.toNat + 10)
  else if 'A' ≤ char ∧ char ≤ 'F' then some (char.toNat - 'A'.toNat + 10)
  else none

theorem trimSpace_append_of_space {text : Text} {space : Char} (isBlank : isSpace space = true) :
    trimSpace (text ++ [space]) = trimSpace text := by
  induction text with
  | nil => simp [trimSpace, isBlank]
  | cons char text ih =>
    by_cases blank : isSpace char = true
    · simpa [trimSpace, dropWhile_cons, blank] using ih
    · simp only [trimSpace, cons_append, dropWhile_cons, blank]
      simp only [Bool.false_eq_true, if_false, ← cons_append]
      exact rdropWhile_concat_pos _ _ _ isBlank

theorem trimSpace_eq_self {text : Text} (noBlank : ∀ char ∈ text, isSpace char = false) :
    trimSpace text = text := by
  have noLeading : text.dropWhile isSpace = text := by
    cases text with
    | nil => rfl
    | cons char text => simp [noBlank char (by simp)]
  rw [trimSpace, noLeading, rdropWhile_eq_self_iff]
  intro nonempty
  simp [noBlank _ (getLast_mem nonempty)]

def itoa (number : ℤ) : Text :=
  if number < 0 then '-' :: Nat.toDigits 10 number.natAbs else Nat.toDigits 10 number.natAbs

def wrapInt64 (number : ℤ) : ℤ :=
  (number + 2 ^ 63) % 2 ^ 64 - 2 ^ 63

def readDigits (digits : Text) : Option ℕ :=
  if digits ≠ [] ∧ digits.all Char.isDigit then some (Nat.ofDigitChars 10 digits 0) else none

/-- The numeral read as a 64-bit signed integer, with an optional sign. -/
def atoi (text : Text) : Option ℤ :=
  match text with
  | '-' :: digits =>
    (readDigits digits).bind fun n => if n ≤ 2 ^ 63 then some (-(n : ℤ)) else none
  | '+' :: digits =>
    (readDigits digits).bind fun n => if n < 2 ^ 63 then some (n : ℤ) else none
  | digits =>
    (readDigits digits).bind fun n => if n < 2 ^ 63 then some (n : ℤ) else none

/-- The numeral padded with zeros to at least `width` characters, the sign included. -/
def zeroPadded (width : ℕ) (number : ℤ) : Text :=
  let digits := Nat.toDigits 10 number.natAbs
  if number < 0 then
    '-' :: (List.replicate (width - 1 - digits.length) '0' ++ digits)
  else
    List.replicate (width - digits.length) '0' ++ digits

variable {number : ℕ} {char : Char}

theorem isDigit_of_mem_toDigits (mem : char ∈ Nat.toDigits 10 number) : char.isDigit = true :=
  Nat.isDigit_of_mem_toDigits (by decide) (by decide) mem

@[simp]
theorem readDigits_toDigits (number : ℕ) : readDigits (Nat.toDigits 10 number) = some number := by
  have allDigits : (Nat.toDigits 10 number).all Char.isDigit = true := by
    simp only [all_eq_true]
    intro char mem
    exact isDigit_of_mem_toDigits mem
  simp [readDigits, allDigits]

theorem ne_of_isDigit (other : Char) (digit : char.isDigit = true)
    (notDigit : other.isDigit = false) : char ≠ other := by
  rintro rfl
  simp [digit] at notDigit

theorem atoi_of_readDigits {digits : Text} (digitsRead : readDigits digits = some number)
    (inRange : number < 2 ^ 63) : atoi digits = some (number : ℤ) := by
  cases digits with
  | nil => simp [readDigits] at digitsRead
  | cons first rest =>
    have digit : first.isDigit = true := by
      simp only [readDigits, Option.ite_none_right_eq_some, all_cons,
        Bool.and_eq_true] at digitsRead
      exact digitsRead.1.2.1
    have notMinus := ne_of_isDigit '-' digit (by decide)
    have notPlus := ne_of_isDigit '+' digit (by decide)
    rw [atoi.eq_3 _ (by simp [notMinus]) (by simp [notPlus]), digitsRead]
    simpa using inRange

theorem atoi_itoa {number : ℤ} (lower : -2 ^ 63 ≤ number) (upper : number < 2 ^ 63) :
    atoi (itoa number) = some number := by
  by_cases negative : number < 0
  · have bound : number.natAbs ≤ 2 ^ 63 := by omega
    have value : -(number.natAbs : ℤ) = number := by omega
    simp only [itoa, negative, if_true, atoi, readDigits_toDigits, Option.bind_some, bound]
    rw [value]
  · have bound : number.natAbs < 2 ^ 63 := by omega
    have value : (number.natAbs : ℤ) = number := by omega
    simp only [itoa, negative, if_false]
    rw [atoi_of_readDigits (readDigits_toDigits number.natAbs) bound, value]

theorem isSpace_eq_false_of_isDigit (digit : char.isDigit = true) : isSpace char = false := by
  by_contra space
  simp only [isSpace, Bool.not_eq_false, decide_eq_true_eq] at space
  simp only [mem_cons, not_mem_nil, or_false] at space
  revert digit
  rcases space with rfl | rfl | rfl | rfl | rfl | rfl | rfl | rfl | rfl | rfl | rfl | rfl | rfl |
    rfl | rfl | rfl | rfl | rfl | rfl | rfl | rfl | rfl | rfl | rfl | rfl <;> decide

theorem trimSpace_itoa (number : ℤ) : trimSpace (itoa number) = itoa number := by
  apply trimSpace_eq_self
  intro char mem
  simp only [itoa] at mem
  split at mem
  · rcases mem_cons.mp mem with rfl | mem
    · decide
    · exact isSpace_eq_false_of_isDigit (isDigit_of_mem_toDigits mem)
  · exact isSpace_eq_false_of_isDigit (isDigit_of_mem_toDigits mem)

section ZeroPadded

variable {width : ℕ}

theorem zeroPadded_natCast (number : ℕ) :
    zeroPadded width number =
      List.replicate (width - (Nat.toDigits 10 number).length) '0' ++ Nat.toDigits 10 number := by
  simp [zeroPadded]

theorem zeroPadded_all_isDigit (number : ℕ) :
    ∀ char ∈ zeroPadded width number, char.isDigit = true := by
  intro char mem
  rw [zeroPadded_natCast, mem_append, mem_replicate] at mem
  rcases mem with ⟨_, rfl⟩ | mem
  · decide
  · exact isDigit_of_mem_toDigits mem

theorem zeroPadded_ne_nil (number : ℕ) : zeroPadded width number ≠ [] := by
  simp [zeroPadded_natCast]

@[simp]
theorem ofDigitChars_zeroPadded (number : ℕ) :
    Nat.ofDigitChars 10 (zeroPadded width number) 0 = number := by
  simp [zeroPadded_natCast, Nat.ofDigitChars_append]

theorem atoi_zeroPadded (inRange : number < 2 ^ 63) :
    atoi (zeroPadded width number) = some (number : ℤ) := by
  refine atoi_of_readDigits ?_ inRange
  simp [readDigits, zeroPadded_ne_nil, all_eq_true.mpr (zeroPadded_all_isDigit number)]

theorem zeroPadded_injective {left right : ℕ}
    (same : zeroPadded width left = zeroPadded width right) : left = right := by
  have values := congrArg (fun digits => Nat.ofDigitChars 10 digits 0) same
  simpa using values

theorem length_zeroPadded (positive : 0 < width) (fits : number < 10 ^ width) :
    (zeroPadded width number).length = width := by
  have short := (Nat.length_toDigits_le_iff (b := 10) (by decide) positive).mpr fits
  simp only [zeroPadded_natCast, length_append, length_replicate]
  omega

end ZeroPadded

section DigitOrder

theorem ofDigitChars_lt_pow {digits : Text} (allDigits : ∀ char ∈ digits, char.isDigit = true) :
    Nat.ofDigitChars 10 digits 0 < 10 ^ digits.length := by
  induction digits with
  | nil => simp
  | cons first rest ih =>
    have tail := ih (fun char mem => allDigits char (mem_cons_of_mem _ mem))
    have head := allDigits first mem_cons_self
    simp only [Char.isDigit, Bool.and_eq_true, decide_eq_true_eq] at head
    have headBound : first.toNat - 48 < 10 := by
      have := head.2
      have upper : first.toNat ≤ 57 := by exact_mod_cast this
      omega
    rw [Nat.ofDigitChars_cons, Nat.ofDigitChars_eq_ofDigitChars_zero]
    simp only [length_cons, Nat.pow_succ, Char.reduceToNat, Nat.mul_zero, Nat.zero_add]
    calc 10 ^ rest.length * (first.toNat - 48) + Nat.ofDigitChars 10 rest 0
        < 10 ^ rest.length * (first.toNat - 48) + 10 ^ rest.length := by omega
      _ = 10 ^ rest.length * (first.toNat - 48 + 1) := by ring
      _ ≤ 10 ^ rest.length * 10 := Nat.mul_le_mul_left _ (by omega)

theorem append_lt_append_of_ofDigitChars_lt {left right leftRest rightRest : Text}
    (sameLength : left.length = right.length) (leftDigits : ∀ char ∈ left, char.isDigit = true)
    (rightDigits : ∀ char ∈ right, char.isDigit = true)
    (smaller : Nat.ofDigitChars 10 left 0 < Nat.ofDigitChars 10 right 0) :
    left ++ leftRest < right ++ rightRest := by
  induction left generalizing right with
  | nil =>
    have : right = [] := length_eq_zero_iff.mp sameLength.symm
    subst this
    simp at smaller
  | cons leftFirst left ih =>
    cases right with
    | nil => simp at sameLength
    | cons rightFirst right =>
      have tailLength : left.length = right.length := by simpa using sameLength
      have leftTail := fun char mem => leftDigits char (mem_cons_of_mem _ mem)
      have rightTail := fun char mem => rightDigits char (mem_cons_of_mem _ mem)
      have rightBound := ofDigitChars_lt_pow rightTail
      have lowerDigit : 48 ≤ rightFirst.toNat := by
        have := rightDigits rightFirst mem_cons_self
        simp only [Char.isDigit, Bool.and_eq_true, decide_eq_true_eq] at this
        exact_mod_cast this.1
      rw [Nat.ofDigitChars_cons, Nat.ofDigitChars_cons,
        Nat.ofDigitChars_eq_ofDigitChars_zero,
        Nat.ofDigitChars_eq_ofDigitChars_zero (l := right), tailLength] at smaller
      simp only [Char.reduceToNat, Nat.mul_zero, Nat.zero_add] at smaller
      rcases lt_trichotomy leftFirst.toNat rightFirst.toNat with headLess | headEq | headMore
      · exact cons_lt_cons_iff.mpr (.inl headLess)
      · have headSame : leftFirst = rightFirst := Char.toNat_inj.mp headEq
        subst headSame
        have tailSmaller : Nat.ofDigitChars 10 left 0 < Nat.ofDigitChars 10 right 0 := by
          omega
        exact cons_lt_cons_iff.mpr (.inr ⟨rfl, ih tailLength leftTail rightTail tailSmaller⟩)
      · -- a larger first digit outweighs whatever follows on the right
        have gap : 10 ^ right.length * (rightFirst.toNat - 48) + 10 ^ right.length ≤
            10 ^ right.length * (leftFirst.toNat - 48) := by
          rw [← Nat.mul_succ]
          exact Nat.mul_le_mul_left _ (by omega)
        omega

theorem zeroPadded_append_lt {width left right : ℕ} {leftRest rightRest : Text}
    (smaller : left < right) (fits : right < 10 ^ width) :
    zeroPadded width left ++ leftRest < zeroPadded width right ++ rightRest := by
  have positive : 0 < width := by
    rcases width with _ | width
    · simp only [pow_zero] at fits
      omega
    · omega
  apply append_lt_append_of_ofDigitChars_lt
  · rw [length_zeroPadded positive fits, length_zeroPadded positive (smaller.trans fits)]
  · exact zeroPadded_all_isDigit left
  · exact zeroPadded_all_isDigit right
  · simpa using smaller

end DigitOrder

end Text
