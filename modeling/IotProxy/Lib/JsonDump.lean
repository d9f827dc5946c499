import IotProxy.Lib.Json

/-!
# Reading JSON back

An object of strings and numbers that `dumpFlat` has written is read back by every dialect that
allows a container and holds the numbers, provided that its strings need no escapes.

Every lemma says what the reader makes of a piece of text that is followed by more: the piece is
read as a whole and the rest is left over.
-/

namespace Json

open List

variable {char : Char}

section Strings

/-- An ASCII character that a string literal holds as it is. -/
def IsPlain (char : Char) : Prop :=
  0x20 ≤ char.toNat ∧ char.toNat < 128 ∧ char ≠ '"' ∧ char ≠ '\\'

instance (char : Char) : Decidable (IsPlain char) :=
  inferInstanceAs (Decidable (_ ∧ _))

variable {content rest : Text}

theorem escape_of_isPlain (plain : IsPlain char) : escape char = [char] := by
  rcases plain with ⟨visible, _, notQuote, notBackslash⟩
  unfold escape
  split
  · exact absurd rfl notQuote
  · exact absurd rfl notBackslash
  · exact absurd visible (by decide)
  · exact absurd visible (by decide)
  · exact absurd visible (by decide)
  · exact absurd visible (by decide)
  · exact absurd visible (by decide)
  · exact if_neg (not_lt.mpr visible)

theorem quote_of_isPlain (plain : ∀ char ∈ content, IsPlain char) :
    quote content = '"' :: content ++ ['"'] := by
  have escaped : content.flatMap escape = content := by
    induction content with
    | nil => rfl
    | cons char content ih =>
      rw [flatMap_cons, escape_of_isPlain (plain char mem_cons_self),
        ih fun other mem => plain other (mem_cons_of_mem _ mem), singleton_append]
  rw [quote, escaped]

theorem stringItems_of_isPlain (plain : ∀ char ∈ content, IsPlain char) :
    stringItems (content ++ '"' :: rest) = some (content.map .char, rest) := by
  induction content with
  | nil => rfl
  | cons char content ih =>
    have read := ih fun other mem => plain other (mem_cons_of_mem _ mem)
    rcases plain char mem_cons_self with ⟨visible, _, notQuote, notBackslash⟩
    rw [cons_append, map_cons]
    unfold stringItems
    split
    · next isNil => cases isNil
    · next same => exact absurd (List.cons.inj same).1 notQuote
    · next same => exact absurd (List.cons.inj same).1 notBackslash
    · next same => exact absurd (List.cons.inj same).1 notBackslash
    · next same =>
        rcases List.cons.inj same with ⟨rfl, rfl⟩
        rw [read, if_neg (by simp [visible, notBackslash])]
        rfl

theorem joinSurrogates_char (dialect : Dialect) (content : Text) :
    joinSurrogates dialect (content.map .char) = some content := by
  induction content with
  | nil => rfl
  | cons char content ih => rw [map_cons, joinSurrogates, ih, Option.map_some]

theorem parseString_of_isPlain (dialect : Dialect) (plain : ∀ char ∈ content, IsPlain char) :
    parseString dialect (content ++ '"' :: rest) = some (content, rest) := by
  simp [parseString, stringItems_of_isPlain plain, joinSurrogates_char]

end Strings

section Numerals

def EndsNumeral (rest : Text) : Prop :=
  ∀ char ∈ rest.head?, char.isDigit = false ∧ char ≠ '.' ∧ char ≠ 'e' ∧ char ≠ 'E'

variable {rest : Text}

theorem spanDigits_append {digits : Text} (allDigits : ∀ char ∈ digits, char.isDigit = true)
    (ends : EndsNumeral rest) : spanDigits (digits ++ rest) = (digits, rest) := by
  have stops : rest.takeWhile Char.isDigit = [] ∧ rest.dropWhile Char.isDigit = rest := by
    cases rest with
    | nil => exact ⟨rfl, rfl⟩
    | cons char rest =>
      have notDigit := (ends char rfl).1
      simp [notDigit]
  rw [spanDigits, span_eq_takeWhile_dropWhile, takeWhile_append_of_pos allDigits,
    dropWhile_append_of_pos allDigits, stops.1, stops.2, append_nil]

theorem head_toDigits_ne_zero {number : ℕ} (positive : 0 < number) :
    (Nat.toDigits 10 number).head? ≠ some '0' := by
  induction number using Nat.strongRecOn with
  | ind number ih =>
    by_cases small : number < 10
    · rw [Nat.toDigits_of_lt_base small]
      interval_cases number <;> decide
    · have higher := ih (number / 10) (by omega) (by omega)
      rw [Nat.toDigits_of_base_le (by decide) (not_lt.mp small)]
      rwa [List.head?_append_of_ne_nil _ Nat.toDigits_ne_nil]

theorem integerPart_toDigits (number : ℕ) (ends : EndsNumeral rest) :
    integerPart (Nat.toDigits 10 number ++ rest) = some (Nat.toDigits 10 number, rest) := by
  rcases Nat.eq_zero_or_pos number with rfl | positive
  · rfl
  · have notZero := head_toDigits_ne_zero positive
    have allDigits : ∀ char ∈ Nat.toDigits 10 number, char.isDigit = true := fun char mem =>
      Text.isDigit_of_mem_toDigits mem
    have read := spanDigits_append allDigits ends
    cases digits : Nat.toDigits 10 number with
    | nil => exact absurd digits Nat.toDigits_ne_nil
    | cons first others =>
      rw [digits] at notZero read
      unfold integerPart
      split
      · next same =>
          rw [cons_append, List.cons.injEq] at same
          simp [same.1] at notZero
      · rw [read]

theorem parseNumber_itoa (number : ℤ) (ends : EndsNumeral rest) :
    parseNumber (Text.itoa number ++ rest) = some (Text.itoa number, rest) := by
  have noFraction : fractionPart rest = some ([], rest) := by
    unfold fractionPart
    split
    · next char => exact absurd rfl (ends '.' rfl).2.1
    · rfl
  have noExponent : exponentPart rest = some ([], rest) := by
    cases rest with
    | nil => rfl
    | cons char rest =>
      rcases ends char rfl with ⟨_, _, notSmall, notCapital⟩
      simp [exponentPart, notSmall, notCapital]
  have integer := integerPart_toDigits number.natAbs ends
  unfold Text.itoa
  split
  · simp [parseNumber, integer, noFraction, noExponent]
  · have unsigned : ∀ tail, Nat.toDigits 10 number.natAbs ++ rest ≠ '-' :: tail := by
      intro tail signed
      have digit : ∀ char ∈ Nat.toDigits 10 number.natAbs, char.isDigit = true := fun char mem =>
        Text.isDigit_of_mem_toDigits mem
      cases digits : Nat.toDigits 10 number.natAbs with
      | nil => exact absurd digits Nat.toDigits_ne_nil
      | cons first others =>
        rw [digits] at signed digit
        have minus := digit first mem_cons_self
        rw [(List.cons.inj signed).1] at minus
        cases minus
    unfold parseNumber
    split
    next sign tail same =>
      split at same
      · next signed => exact absurd signed (unsigned _)
      · cases same
        simp [integer, noFraction, noExponent]

end Numerals

section Values

variable (dialect : Dialect) {rest : Text}

theorem skipBlank_cons (text : Text)
    (visible : char ≠ ' ' ∧ char ≠ '\t' ∧ char ≠ '\n' ∧ char ≠ '\r') :
    skipBlank (char :: text) = char :: text := by
  simp [skipBlank, visible]

theorem parseValue_scalar (depth : ℕ) (text : Text)
    (visible : char ≠ ' ' ∧ char ≠ '\t' ∧ char ≠ '\n' ∧ char ≠ '\r')
    (notOpening : char ≠ '[' ∧ char ≠ '\x7b') :
    parseValue dialect depth (char :: text) = parseScalar dialect (char :: text) := by
  cases depth with
  | zero => rw [parseValue, skipBlank_cons text visible]
  | succ depth =>
    rw [parseValue, skipBlank_cons text visible]
    split
    · next same => exact absurd (List.cons.inj same).1 notOpening.1
    · next same => exact absurd (List.cons.inj same).1 notOpening.2
    · rfl

theorem parseValue_quote (depth : ℕ) {content : Text} (plain : ∀ char ∈ content, IsPlain char) :
    parseValue dialect depth (quote content ++ rest) = some (.string content, rest) := by
  rw [quote_of_isPlain plain, cons_append, cons_append,
    parseValue_scalar dialect depth _ (by decide) (by decide)]
  simp [parseScalar, parseString_of_isPlain dialect plain]

theorem exists_itoa_eq_cons (number : ℤ) :
    ∃ first others, Text.itoa number = first :: others ∧ (first = '-' ∨ first.isDigit = true) := by
  have digits : ∃ first others, Nat.toDigits 10 number.natAbs = first :: others ∧
      first.isDigit = true := by
    cases digits : Nat.toDigits 10 number.natAbs with
    | nil => exact absurd digits Nat.toDigits_ne_nil
    | cons first others =>
      refine ⟨first, others, rfl, ?_⟩
      apply @Text.isDigit_of_mem_toDigits number.natAbs
      rw [digits]
      exact mem_cons_self
  unfold Text.itoa
  split
  · exact ⟨'-', _, rfl, .inl rfl⟩
  · rcases digits with ⟨first, others, same, digit⟩
    exact ⟨first, others, same, .inr digit⟩

theorem parseScalar_of_number {first : Char} {text : Text}
    (starts : first = '-' ∨ first.isDigit = true) :
    parseScalar dialect (first :: text) = (parseNumber (first :: text)).bind fun read =>
      if dialect.acceptsNumber read.1 then some (.number read.1, read.2) else none := by
  have other (char : Char) (notMinus : char ≠ '-') (notDigit : char.isDigit = false) :
      first ≠ char := by
    rintro rfl
    rcases starts with rfl | digit
    · exact notMinus rfl
    · simp [digit] at notDigit
  unfold parseScalar
  split
  · next same => exact absurd (List.cons.inj same).1 (other 'n' (by decide) (by decide))
  · next same => exact absurd (List.cons.inj same).1 (other 't' (by decide) (by decide))
  · next same => exact absurd (List.cons.inj same).1 (other 'f' (by decide) (by decide))
  · next same => exact absurd (List.cons.inj same).1 (other '"' (by decide) (by decide))
  · rfl

theorem parseValue_itoa (depth : ℕ) (number : ℤ) (ends : EndsNumeral rest)
    (accepts : dialect.acceptsNumber (Text.itoa number) = true) :
    parseValue dialect depth (Text.itoa number ++ rest) =
      some (.number (Text.itoa number), rest) := by
  have read := parseNumber_itoa number ends
  rcases exists_itoa_eq_cons number with ⟨first, others, same, starts⟩
  have other (char : Char) (notMinus : char ≠ '-') (notDigit : char.isDigit = false) :
      first ≠ char := by
    rintro rfl
    rcases starts with rfl | digit
    · exact notMinus rfl
    · simp [digit] at notDigit
  rw [same, cons_append] at read ⊢
  rw [parseValue_scalar dialect depth _, parseScalar_of_number dialect starts, read]
  · rw [same] at accepts
    simp [accepts]
  · exact ⟨other ' ' (by decide) (by decide), other '\t' (by decide) (by decide),
      other '\n' (by decide) (by decide), other '\r' (by decide) (by decide)⟩
  · exact ⟨other '[' (by decide) (by decide), other '\x7b' (by decide) (by decide)⟩

end Values

section Objects

def memberText : Text × (Text ⊕ ℤ) → Text
  | (key, .inl content) => quote key ++ ':' :: quote content
  | (key, .inr value) => quote key ++ ':' :: Text.itoa value

def memberValue : Text × (Text ⊕ ℤ) → Text × Json
  | (key, .inl content) => (key, .string content)
  | (key, .inr value) => (key, .number (Text.itoa value))

theorem dumpFlat_eq (members : List (Text × (Text ⊕ ℤ))) :
    dumpFlat members = '\x7b' :: [','].intercalate (members.map memberText) ++ ['\x7d'] :=
  rfl

def Readable (dialect : Dialect) : Text × (Text ⊕ ℤ) → Prop
  | (key, .inl content) => (∀ char ∈ key, IsPlain char) ∧ ∀ char ∈ content, IsPlain char
  | (key, .inr value) =>
    (∀ char ∈ key, IsPlain char) ∧ dialect.acceptsNumber (Text.itoa value) = true

variable {dialect : Dialect} {depth : ℕ} {rest : Text}

theorem parseMember_quote {key : Text} {value : Json × Text} {text : Text}
    (plain : ∀ char ∈ key, IsPlain char) (read : parseValue dialect depth text = some value) :
    parseMember dialect (parseValue dialect depth) (quote key ++ ':' :: text) =
      some ((key, value.1), value.2) := by
  rw [quote_of_isPlain plain, cons_append, cons_append, parseMember, skipBlank_cons _ (by decide)]
  simp [parseString_of_isPlain dialect plain, skipBlank_cons _, read]

theorem parseMember_memberText {member : Text × (Text ⊕ ℤ)} (readable : Readable dialect member)
    (ends : EndsNumeral rest) :
    parseMember dialect (parseValue dialect depth) (memberText member ++ rest) =
      some (memberValue member, rest) := by
  rcases member with ⟨key, content | value⟩
  · have read : parseValue dialect depth (quote content ++ rest) = _ :=
      parseValue_quote dialect depth readable.2
    rw [memberText, append_assoc, cons_append, parseMember_quote readable.1 read]
    rfl
  · have read := parseValue_itoa dialect depth value ends readable.2
    rw [memberText, append_assoc, cons_append, parseMember_quote readable.1 read]
    rfl

variable {members : List (Text × (Text ⊕ ℤ))}

theorem parseItems_members {fuel : ℕ}
    (readable : ∀ member ∈ members, Readable dialect member) (notEmpty : members ≠ [])
    (enough : members.length ≤ fuel) :
    parseItems (parseMember dialect (parseValue dialect depth)) '\x7d' fuel
        ([','].intercalate (members.map memberText) ++ '\x7d' :: rest) =
      some (members.map memberValue, rest) := by
  induction members generalizing fuel with
  | nil => exact absurd rfl notEmpty
  | cons member members ih =>
    have first := readable member mem_cons_self
    rcases fuel with _ | fuel
    · cases enough
    · cases members with
      | nil =>
        have read : parseMember dialect (parseValue dialect depth)
            (memberText member ++ '\x7d' :: rest) = some (memberValue member, '\x7d' :: rest) :=
          parseMember_memberText first (by simp [EndsNumeral])
        simp [parseItems, intercalate_singleton, read, skipBlank]
      | cons second members =>
        have later := ih (fun member mem => readable member (mem_cons_of_mem _ mem))
          (cons_ne_nil _ _) (Nat.le_of_succ_le_succ enough)
        have read : parseMember dialect (parseValue dialect depth)
            (memberText member ++ (',' ::
              ([','].intercalate ((second :: members).map memberText) ++ '\x7d' :: rest))) =
            some (memberValue member, _) :=
          parseMember_memberText first (by simp [EndsNumeral])
        have text : [','].intercalate ((member :: second :: members).map memberText) ++
            '\x7d' :: rest = memberText member ++ (',' ::
              ([','].intercalate ((second :: members).map memberText) ++ '\x7d' :: rest)) := by
          simp
        rw [text, parseItems, read]
        simp only [Option.bind_eq_bind, Option.bind_some, skipBlank_cons _ (show ',' ≠ ' ' ∧ _ by decide)]
        rw [later]
        rfl

theorem exists_memberText_eq_cons (member : Text × (Text ⊕ ℤ)) :
    ∃ text, memberText member = '"' :: text := by
  rcases member with ⟨key, content | value⟩
  · exact ⟨_, rfl⟩
  · exact ⟨_, rfl⟩

theorem exists_intercalate_eq_cons (notEmpty : members ≠ []) :
    ∃ text, [','].intercalate (members.map memberText) = '"' :: text := by
  cases members with
  | nil => exact absurd rfl notEmpty
  | cons member members =>
    rcases exists_memberText_eq_cons member with ⟨text, quoted⟩
    cases members with
    | nil => exact ⟨text, by rw [map_singleton, intercalate_singleton, quoted]⟩
    | cons second members =>
      rw [map_cons, map_cons, intercalate_cons_cons, quoted]
      exact ⟨_, rfl⟩

theorem length_le_intercalate (members : List (Text × (Text ⊕ ℤ))) :
    members.length ≤ ([','].intercalate (members.map memberText)).length + 1 := by
  induction members with
  | nil => exact Nat.zero_le _
  | cons member members ih =>
    cases members with
    | nil => exact Nat.le_add_left 1 _
    | cons second members =>
      simp only [map_cons, intercalate_cons_cons, length_append, length_cons, length_nil] at ih ⊢
      omega

theorem parse_dumpFlat (notEmpty : members ≠ [])
    (readable : ∀ member ∈ members, Readable dialect member) (deep : dialect.maxDepth ≠ some 0) :
    parse dialect (dumpFlat members) = some (.object (members.map memberValue)) := by
  have depth : ∃ depth, dialect.maxDepth.getD (dumpFlat members).length = depth + 1 := by
    cases bound : dialect.maxDepth with
    | none => exact ⟨_, rfl⟩
    | some limit =>
      apply Nat.exists_eq_succ_of_ne_zero
      rintro rfl
      exact deep bound
  rcases depth with ⟨depth, isDepth⟩
  have items : parseItems (parseMember dialect (parseValue dialect depth)) '\x7d'
      ([','].intercalate (members.map memberText) ++ ['\x7d']).length
      ([','].intercalate (members.map memberText) ++ ['\x7d']) =
        some (members.map memberValue, []) :=
    parseItems_members readable notEmpty (by
      rw [length_append]
      exact length_le_intercalate members)
  rw [parse, isDepth, dumpFlat_eq, parseValue, cons_append, skipBlank_cons _ (by decide)]
  rcases exists_intercalate_eq_cons notEmpty with ⟨text, quoted⟩
  rw [quoted, cons_append] at items ⊢
  simp only [parseContainer, skipBlank_cons _ (show '"' ≠ ' ' ∧ _ by decide), items]
  rfl

end Objects

end Json
