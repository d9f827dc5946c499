import IotProxy.Lib.Text

/-!
# Names of metadata files

A metadata file is named `%05d-<uuid>.metadata.json` by its version and a UUID. Readers recognise
such names by a slightly wider pattern, and a commit reads the version back from the location of the
current file.
-/

namespace IotProxy.Iceberg

open List Text

/-- The hyphens of a UUID stand at these positions; the other characters are hexadecimal. -/
def isUuid (text : Text) : Bool :=
  text.length == 36 && text.zipIdx.all fun (char, index) =>
    if index ∈ [8, 13, 18, 23] then char == '-' else (Text.hexDigit char).isSome

abbrev Uuid := { text : Text // isUuid text = true }

/-- A file name that is the same in a URL, in a path and in an object key. -/
structure PlainName (name : Text) : Prop where
  chars : ∀ char ∈ name, Text.isWord char ∨ char = '-' ∨ char = '.'
  ends : ∃ char, name.getLast? = some char ∧ Text.isWord char

def metadataSuffix : Text :=
  ".metadata.json".toList

/-- The pattern `^(\d+)-([\w-]{36})(?:\.\w+)?\.metadata\.json$` with its two groups. -/
def metadataFileName (name : Text) : Option (Text × Text) :=
  match name.span Char.isDigit with
  | (version, '-' :: rest) =>
    let id := rest.take 36
    let tail := rest.drop 36
    let codec := (tail.drop 1).take (tail.length - 1 - metadataSuffix.length)
    if version ≠ [] ∧ id.length = 36 ∧ id.all (fun char => Text.isWord char || char == '-') ∧
        (tail = metadataSuffix ∨
          codec ≠ [] ∧ codec.all Text.isWord ∧ tail = '.' :: codec ++ metadataSuffix) then
      some (version, id)
    else none
  | _ => none

def newMetadataName (version : ℤ) (uuid : Uuid) : Text :=
  Text.zeroPadded 5 version ++ '-' :: (uuid ++ metadataSuffix)

def baseName (location : Text) : Text :=
  location.rtakeWhile (· != '/')

def parseMetadataVersion (location : Text) : ℤ :=
  match metadataFileName (baseName location) with
  | some (version, id) => if isUuid id then (Text.atoi version).getD (-1) else -1
  | none => -1

def isVersionFile (version : ℤ) (name : Text) : Bool :=
  (Text.zeroPadded 5 version ++ ['-']).isPrefixOf name && (metadataFileName name).isSome

variable {name : Text}

section Characters

theorem PlainName.not_mem (plain : PlainName name) : '/' ∉ name := by
  intro mem
  rcases plain.chars '/' mem with word | dash | dot
  · exact absurd word (by decide)
  · exact absurd dash (by decide)
  · exact absurd dot (by decide)

variable {char : Char}

theorem isWord_of_isDigit (digit : char.isDigit = true) : isWord char = true := by
  simp [isWord, Char.isAlphanum, digit]

theorem isWord_of_isAlpha (letter : (char.isUpper || char.isLower) = true) :
    isWord char = true := by
  change ((char.isUpper || char.isLower) || char.isDigit || char == '_') = true
  rw [letter]
  rfl

theorem isWord_of_hexDigit (hex : (hexDigit char).isSome) : isWord char = true := by
  simp only [hexDigit] at hex
  split_ifs at hex with digit lower upper
  · apply isWord_of_isDigit
    simp only [Char.isDigit, Bool.and_eq_true, decide_eq_true_eq]
    exact ⟨digit.1, digit.2⟩
  · have isLower : char.isLower = true := by
      change (decide ('a'.val ≤ char.val) && decide (char.val ≤ 'z'.val)) = true
      rw [Bool.and_eq_true, decide_eq_true_eq, decide_eq_true_eq]
      exact ⟨lower.1, UInt32.le_trans lower.2 (by decide : 'f'.val ≤ 'z'.val)⟩
    exact isWord_of_isAlpha (by rw [isLower, Bool.or_true])
  · have isUpper : char.isUpper = true := by
      change decide ('A'.val ≤ char.val ∧ char.val ≤ 'Z'.val) = true
      rw [decide_eq_true_eq]
      exact ⟨upper.1, UInt32.le_trans upper.2 (by decide : 'F'.val ≤ 'Z'.val)⟩
    exact isWord_of_isAlpha (by rw [isUpper, Bool.true_or])
  · cases hex

theorem Uuid.length (uuid : Uuid) : (uuid : Text).length = 36 := by
  have valid := uuid.property
  simp only [isUuid, Bool.and_eq_true, beq_iff_eq] at valid
  exact valid.1

theorem Uuid.chars (uuid : Uuid) : ∀ char ∈ (uuid : Text), isWord char ∨ char = '-' := by
  have valid := uuid.property
  simp only [isUuid, Bool.and_eq_true, all_eq_true] at valid
  intro char mem
  rcases getElem_of_mem mem with ⟨index, bound, rfl⟩
  have here := valid.2 ((uuid : Text)[index], index) (by simp [mk_mem_zipIdx_iff_getElem?])
  dsimp only at here
  split at here
  · exact .inr (beq_iff_eq.mp here)
  · exact .inl (isWord_of_hexDigit here)

theorem plainChars_of_all
    (plain : name.all (fun char => isWord char || char == '-' || char == '.') = true) :
    ∀ char ∈ name, isWord char ∨ char = '-' ∨ char = '.' := by
  simpa [or_assoc] using plain

theorem plainName_append_suffix {front : Text}
    (chars : ∀ char ∈ front, isWord char ∨ char = '-' ∨ char = '.') :
    PlainName (front ++ metadataSuffix) where
  chars char mem := by
    rcases mem_append.mp mem with mem | mem
    · exact chars char mem
    · exact plainChars_of_all (by decide) char mem
  ends := ⟨'n', by rw [List.getLast?_append]; rfl, by decide⟩

end Characters

section Pattern

theorem span_isDigit {digits rest : Text} {stop : Char}
    (allDigits : ∀ char ∈ digits, char.isDigit = true) (notDigit : stop.isDigit = false) :
    (digits ++ stop :: rest).span Char.isDigit = (digits, stop :: rest) := by
  rw [span_eq_takeWhile_dropWhile, takeWhile_append_of_pos allDigits,
    dropWhile_append_of_pos allDigits]
  simp [notDigit]

theorem plainName_of_metadataFileName {groups : Text × Text}
    (matched : metadataFileName name = some groups) : PlainName name := by
  unfold metadataFileName at matched
  split at matched
  · next version rest split =>
      dsimp only at matched
      split_ifs at matched with guard
      rcases guard with ⟨_, _, idChars, tailShape⟩
      simp only [all_eq_true, Bool.or_eq_true, beq_iff_eq] at idChars tailShape
      rw [span_eq_takeWhile_dropWhile, Prod.mk.injEq] at split
      have versionDigits : ∀ char ∈ version, char.isDigit = true := by
        rw [← split.1]
        exact fun char mem => mem_takeWhile_imp mem
      have whole : name = version ++ '-' :: (rest.take 36 ++ rest.drop 36) := by
        rw [take_append_drop, ← split.1, ← split.2, takeWhile_append_dropWhile]
      have front : ∀ char ∈ version ++ '-' :: rest.take 36,
          isWord char ∨ char = '-' ∨ char = '.' := by
        intro char mem
        simp only [mem_append, mem_cons] at mem
        rcases mem with mem | rfl | mem
        · exact .inl (isWord_of_isDigit (versionDigits char mem))
        · exact .inr (.inl rfl)
        · exact (idChars char mem).imp_right .inl
      rcases tailShape with tail | ⟨_, codecChars, tail⟩
      · rw [whole, tail, ← cons_append, ← append_assoc]
        exact plainName_append_suffix front
      · rw [whole, tail, ← append_assoc, ← cons_append, ← append_assoc]
        apply plainName_append_suffix
        intro char mem
        rw [← cons_append, ← append_assoc] at mem
        rcases mem_append.mp mem with mem | mem
        · exact front char mem
        · rcases mem_cons.mp mem with rfl | mem
          · exact .inr (.inr rfl)
          · exact .inl (codecChars char mem)
  · cases matched

theorem metadataFileName_newMetadataName (version : ℕ) (uuid : Uuid) :
    metadataFileName (newMetadataName version uuid) =
      some (zeroPadded 5 version, (uuid : Text)) := by
  have idPart : ((uuid : Text) ++ metadataSuffix).take 36 = uuid := by
    rw [← uuid.length, take_left]
  have tailPart : ((uuid : Text) ++ metadataSuffix).drop 36 = metadataSuffix := by
    rw [← uuid.length, drop_left]
  rw [newMetadataName, metadataFileName, span_isDigit (zeroPadded_all_isDigit version) (by decide)]
  have idChars : (uuid : Text).all (fun char => isWord char || char == '-') = true := by
    simpa using uuid.chars
  simp only [idPart, tailPart]
  rw [if_pos ⟨zeroPadded_ne_nil version, uuid.length, idChars, .inl trivial⟩]

theorem plainName_newMetadataName (version : ℕ) (uuid : Uuid) :
    PlainName (newMetadataName version uuid) :=
  plainName_of_metadataFileName (metadataFileName_newMetadataName version uuid)

theorem baseName_join (folder : Text) (noSlash : '/' ∉ name) :
    baseName (folder ++ '/' :: name) = name := by
  have chars : ∀ char ∈ name.reverse, (char != '/') = true := by
    intro char mem
    rw [bne_iff_ne]
    rintro rfl
    exact noSlash (mem_reverse.mp mem)
  simp [baseName, List.rtakeWhile, takeWhile_append_of_pos chars]

theorem parseMetadataVersion_newMetadataName (folder : Text) {version : ℕ} (uuid : Uuid)
    (inRange : version < 2 ^ 63) :
    parseMetadataVersion (folder ++ '/' :: newMetadataName version uuid) = version := by
  rw [parseMetadataVersion, baseName_join _ (plainName_newMetadataName version uuid).not_mem,
    metadataFileName_newMetadataName]
  simp [uuid.property, atoi_zeroPadded inRange]

theorem isVersionFile_newMetadataName (version : ℕ) (uuid : Uuid) :
    isVersionFile version (newMetadataName version uuid) = true := by
  simp only [isVersionFile, metadataFileName_newMetadataName, Option.isSome_some, Bool.and_true,
    isPrefixOf_iff_prefix]
  exact ⟨uuid ++ metadataSuffix, by simp [newMetadataName]⟩

theorem plainName_of_isVersionFile {version : ℤ}
    (versionFile : isVersionFile version name = true) : PlainName name := by
  simp only [isVersionFile, Bool.and_eq_true] at versionFile
  rcases Option.isSome_iff_exists.mp versionFile.2 with ⟨groups, matched⟩
  exact plainName_of_metadataFileName matched

theorem newMetadataName_lt_cons (version : ℕ) (uuid : Uuid) {first : Char} (rest : Text)
    (letter : '9' < first) : newMetadataName version uuid < first :: rest := by
  rw [newMetadataName]
  cases shape : zeroPadded 5 (version : ℤ) with
  | nil => exact absurd shape (zeroPadded_ne_nil version)
  | cons digit digits =>
    have isDigit := zeroPadded_all_isDigit version digit (shape ▸ mem_cons_self)
    simp only [Char.isDigit, Bool.and_eq_true, decide_eq_true_eq] at isDigit
    exact cons_lt_cons_iff.mpr (.inl (UInt32.lt_of_le_of_lt isDigit.2 letter))

end Pattern

end IotProxy.Iceberg
