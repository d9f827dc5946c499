import IotProxy.Lib.Encoding

/-!
# JSON

A JSON parser over characters, for the readers of several components. A `Dialect` holds what they
disagree on: how deep containers may nest, what a `\u` escape that is half of a surrogate pair
stands for, and which numbers are too large to be read at all.
-/

inductive Json where
  | null
  | bool (value : Bool)
  | number (literal : Text)
  | string (content : Text)
  | array (elements : List Json)
  | object (members : List (Text × Json))

namespace Json

/-- What JSON readers disagree on. -/
structure Dialect where
  /-- The number of containers that may be nested, if it is bounded. -/
  maxDepth : Option ℕ
  /-- The character that replaces an unpaired surrogate escape; `none` rejects it. -/
  unpairedSurrogate : Option Char
  acceptsNumber : Text → Bool := fun _ => true

def skipBlank (text : Text) : Text :=
  text.dropWhile fun char => char == ' ' || char == '\t' || char == '\n' || char == '\r'

inductive StringItem where
  | char (value : Char)
  | unit (value : ℕ)

def simpleEscape : Char → Option Char
  | '"' => some '"'
  | '\\' => some '\\'
  | '/' => some '/'
  | 'b' => some '\x08'
  | 'f' => some '\x0c'
  | 'n' => some '\n'
  | 'r' => some '\r'
  | 't' => some '\t'
  | _ => none

def stringItems : Text → Option (List StringItem × Text)
  | [] => none
  | '"' :: rest => some ([], rest)
  | '\\' :: 'u' :: first :: second :: third :: fourth :: rest => do
      let value := (← Text.hexDigit first) * 4096 + (← Text.hexDigit second) * 256
        + (← Text.hexDigit third) * 16 + (← Text.hexDigit fourth)
      let (items, rest) ← stringItems rest
      some (.unit value :: items, rest)
  | '\\' :: escaped :: rest => do
      let char ← simpleEscape escaped
      let (items, rest) ← stringItems rest
      some (.char char :: items, rest)
  | char :: rest =>
    if char.toNat < 0x20 || char == '\\' then none
    else do
      let (items, rest) ← stringItems rest
      some (.char char :: items, rest)

def joinSurrogates (dialect : Dialect) : List StringItem → Option Text
  | [] => some []
  | .char char :: items => (joinSurrogates dialect items).map (char :: ·)
  | .unit value :: items =>
    if 0xD800 ≤ value ∧ value ≤ 0xDFFF then
      match items with
      | .unit low :: rest =>
        if value ≤ 0xDBFF ∧ 0xDC00 ≤ low ∧ low ≤ 0xDFFF then
          (joinSurrogates dialect rest).map
            (Char.ofNat (0x10000 + (value - 0xD800) * 1024 + (low - 0xDC00)) :: ·)
        else do
          let replacement ← dialect.unpairedSurrogate
          (joinSurrogates dialect (.unit low :: rest)).map (replacement :: ·)
      | items => do
          let replacement ← dialect.unpairedSurrogate
          (joinSurrogates dialect items).map (replacement :: ·)
    else
      (joinSurrogates dialect items).map (Char.ofNat value :: ·)

def parseString (dialect : Dialect) (text : Text) : Option (Text × Text) := do
  let (items, rest) ← stringItems text
  let content ← joinSurrogates dialect items
  some (content, rest)

def spanDigits (text : Text) : Text × Text :=
  text.span Char.isDigit

def integerPart : Text → Option (Text × Text)
  | '0' :: rest => some (['0'], rest)
  | text =>
    match spanDigits text with
    | ([], _) => none
    | (digits, rest) => some (digits, rest)

def fractionPart : Text → Option (Text × Text)
  | '.' :: rest =>
    match spanDigits rest with
    | ([], _) => none
    | (digits, rest) => some ('.' :: digits, rest)
  | text => some ([], text)

def exponentSign : Text → Text × Text
  | '+' :: rest => (['+'], rest)
  | '-' :: rest => (['-'], rest)
  | text => ([], text)

def exponentPart : Text → Option (Text × Text)
  | [] => some ([], [])
  | char :: rest =>
    if char == 'e' || char == 'E' then
      match exponentSign rest with
      | (sign, rest) =>
        match spanDigits rest with
        | ([], _) => none
        | (digits, rest) => some (char :: sign ++ digits, rest)
    else some ([], char :: rest)

def parseNumber (text : Text) : Option (Text × Text) := do
  let (sign, rest) := match text with
    | '-' :: rest => (['-'], rest)
    | text => ([], text)
  let (integer, rest) ← integerPart rest
  let (fraction, rest) ← fractionPart rest
  let (exponent, rest) ← exponentPart rest
  some (sign ++ integer ++ fraction ++ exponent, rest)

def parseScalar (dialect : Dialect) : Text → Option (Json × Text)
  | 'n' :: 'u' :: 'l' :: 'l' :: rest => some (.null, rest)
  | 't' :: 'r' :: 'u' :: 'e' :: rest => some (.bool true, rest)
  | 'f' :: 'a' :: 'l' :: 's' :: 'e' :: rest => some (.bool false, rest)
  | '"' :: rest => (parseString dialect rest).map fun (content, rest) => (.string content, rest)
  | text => do
      let (literal, rest) ← parseNumber text
      if dialect.acceptsNumber literal then some (.number literal, rest) else none

def parseItems {α : Type} (item : Text → Option (α × Text)) (closing : Char) :
    ℕ → Text → Option (List α × Text)
  | 0, _ => none
  | fuel + 1, text => do
      let (value, rest) ← item text
      match skipBlank rest with
      | [] => none
      | char :: rest =>
        if char == closing then some ([value], rest)
        else if char == ',' then do
          let (values, rest) ← parseItems item closing fuel rest
          some (value :: values, rest)
        else none

def parseContainer {α : Type} (item : Text → Option (α × Text)) (closing : Char)
    (text : Text) : Option (List α × Text) :=
  match skipBlank text with
  | [] => none
  | char :: rest =>
    if char == closing then some ([], rest)
    else parseItems item closing (char :: rest).length (char :: rest)

def parseMember (dialect : Dialect) (value : Text → Option (Json × Text)) (text : Text) :
    Option ((Text × Json) × Text) :=
  match skipBlank text with
  | '"' :: rest => do
      let (key, rest) ← parseString dialect rest
      match skipBlank rest with
      | ':' :: rest => (value rest).map fun (content, rest) => ((key, content), rest)
      | _ => none
  | _ => none

/-- Read a value in which at most `depth` containers are nested. -/
def parseValue (dialect : Dialect) : ℕ → Text → Option (Json × Text)
  | 0, text => parseScalar dialect (skipBlank text)
  | depth + 1, text =>
    match skipBlank text with
    | '[' :: rest =>
      (parseContainer (parseValue dialect depth) ']' rest).map
        fun (elements, rest) => (.array elements, rest)
    | '\x7b' :: rest =>
      (parseContainer (parseMember dialect (parseValue dialect depth)) '\x7d' rest).map
        fun (members, rest) => (.object members, rest)
    | text => parseScalar dialect text

def parse (dialect : Dialect) (text : Text) : Option Json := do
  let (value, rest) ← parseValue dialect (dialect.maxDepth.getD text.length) text
  if (skipBlank rest).isEmpty then some value else none

section Numbers

/-- The digits of a number literal and the power of ten they are scaled by. The sign is
dropped. -/
def decimal (literal : Text) : ℕ × ℤ :=
  let (integer, rest) := spanDigits (literal.dropWhile (· == '-'))
  let (fraction, rest) := match rest with
    | '.' :: rest => spanDigits rest
    | rest => ([], rest)
  let exponent : ℤ := match rest with
    | _ :: rest =>
      match exponentSign rest with
      | (['-'], digits) => -(Nat.ofDigitChars 10 digits 0)
      | (_, digits) => Nat.ofDigitChars 10 digits 0
    | [] => 0
  (Nat.ofDigitChars 10 (integer ++ fraction) 0, exponent - fraction.length)

/-- Whether the number rounds to a finite double: it stays below the midpoint between the
largest one and the next power of two. -/
def fitsDouble (literal : Text) : Bool :=
  let (digits, exponent) := decimal literal
  digits * 10 ^ exponent.toNat < (2 ^ 1024 - 2 ^ 970) * 10 ^ (-exponent).toNat

/-- A literal without sign, fraction and exponent that fits 64 bits. -/
def unsigned? (literal : Text) : Option ℕ :=
  if literal.all Char.isDigit && Nat.ofDigitChars 10 literal 0 < 2 ^ 64 then
    some (Nat.ofDigitChars 10 literal 0)
  else none

theorem unsigned?_itoa {number : ℕ} (fits : number < 2 ^ 64) :
    unsigned? (Text.itoa number) = some number := by
  have allDigits : (Nat.toDigits 10 number).all Char.isDigit = true := by
    rw [List.all_eq_true]
    intro char mem
    exact Text.isDigit_of_mem_toDigits mem
  have digits : Text.itoa number = Nat.toDigits 10 number := by simp [Text.itoa]
  rw [unsigned?, digits, allDigits]
  simpa using fits

end Numbers

section Dump

def escape (char : Char) : Text :=
  match char with
  | '"' => ['\\', '"']
  | '\\' => ['\\', '\\']
  | '\x08' => ['\\', 'b']
  | '\x0c' => ['\\', 'f']
  | '\n' => ['\\', 'n']
  | '\r' => ['\\', 'r']
  | '\t' => ['\\', 't']
  | char =>
    if char.toNat < 0x20 then
      ['\\', 'u', '0', '0', Hex.digit (char.toNat / 16), Hex.digit (char.toNat % 16)]
    else [char]

def quote (content : Text) : Text :=
  '"' :: content.flatMap escape ++ ['"']

def dumpFlat (members : List (Text × (Text ⊕ ℤ))) : Text :=
  let dumpMember : Text × (Text ⊕ ℤ) → Text
    | (key, .inl content) => quote key ++ ':' :: quote content
    | (key, .inr value) => quote key ++ ':' :: Text.itoa value
  '\x7b' :: [','].intercalate (members.map dumpMember) ++ ['\x7d']

end Dump

end Json
