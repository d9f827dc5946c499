import IotProxy.Lib.JsonDump
import IotProxy.Lib.Throwing

/-!
# The nlohmann library

The JSON library of the C++ programs. Its parser takes any nesting depth, no lone surrogates and no
numbers beyond the doubles, and of two equal keys the last one counts.

A parsed document is read in two ways. `is_string()` and the like test a value and `get<T>()`
converts it; `value(key, default)` looks a key up and converts what it finds. The conversions throw
when the value has another type, and `value` throws also when the document is not an object.

Integers are stored as 64-bit numbers if they fit and as doubles otherwise, and converted as
`static_cast` converts them.
-/

namespace IotProxy.Proxy

def nlohmannJson : Json.Dialect where
  maxDepth := none
  unpairedSurrogate := none
  acceptsNumber := Json.fitsDouble

def skipBom : Bytes → Bytes
  | 0xEF :: 0xBB :: 0xBF :: rest => rest
  | bytes => bytes

/-- The library's parser. It takes a NUL byte for the end of the input. -/
def nlohmannParse (bytes : Bytes) : Option Json :=
  match Utf8.decode (skipBom (bytes.takeWhile (· != 0))) with
  | none => none
  | some text => Json.parse nlohmannJson text

/-- Extraction from a stream reads one value; what follows it does not matter. -/
def nlohmannExtract (bytes : Bytes) : Option Json :=
  let runes := Utf8.runes (skipBom (bytes.takeWhile (· != 0)))
  let text := (runes.takeWhile Option.isSome).reduceOption
  (Json.parseValue nlohmannJson text.length text).map Prod.fst

/-- What the programs get from the library: documents, and the integers to which stored doubles are
cast. -/
structure JsonLibrary where
  parse : Bytes → Option Json
  extract : Bytes → Option Json
  truncate : Text → ℤ

/-- The library as it parses. No result depends on it, and it is only for examples, in which no
double is cast. -/
def nlohmann : JsonLibrary where
  parse := nlohmannParse
  extract := nlohmannExtract
  truncate _ := 0

def findMember (doc : List (Text × Json)) (key : String) : Option Json :=
  (doc.reverse.find? fun member => member.1 == key.toList).map Prod.snd

end IotProxy.Proxy

namespace Json

open IotProxy.Proxy

inductive Kind where
  | null
  | boolean
  | number
  | string
  | array
  | object
  deriving DecidableEq

def kind : Json → Kind
  | .null => .null
  | .bool _ => .boolean
  | .number _ => .number
  | .string _ => .string
  | .array _ => .array
  | .object _ => .object

inductive AccessError where
  /-- `type_error.302`: a conversion of a value of another type. -/
  | wrongType (expected found : Kind)
  /-- `type_error.306`: `value()` of a document that is not an object. -/
  | notAnObject (found : Kind)
  deriving DecidableEq

/-- The value under a key. A document that is not an object contains no key. -/
def member (doc : Json) (key : String) : Option Json :=
  match doc with
  | .object members => findMember members key
  | _ => none

section Conversions

inductive StoredNumber where
  | unsigned (value : ℕ)
  | integer (value : ℤ)
  | float

def storedNumber (literal : Text) : StoredNumber :=
  match unsigned? literal with
  | some value => .unsigned value
  | none =>
    match literal with
    | '-' :: digits =>
      if digits.all Char.isDigit && Nat.ofDigitChars 10 digits 0 ≤ 2 ^ 63 then
        .integer (-(Nat.ofDigitChars 10 digits 0 : ℤ))
      else .float
    | _ => .float

def isString (doc : Json) : Bool :=
  doc.kind = .string

def isNumberUnsigned : Json → Bool
  | .number literal =>
    match storedNumber literal with
    | .unsigned _ => true
    | _ => false
  | _ => false

def isNumberInteger : Json → Bool
  | .number literal =>
    match storedNumber literal with
    | .float => false
    | _ => true
  | _ => false

def getString : Json → Except AccessError Text
  | .string content => .ok content
  | doc => .error (.wrongType .string doc.kind)

def getBool : Json → Except AccessError Bool
  | .bool value => .ok value
  | doc => .error (.wrongType .boolean doc.kind)

variable (truncate : Text → ℤ)

/-- A number before it is cast. For most integer types a boolean is a number as well. -/
def getNumber : Json → Except AccessError ℤ
  | .number literal =>
    .ok <| match storedNumber literal with
      | .unsigned value => value
      | .integer value => value
      | .float => truncate literal
  | .bool value => .ok value.toNat
  | doc => .error (.wrongType .number doc.kind)

def getUnsigned (bits : ℕ) (doc : Json) : Except AccessError ℕ :=
  (fun value => (value % 2 ^ bits).toNat) <$> doc.getNumber truncate

def getSigned (bits : ℕ) (doc : Json) : Except AccessError ℤ :=
  (fun value => (value + 2 ^ (bits - 1)) % 2 ^ bits - 2 ^ (bits - 1)) <$> doc.getNumber truncate

/-- The conversion to the type in which the library stores integers takes no booleans. -/
def getInt64 (doc : Json) : Except AccessError ℤ :=
  match doc with
  | .bool _ => .error (.wrongType .number .boolean)
  | doc => doc.getSigned truncate 64

end Conversions

def value {α : Type} (doc : Json) (key : String) (get : Json → Except AccessError α)
    (default : α) : Except AccessError α :=
  match doc with
  | .object members =>
    match findMember members key with
    | some item => get item
    | none => .ok default
  | doc => .error (.notAnObject doc.kind)

/-- `contains(key) && at(key).is_string()`, and then the string. -/
def stringMember (doc : Json) (key : String) : Except AccessError (Option Text) :=
  match doc.member key with
  | some item => if item.isString then some <$> item.getString else pure none
  | none => pure none

section Returns

open Except

variable {doc : Json}

theorem returns_getString : doc.getString.Returns ↔ doc.kind ∈ [Kind.string] := by
  cases doc <;> simp [getString, kind]

theorem returns_getBool : doc.getBool.Returns ↔ doc.kind ∈ [Kind.boolean] := by
  cases doc <;> simp [getBool, kind]

variable {truncate : Text → ℤ}

theorem returns_getNumber :
    (doc.getNumber truncate).Returns ↔ doc.kind ∈ [Kind.number, .boolean] := by
  cases doc <;> simp [getNumber, kind]

theorem returns_getUnsigned {bits : ℕ} :
    (doc.getUnsigned truncate bits).Returns ↔ doc.kind ∈ [Kind.number, .boolean] := by
  rw [getUnsigned, returns_map, returns_getNumber]

theorem returns_getSigned {bits : ℕ} :
    (doc.getSigned truncate bits).Returns ↔ doc.kind ∈ [Kind.number, .boolean] := by
  rw [getSigned, returns_map, returns_getNumber]

/-- The document is an object in which the key, if there is one, has a value of these kinds. -/
def FieldIs (doc : Json) (key : String) (kinds : List Kind) : Prop :=
  doc.kind = .object ∧ ∀ item, doc.member key = some item → item.kind ∈ kinds

theorem returns_value {α : Type} {get : Json → Except AccessError α} {kinds : List Kind}
    (converts : ∀ {item : Json}, (get item).Returns ↔ item.kind ∈ kinds) (key : String)
    (default : α) : (doc.value key get default).Returns ↔ doc.FieldIs key kinds := by
  cases doc with
  | object members =>
    rw [value, FieldIs, member]
    cases findMember members key with
    | none => simp [kind]
    | some item => simp [kind, converts]
  | _ => simp [value, FieldIs, kind]

@[simp]
theorem returns_stringMember (key : String) : (doc.stringMember key).Returns := by
  rw [stringMember]
  cases doc.member key with
  | none => simp
  | some item =>
    by_cases string : item.isString = true
    · rw [isString, decide_eq_true_iff] at string
      simp [isString, string, returns_getString]
    · simp [string]

end Returns

end Json
