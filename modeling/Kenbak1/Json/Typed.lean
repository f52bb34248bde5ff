/-
  Kenbak1.Json.Typed

  Reading values of a known type: integers of a range, truth values, lists of bytes, records
  and variants. A value of another type is reported by what it is, after its first part has
  been read. A record is an object with its fields as members, or a list of the fields in
  their order; members with other keys are skipped.
-/
import Kenbak1.Json.Skip

namespace Kenbak1.Json

namespace Reader

/-! ## Single values -/

/-- Reports the value that follows, where `expected` was expected. -/
def unexpected {α : Type} (expected : String) : Reader α := do
  match ← next with
  | some 'n' => do
    eat
    word ['u', 'l', 'l']
    failHere (.wrongType .null expected)
  | some 't' => do
    eat
    word ['r', 'u', 'e']
    failHere (.wrongType (.bool true) expected)
  | some 'f' => do
    eat
    word ['a', 'l', 's', 'e']
    failHere (.wrongType (.bool false) expected)
  | some '-' => do
    eat
    let found ← number true
    failHere (.wrongType found.found expected)
  | some '"' => do
    eat
    let found ← text
    failHere (.wrongType (.text found) expected)
  | some '[' => failHere (.wrongType .sequence expected)
  | some '\x7b' => failHere (.wrongType .map expected)
  | some c =>
    if isDigit c then
      let found ← number false
      failHere (.wrongType found.found expected)
    else failBeyond .noValue
  | none => failBeyond .noValue

/-- The integers of a type. -/
structure Range where
  name : String
  least : Int
  greatest : Int

/-- An integer of a range. -/
def integer (range : Range) : Reader Int := do
  let found ← match ← next with
    | none => failBeyond .endInValue
    | some '-' => do
      eat
      number true
    | some c => if isDigit c then number false else unexpected range.name
  match found with
  | .integer n =>
    if range.least ≤ n ∧ n ≤ range.greatest then return n
    else failHere (.wrongValue n range.name)
  | .decimal _ => failHere (.wrongType found.found range.name)

/-- A byte. -/
def byte : Reader UInt8 := do
  return (← integer { name := "u8", least := 0, greatest := 0xff }).toNat.toUInt8

/-- A word of 16 bits. -/
def word16 : Reader UInt16 := do
  return (← integer { name := "u16", least := 0, greatest := 0xffff }).toNat.toUInt16

/-- A word of 32 bits. -/
def word32 : Reader UInt32 := do
  return (← integer { name := "u32", least := 0, greatest := 0xffffffff }).toNat.toUInt32

/-- A signed integer of 64 bits. -/
def signed64 : Reader Int64 := do
  let range : Range :=
    { name := "i64", least := -0x8000000000000000, greatest := 0x7fffffffffffffff }
  return (← integer range).toInt64

/-- A truth value. -/
def bool : Reader Bool := do
  match ← next with
  | none => failBeyond .endInValue
  | some 't' => do
    eat
    word ['r', 'u', 'e']
    return true
  | some 'f' => do
    eat
    word ['a', 'l', 's', 'e']
    return false
  | some _ => unexpected "a boolean"

/-- A value, or `null` for none. -/
def optional {α : Type} (read : Reader α) : Reader (Option α) := do
  match ← next with
  | some 'n' => do
    eat
    word ['u', 'l', 'l']
    return none
  | _ => return some (← read)

/-- The `null` that stands for no value at all. -/
def nothing : Reader Unit := do
  match ← next with
  | none => failBeyond .endInValue
  | some 'n' => do
    eat
    word ['u', 'l', 'l']
  | some _ => unexpected "unit"

/-! ## Lists -/

/-- Whether another item follows, to whose beginning the cursor moves. -/
def hasItem (first : Bool) : Reader Bool := do
  match ← next with
  | none => failBeyond .endInList
  | some ']' => return false
  | some ',' =>
    if first then return true
    else do
      eat
      match ← next with
      | some ']' => failBeyond .trailingComma
      | some _ => return true
      | none => failBeyond .endInValue
  | some _ => if first then return true else failBeyond .noListEnd

/-- Past the end of a list that should hold no more items. -/
def endList : Reader Unit := do
  match ← next with
  | some ']' => eat
  | some ',' => do
    eat
    match ← next with
    | some ']' => failBeyond .trailingComma
    | _ => failBeyond .trailingCharacters
  | some _ => failBeyond .trailingCharacters
  | none => failBeyond .endInList

/-- Past the opening bracket of a list, or a report of what stands in its place. -/
def beginList (expected : String) : Reader Unit := do
  match ← next with
  | none => failBeyond .endInValue
  | some '[' => eat
  | some _ => unexpected expected

/-- Bytes up to the end of the list, at most `count`. -/
def bytesWithin : (count : Nat) → (first : Bool) → Reader (List UInt8)
  | 0, _ => return []
  | count + 1, first => do
    if ← hasItem first then
      let item ← byte
      return item :: (← bytesWithin count false)
    else return []

/-- A list of bytes. -/
def bytes : Reader (List UInt8) := do
  beginList "a sequence"
  let items ← bytesWithin (← get).rest.length true
  endList
  return items

/-- `missing` more bytes, `found` having been read. -/
def bytesExactly (expected : String) : (missing found : Nat) → Reader (List UInt8)
  | 0, _ => return []
  | missing + 1, found => do
    if ← hasItem (found = 0) then
      let item ← byte
      return item :: (← bytesExactly expected missing (found + 1))
    else failBeyond (.wrongLength found expected)

/-- A list of a fixed number of bytes. -/
def byteArray (size : Nat) : Reader (List UInt8) := do
  let expected := "an array of length " ++ toString size
  beginList expected
  let items ← bytesExactly expected size 0
  endList
  return items

end Reader

/-! ## Records -/

/-- A field of a record: its key, and how its value is read into the record. -/
structure Field (ρ : Type) where
  key : String
  /-- The field may not be missing. -/
  required : Bool
  read : ρ → Reader ρ

/-- How a record is read. -/
structure RecordForm (ρ : Type) where
  name : String
  fields : List (Field ρ)
  /-- The record before any field has been read. -/
  initial : ρ
  /-- Fields at the end of a list may be missing. -/
  lenient : Bool

namespace Reader

variable {ρ : Type}

/-- Whether another member follows, to whose key the cursor moves. -/
def hasMember (first : Bool) : Reader Bool := do
  match ← next with
  | none => failBeyond .endInObject
  | some '\x7d' => return false
  | some '"' => if first then return true else failBeyond .noObjectEnd
  | some ',' =>
    if first then failBeyond .keyNotText
    else do
      eat
      match ← next with
      | some '"' => return true
      | some '\x7d' => failBeyond .trailingComma
      | some _ => failBeyond .keyNotText
      | none => failBeyond .endInValue
  | some _ => if first then failBeyond .keyNotText else failBeyond .noObjectEnd

/-- Reports a key that has come before. The report stands behind the blanks after the key,
    and behind the brace if the object ends there. -/
def duplicate (key : String) : Reader Unit := do
  match ← next with
  | some '\x7d' => failBeyond (.duplicateField key)
  | _ => failHere (.duplicateField key)

/-- Members up to the end of the object, which is passed; at most `count`. `seen` are the
    keys of the fields that have been read. -/
def membersWithin (form : RecordForm ρ) :
    (count : Nat) → (first : Bool) → (seen : List String) → ρ → Reader ρ
  | 0, _, _, _ => failHere .endInObject
  | count + 1, first, seen, record => do
    if ← hasMember first then
      eat
      let key ← text
      match form.fields.find? fun field => field.key = key with
      | some field =>
        if key ∈ seen then duplicate key
        colon
        membersWithin form count false (key :: seen) (← field.read record)
      | none =>
        colon
        skipValue
        membersWithin form count false seen record
    else
      match form.fields.find? fun field => field.required ∧ field.key ∉ seen with
      | some field => failBeyond (.missingField field.key)
      | none => do
        eat
        return record

/-- The length of a record as a list, in a message. -/
def expectedItems (form : RecordForm ρ) : String :=
  let count := form.fields.length
  "struct " ++ form.name ++ " with " ++ toString count
    ++ if count = 1 then " element" else " elements"

/-- The fields of a record as the items of a list, `found` of them having been read. -/
def items (form : RecordForm ρ) : (found : Nat) → List (Field ρ) → ρ → Reader ρ
  | _, [], record => return record
  | found, field :: rest, record => do
    if ← hasItem (found = 0) then
      items form (found + 1) rest (← field.read record)
    else if form.lenient then return record
    else failBeyond (.wrongLength found (expectedItems form))

/-- A record. -/
def record (form : RecordForm ρ) : Reader ρ := do
  match ← next with
  | none => failBeyond .endInValue
  | some '[' => do
    eat
    let read ← items form 0 form.fields form.initial
    endList
    return read
  | some '\x7b' => do
    eat
    membersWithin form ((← get).rest.length + 1) true [] form.initial
  | some _ => unexpected ("struct " ++ form.name)

end Reader

/-! ## Variants -/

/-- A variant: a value of its own, or one made from a byte. -/
inductive Variant (α : Type) where
  | bare (value : α)
  | ofByte (make : UInt8 → α)

namespace Reader

variable {α : Type}

/-- The variant whose name follows, the opening quote being the next character. -/
def variantName (variants : List (String × Variant α)) : Reader (Variant α) := do
  eat
  let name ← text
  match variants.find? fun variant => variant.1 = name with
  | some variant => return variant.2
  | none => failHere (.unknownVariant name (variants.map (·.1)))

/-- The variant whose name is the key of an object, past the opening brace. -/
def variantKey (variants : List (String × Variant α)) : Reader (Variant α) := do
  match ← next with
  | none => failBeyond .endInObject
  | some '"' => variantName variants
  | some '\x7d' => failBeyond .noValue
  | some _ => failBeyond .keyNotText

/-- A variant: its name, or an object with the name as its only key. -/
def variant (variants : List (String × Variant α)) : Reader α := do
  match ← next with
  | none => failBeyond .endInValue
  | some '"' =>
    match ← variantName variants with
    | .bare value => return value
    | .ofByte _ =>
      throw { problem := .wrongType .bareVariant "newtype variant", position := none }
  | some '\x7b' => do
    eat
    let found ← variantKey variants
    colon
    let value ← match found with
      | .bare value => do
        nothing
        pure value
      | .ofByte make => do
        pure (make (← byte))
    match ← next with
    | some '\x7d' => do
      eat
      return value
    | some _ => failHere .noValue
    | none => failHere .endInObject
  | some _ => failBeyond .noValue

end Reader

/-- Reads a text that holds one value and nothing else but blanks. -/
def parse {α : Type} (read : Reader α) (text : String) : Except Error α := do
  let (value, after) ← read.run (Cursor.ofText text)
  let rest := after.skipBlanks
  match rest.rest with
  | [] => return value
  | _ => throw { problem := .trailingCharacters, position := some rest.beyond }

end Kenbak1.Json
