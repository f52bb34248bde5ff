/-
  Kenbak1.Json.Skip

  Past a JSON value that nobody asks for. Only its form is checked: numbers may be of any
  size, texts may hold single surrogates, and lists and objects may be nested to any depth.
-/
import Kenbak1.Json.Number
import Kenbak1.Json.Text

namespace Kenbak1.Json.Reader

/-- Past a key and its colon. -/
def skipKey : Reader Unit := do
  match ← next with
  | none => failBeyond .endInObject
  | some '"' => do
    eat
    skipText
    colon
  | some _ => failBeyond .keyNotText

mutual

/-- Past a value. Each value, item and member takes one of `count`. -/
def skipValueWithin : (count : Nat) → Reader Unit
  | 0 => failHere .endInValue
  | count + 1 => do
    match ← next with
    | none => failBeyond .endInValue
    | some 'n' => do
      eat
      word ['u', 'l', 'l']
    | some 't' => do
      eat
      word ['r', 'u', 'e']
    | some 'f' => do
      eat
      word ['a', 'l', 's', 'e']
    | some '-' => do
      eat
      skipNumber
    | some '"' => do
      eat
      skipText
    | some '[' => do
      eat
      match ← next with
      | none => failBeyond .endInList
      | some ']' => eat
      | some _ => skipItems count
    | some '\x7b' => do
      eat
      match ← next with
      | none => failBeyond .endInObject
      | some '\x7d' => eat
      | some _ => skipMembers count
    | some c => if isDigit c then skipNumber else failBeyond .noValue

/-- Past items and the end of their list. -/
def skipItems : (count : Nat) → Reader Unit
  | 0 => failHere .endInList
  | count + 1 => do
    skipValueWithin count
    match ← next with
    | none => failBeyond .endInList
    | some ']' => eat
    | some ',' => do
      eat
      skipItems count
    | some _ => failBeyond .noListEnd

/-- Past members and the end of their object. -/
def skipMembers : (count : Nat) → Reader Unit
  | 0 => failHere .endInObject
  | count + 1 => do
    skipKey
    skipValueWithin count
    match ← next with
    | none => failBeyond .endInObject
    | some '\x7d' => eat
    | some ',' => do
      eat
      skipMembers count
    | some _ => failBeyond .noObjectEnd

end

/-- Past a value. -/
def skipValue : Reader Unit := do
  skipValueWithin (2 * (← get).rest.length + 2)

end Kenbak1.Json.Reader
