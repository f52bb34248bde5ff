/-
  Kenbak1.Proofs.Json.Grammar

  The texts that are JSON values, as a grammar (`IsJson`). Blanks may stand wherever they may in
  JSON, a number may have a fraction and an exponent (`IsMagnitude`), and every character of a text
  may be escaped. A text whose value matters pairs its surrogates (`IsSpelling`); in one that only
  has to be a text they may stand alone (`IsText`).
-/
import Kenbak1.Json.Number
import Kenbak1.Json.Text

namespace Kenbak1.Json

open Reader (isDigit hexQuad? plainEscape?)

/-! ## Blanks -/

/-- A blank of a JSON text. -/
def isSpace (c : Char) : Bool :=
  c = '\n' || c = ' ' || c = '\t' || c = '\r'

/-- Nothing but blanks. -/
def Spaces (s : List Char) : Prop :=
  s.all isSpace = true

theorem spaces_nil : Spaces [] := rfl

theorem spaces_cons {c : Char} {s : List Char} :
    Spaces (c :: s) ↔ isSpace c = true ∧ Spaces s := by
  simp [Spaces]

/-! ## Numbers -/

/-- Digits, at least one. -/
def IsDigits (s : List Char) : Prop :=
  s ≠ [] ∧ s.all isDigit = true

/-- A number begins with digits. Its first digit is a zero only if it is the only one. -/
def IsWhole (s : List Char) : Prop :=
  IsDigits s ∧ (s.head? = some '0' → s = ['0'])

/-- A point and digits behind it, or nothing. -/
inductive IsFraction : List Char → Prop
  | none : IsFraction []
  | some {ds : List Char} (h : IsDigits ds) : IsFraction ('.' :: ds)

/-- A power of ten, or nothing. -/
inductive IsExponent : List Char → Prop
  | none : IsExponent []
  | some {mark : Char} {sign ds : List Char} (hmark : mark ∈ ['e', 'E'])
      (hsign : sign ∈ [[], ['+'], ['-']]) (h : IsDigits ds) : IsExponent (mark :: (sign ++ ds))

/-- A number without its sign. -/
inductive IsMagnitude : List Char → Prop
  | mk {whole fraction exponent : List Char} (hwhole : IsWhole whole)
      (hfraction : IsFraction fraction) (hexponent : IsExponent exponent) :
      IsMagnitude (whole ++ (fraction ++ exponent))

/-! ## Texts -/

/-- A character that stands for itself in a text. -/
def isPlain (c : Char) : Bool :=
  c ≠ '"' && c ≠ '\\' && !(c.toNat < 0x20)

theorem isPlain_iff (c : Char) : isPlain c = true ↔ c ≠ '"' ∧ c ≠ '\\' ∧ ¬ c.toNat < 0x20 := by
  simp [isPlain, and_assoc]

/-- Four hexadecimal digits and their value. -/
def IsQuad (digits : List Char) (n : Nat) : Prop :=
  digits.length = 4 ∧ hexQuad? digits = some n

/-- The ways to write a character: as it is, by a letter, by its number, and by two surrogates if
    its number has more than four digits. -/
inductive IsCharacter : Char → List Char → Prop
  | plain {c : Char} (h : isPlain c = true) : IsCharacter c [c]
  | letter {c letter : Char} (h : plainEscape? letter = some c) : IsCharacter c ['\\', letter]
  | number {digits : List Char} {n : Nat} (h : IsQuad digits n)
      (hscalar : n < 0xD800 ∨ 0xDFFF < n) : IsCharacter (Char.ofNat n) ('\\' :: 'u' :: digits)
  | pair {upper lower : List Char} {high low : Nat} (hupper : IsQuad upper high)
      (hlower : IsQuad lower low) (hhigh : 0xD800 ≤ high ∧ high ≤ 0xDBFF)
      (hlow : 0xDC00 ≤ low ∧ low ≤ 0xDFFF) :
      IsCharacter (Char.ofNat (0x10000 + (high - 0xD800) * 0x400 + (low - 0xDC00)))
        ('\\' :: 'u' :: (upper ++ '\\' :: 'u' :: lower))

/-- The ways to write the characters of a text. -/
inductive IsSpelling : List Char → List Char → Prop
  | nil : IsSpelling [] []
  | cons {c : Char} {cs s t : List Char} (h : IsCharacter c s) (hrest : IsSpelling cs t) :
      IsSpelling (c :: cs) (s ++ t)

/-- What may stand between quotes. -/
inductive IsText : List Char → Prop
  | nil : IsText []
  | plain {c : Char} {s : List Char} (h : isPlain c = true) (hrest : IsText s) : IsText (c :: s)
  | letter {letter c : Char} {s : List Char} (h : plainEscape? letter = some c)
      (hrest : IsText s) : IsText ('\\' :: letter :: s)
  | number {digits s : List Char} {n : Nat} (h : IsQuad digits n) (hrest : IsText s) :
      IsText ('\\' :: 'u' :: (digits ++ s))

/-! ## Values -/

/-- What a text may have to be. -/
inductive Part where
  | value
  /-- Values with commas between them. -/
  | elements
  /-- A key, a colon and a value. -/
  | member
  /-- Members with commas between them. -/
  | members

/-- The text of a JSON value, or of a part of one. It begins with no blank; behind each bracket,
    comma, colon, key and value there may be blanks. -/
inductive IsJson : Part → List Char → Prop
  | nullWord : IsJson .value ['n', 'u', 'l', 'l']
  | trueWord : IsJson .value ['t', 'r', 'u', 'e']
  | falseWord : IsJson .value ['f', 'a', 'l', 's', 'e']
  | number {s : List Char} (h : IsMagnitude s) : IsJson .value s
  | negative {s : List Char} (h : IsMagnitude s) : IsJson .value ('-' :: s)
  | text {s : List Char} (h : IsText s) : IsJson .value ('"' :: (s ++ ['"']))
  | emptyList {b : List Char} (hb : Spaces b) : IsJson .value ('[' :: (b ++ [']']))
  | list {b s : List Char} (hb : Spaces b) (h : IsJson .elements s) :
      IsJson .value ('[' :: (b ++ (s ++ [']'])))
  | emptyObject {b : List Char} (hb : Spaces b) : IsJson .value ('\x7b' :: (b ++ ['\x7d']))
  | object {b s : List Char} (hb : Spaces b) (h : IsJson .members s) :
      IsJson .value ('\x7b' :: (b ++ (s ++ ['\x7d'])))
  | lastElement {s b : List Char} (h : IsJson .value s) (hb : Spaces b) : IsJson .elements (s ++ b)
  | elements {s b b' rest : List Char} (h : IsJson .value s) (hb : Spaces b) (hb' : Spaces b')
      (hrest : IsJson .elements rest) : IsJson .elements (s ++ (b ++ ',' :: (b' ++ rest)))
  | member {key b b' s : List Char} (hkey : IsText key) (hb : Spaces b) (hb' : Spaces b')
      (h : IsJson .value s) : IsJson .member ('"' :: (key ++ '"' :: (b ++ ':' :: (b' ++ s))))
  | lastMember {s b : List Char} (h : IsJson .member s) (hb : Spaces b) : IsJson .members (s ++ b)
  | members {s b b' rest : List Char} (h : IsJson .member s) (hb : Spaces b) (hb' : Spaces b')
      (hrest : IsJson .members rest) : IsJson .members (s ++ (b ++ ',' :: (b' ++ rest)))

end Kenbak1.Json
