/-
  Kenbak1.Proofs.Image.Grammar

  The grammar of image text. A text is a list of tokens, addresses and bytes, found line by line
  (`tokens`); a token stores at most one cell (`Stores`), or fails (`Fails`), at the address that
  the tokens before it have led to. `parse_eq_readTokens` takes the reading of lines and words down
  to that of tokens. It gives the cells of all of them if none fails (`readTokens_eq_ok_iff`), and
  the fault of the first that does otherwise (`readTokens_eq_error_iff`).
-/
import Kenbak1.Image.Text
import Kenbak1.Proofs.Blank
import Kenbak1.Proofs.Numeral

namespace Kenbak1
namespace Image

/-! ## Lines and tokens -/

/-- The lines of a text. A line ends with a line feed, alone or behind a carriage return, or
    with the text. -/
def textLines : List Char → List (List Char)
  | [] => []
  | '\n' :: rest => [] :: textLines rest
  | '\r' :: '\n' :: rest => [] :: textLines rest
  | c :: rest =>
    match textLines rest with
    | [] => [[c]]
    | line :: more => (c :: line) :: more

/-- A word of an image, with the number of its line. -/
inductive Token where
  /-- Where the next byte goes. -/
  | address (line : Nat) (text : List Char)
  | byte (line : Nat) (text : List Char)

/-- The tokens of a line. A comment is no part of them. What stands before the first colon is
    an address, all other words are bytes. -/
def lineTokens (line : Nat) (text : List Char) : List Token :=
  let code := ((text.takeWhile (· ≠ ';')).dropWhile isBlank).rdropWhile isBlank
  let bytes := fun part : List Char =>
    ((part.splitOnP isBlank).filter (· ≠ [])).map (Token.byte line)
  if ':' ∈ code then
    let before := code.takeWhile (· ≠ ':')
    .address line ((before.dropWhile isBlank).rdropWhile isBlank)
      :: bytes (code.dropWhile (· ≠ ':')).tail
  else bytes code

/-- The tokens of lines, the first of them with the number `first`. -/
def tokensFrom (first : Nat) (lines : List (List Char)) : List Token :=
  (lines.zipIdx first).flatMap fun entry => lineTokens entry.2 entry.1

/-- The tokens of a text, in reading order. -/
def tokens (text : String) : List Token :=
  tokensFrom 1 (textLines text.toList)

/-! ## What tokens store -/

/-- A token, reached with an address, stores cells and leads to the next address. -/
inductive Stores : (address : Nat) → Token → List (UInt8 × UInt8) → (next : Nat) → Prop
  | address {a line : Nat} {text : List Char} {v : UInt8} (octal : IsOctal text v) :
      Stores a (.address line text) [] v.toNat
  | byte {a line : Nat} {text : List Char} {v : UInt8} (room : a < memorySize)
      (octal : IsOctal text v) :
      Stores a (.byte line text) [(a.toUInt8, v)] (a + 1)

/-- Tokens store cells one after another. -/
inductive StoresAll : (address : Nat) → List Token → List (UInt8 × UInt8) → (next : Nat) → Prop
  | nil {a : Nat} : StoresAll a [] [] a
  | cons {a n m : Nat} {token : Token} {rest : List Token} {cells more : List (UInt8 × UInt8)}
      (first : Stores a token cells n) (others : StoresAll n rest more m) :
      StoresAll a (token :: rest) (cells ++ more) m

/-- A text of a line is no octal byte: too large if its leading digits are, else malformed. -/
inductive BadNumber (line : Nat) (text : List Char) : ImageError → Prop
  | outOfRange (exceeds : ExceedsByte text) :
      BadNumber line text (.outOfRange line (String.ofList text))
  | notOctal (malformed : ∀ v, ¬ IsOctal text v) (fits : ¬ ExceedsByte text) :
      BadNumber line text (.notOctal line (String.ofList text))

/-- A token, reached with an address, fails. Behind the last address a byte fails whatever it
    says. -/
inductive Fails : (address : Nat) → Token → ImageError → Prop
  | address {a line : Nat} {text : List Char} {e : ImageError} (bad : BadNumber line text e) :
      Fails a (.address line text) e
  | byte {a line : Nat} {text : List Char} {e : ImageError} (room : a < memorySize)
      (bad : BadNumber line text e) :
      Fails a (.byte line text) e
  | pastEnd {a line : Nat} {text : List Char} (full : memorySize ≤ a) :
      Fails a (.byte line text) (.pastEnd line)

/-- The first token that fails, behind tokens that store. -/
def FirstFails (a : Nat) (tokens : List Token) (e : ImageError) : Prop :=
  ∃ before token behind cells n, tokens = before ++ token :: behind ∧
    StoresAll a before cells n ∧ Fails n token e

/-! ## Every text is one or the other -/

theorem octal_or_bad (line : Nat) (text : List Char) :
    (∃ v, IsOctal text v) ∨ ∃ e, BadNumber line text e := by
  by_cases hoctal : ∃ v, IsOctal text v
  · exact .inl hoctal
  · by_cases hexceeds : ExceedsByte text
    · exact .inr ⟨_, .outOfRange hexceeds⟩
    · exact .inr ⟨_, .notOctal (not_exists.mp hoctal) hexceeds⟩

theorem stores_or_fails (a : Nat) (token : Token) :
    (∃ cells n, Stores a token cells n) ∨ ∃ e, Fails a token e := by
  cases token with
  | address line text =>
    rcases octal_or_bad line text with ⟨v, hv⟩ | ⟨e, he⟩
    · exact .inl ⟨_, _, .address hv⟩
    · exact .inr ⟨e, .address he⟩
  | byte line text =>
    by_cases hroom : a < memorySize
    · rcases octal_or_bad line text with ⟨v, hv⟩ | ⟨e, he⟩
      · exact .inl ⟨_, _, .byte hroom hv⟩
      · exact .inr ⟨e, .byte hroom he⟩
    · exact .inr ⟨_, .pastEnd (Nat.not_lt.mp hroom)⟩

theorem storesAll_or_firstFails (a : Nat) (tokens : List Token) :
    (∃ cells n, StoresAll a tokens cells n) ∨ ∃ e, FirstFails a tokens e := by
  induction tokens generalizing a with
  | nil => exact .inl ⟨[], a, .nil⟩
  | cons token rest ih =>
    rcases stores_or_fails a token with ⟨cells, n, hfirst⟩ | ⟨e, hfails⟩
    · rcases ih n with ⟨more, m, hothers⟩ | ⟨e, before, next, behind, more, m, rfl, hbefore, hfails⟩
      · exact .inl ⟨_, _, .cons hfirst hothers⟩
      · exact .inr ⟨e, token :: before, next, behind, _, m, rfl, .cons hfirst hbefore, hfails⟩
    · exact .inr ⟨e, [], token, rest, [], a, rfl, .nil, hfails⟩

/-! ## Reading tokens -/

theorem readNumber_of_isOctal {line : Nat} {text : List Char} {v : UInt8} (h : IsOctal text v) :
    readNumber line text = .ok v := by
  rw [readNumber, readOctal_eq_ok_iff.mpr h]

theorem readNumber_of_bad {line : Nat} {text : List Char} {e : ImageError}
    (h : BadNumber line text e) : readNumber line text = .error e := by
  cases h with
  | outOfRange hexceeds => rw [readNumber, readOctal_eq_tooLarge_iff.mpr hexceeds]
  | notOctal hmalformed hfits =>
    rw [readNumber, readOctal_eq_malformed_iff.mpr ⟨hmalformed, hfits⟩]

/-- Reads a token: the cells it stores and the next address. -/
def readToken (address : Nat) : Token → Except ImageError (List (UInt8 × UInt8) × Nat)
  | .address line text => do
    let start ← readNumber line text
    return ([], start.toNat)
  | .byte line text =>
    if address < memorySize then do
      let value ← readNumber line text
      return ([(address.toUInt8, value)], address + 1)
    else .error (.pastEnd line)

/-- Reads tokens one after another. -/
def readTokens : (address : Nat) → List Token → Except ImageError (List (UInt8 × UInt8) × Nat)
  | address, [] => .ok ([], address)
  | address, token :: rest => do
    let first ← readToken address token
    let others ← readTokens first.2 rest
    return (first.1 ++ others.1, others.2)

theorem readToken_of_stores {a n : Nat} {token : Token} {cells : List (UInt8 × UInt8)}
    (h : Stores a token cells n) : readToken a token = .ok (cells, n) := by
  cases h with
  | address hoctal =>
    rw [readToken, readNumber_of_isOctal hoctal]
    rfl
  | byte hroom hoctal =>
    rw [readToken, if_pos hroom, readNumber_of_isOctal hoctal]
    rfl

theorem readToken_of_fails {a : Nat} {token : Token} {e : ImageError} (h : Fails a token e) :
    readToken a token = .error e := by
  cases h with
  | address hbad =>
    rw [readToken, readNumber_of_bad hbad]
    rfl
  | byte hroom hbad =>
    rw [readToken, if_pos hroom, readNumber_of_bad hbad]
    rfl
  | pastEnd hfull => rw [readToken, if_neg (Nat.not_lt.mpr hfull)]

theorem readTokens_of_storesAll {a n : Nat} {tokens : List Token}
    {cells : List (UInt8 × UInt8)} (h : StoresAll a tokens cells n) :
    readTokens a tokens = .ok (cells, n) := by
  induction h with
  | nil => rfl
  | cons first _ ih =>
    rw [readTokens, readToken_of_stores first]
    simp only [bind, Except.bind, ih]
    rfl

/-- Reading tokens in two parts. -/
theorem readTokens_append (a : Nat) (before behind : List Token) :
    readTokens a (before ++ behind) = do
      let first ← readTokens a before
      let others ← readTokens first.2 behind
      return (first.1 ++ others.1, others.2) := by
  induction before generalizing a with
  | nil =>
    cases h : readTokens a behind <;> simp [readTokens, h, bind, Except.bind, pure, Except.pure]
  | cons token rest ih =>
    simp only [List.cons_append, readTokens, ih]
    cases readToken a token with
    | error e => rfl
    | ok first =>
      simp only [bind, Except.bind, pure, Except.pure]
      cases readTokens first.2 rest with
      | error e => rfl
      | ok second =>
        simp only
        cases readTokens second.2 behind with
        | error e => rfl
        | ok third => simp only [List.append_assoc]

theorem readTokens_of_firstFails {a : Nat} {tokens : List Token} {e : ImageError}
    (h : FirstFails a tokens e) : readTokens a tokens = .error e := by
  obtain ⟨before, token, behind, cells, n, rfl, hbefore, hfails⟩ := h
  have hrest : readTokens n (token :: behind) = .error e := by
    rw [readTokens, readToken_of_fails hfails]
    rfl
  rw [readTokens_append, readTokens_of_storesAll hbefore]
  simp only [bind, Except.bind, hrest]

theorem readTokens_eq_ok_iff {a n : Nat} {tokens : List Token} {cells : List (UInt8 × UInt8)} :
    readTokens a tokens = .ok (cells, n) ↔ StoresAll a tokens cells n := by
  refine ⟨fun h => ?_, readTokens_of_storesAll⟩
  rcases storesAll_or_firstFails a tokens with ⟨cells', n', hstores⟩ | ⟨e, hfails⟩
  · rw [readTokens_of_storesAll hstores] at h
    cases h
    exact hstores
  · rw [readTokens_of_firstFails hfails] at h
    cases h

theorem readTokens_eq_error_iff {a : Nat} {tokens : List Token} {e : ImageError} :
    readTokens a tokens = .error e ↔ FirstFails a tokens e := by
  refine ⟨fun h => ?_, readTokens_of_firstFails⟩
  rcases storesAll_or_firstFails a tokens with ⟨cells, n, hstores⟩ | ⟨e', hfails⟩
  · rw [readTokens_of_storesAll hstores] at h
    cases h
  · rw [readTokens_of_firstFails hfails] at h
    cases h
    exact hfails

/-! ## Reading lines -/

theorem readBytes_eq_readTokens (line a : Nat) (list : List (List Char)) :
    readBytes line a list = readTokens a (list.map (Token.byte line)) := by
  induction list generalizing a with
  | nil => rfl
  | cons word rest ih =>
    simp only [readBytes, List.map_cons, readTokens, readToken, ih]
    split
    · cases readNumber line word with
      | error e => rfl
      | ok v => rfl
    · rfl

theorem drop_length_takeWhile (p : Char → Bool) (text : List Char) :
    text.drop (text.takeWhile p).length = text.dropWhile p := by
  induction text with
  | nil => rfl
  | cons c rest ih =>
    by_cases hc : p c = true
    · simpa [hc] using ih
    · simp [hc]

theorem words_eq_splitOnP (text : List Char) :
    words text = (text.splitOnP isBlank).filter (· ≠ []) := by
  rw [words, pieces_eq_splitOnP]

theorem readLine_eq_readTokens (line a : Nat) (text : List Char) :
    readLine line a text = readTokens a (lineTokens line text) := by
  have hcode : codeOf text = ((text.takeWhile (· ≠ ';')).dropWhile isBlank).rdropWhile isBlank :=
    trim_eq_rdropWhile _
  unfold readLine lineTokens
  simp only [drop_length_takeWhile, ← hcode, ← trim_eq_rdropWhile, ← words_eq_splitOnP]
  -- From here on only the text before a comment matters.
  generalize codeOf text = code
  have hcolon : code.dropWhile (· ≠ ':') = [] ↔ ':' ∉ code := by
    rw [List.dropWhile_eq_nil_iff]
    exact ⟨fun h hmem => by simpa using h _ hmem,
      fun h c hc => by simpa using fun e : c = ':' => h (e ▸ hc)⟩
  split
  · next hnone =>
    rw [if_neg (hcolon.mp hnone)]
    exact readBytes_eq_readTokens line a (words code)
  · next c tail hsome =>
    have hmem : ':' ∈ code := by
      by_contra hnot
      rw [hcolon.mpr hnot] at hsome
      cases hsome
    rw [if_pos hmem, hsome, List.tail_cons, readTokens, readToken]
    cases readNumber line (trim (code.takeWhile (· ≠ ':'))) with
    | error e => rfl
    | ok v =>
      simp only [bind, Except.bind, pure, Except.pure, readBytes_eq_readTokens]
      cases readTokens v.toNat ((words tail).map (Token.byte line)) <;> rfl

theorem readLines_eq_readTokens (first a : Nat) (lines : List (List Char)) :
    readLines first a lines = (readTokens a (tokensFrom first lines)).map (·.1) := by
  induction lines generalizing first a with
  | nil => rfl
  | cons line rest ih =>
    have hcons : tokensFrom first (line :: rest)
        = lineTokens first line ++ tokensFrom (first + 1) rest := rfl
    rw [hcons, readTokens_append, readLines, readLine_eq_readTokens]
    cases readTokens a (lineTokens first line) with
    | error e => rfl
    | ok here =>
      simp only [bind, Except.bind, pure, Except.pure, ih]
      cases readTokens here.2 (tokensFrom (first + 1) rest) <;> rfl

/-! ## Line ends -/

/-- Lines as they are divided at line feeds alone, beside lines without the carriage returns
    that belong to line ends, and without the empty piece behind the last line feed. -/
inductive SameLines : List (List Char) → List (List Char) → Prop
  | nil : SameLines [[]] []
  | last (line : List Char) : SameLines [line] [line]
  | cons {piece line : List Char} {pieces lines : List (List Char)}
      (h : piece = line ∨ piece = line ++ ['\r']) (rest : SameLines pieces lines) :
      SameLines (piece :: pieces) (line :: lines)

theorem linesOf_cons {c : Char} (hc : c ≠ '\n') (rest : List Char) :
    linesOf (c :: rest) = (linesOf rest).modifyHead (c :: ·) := by
  unfold linesOf
  rw [pieces_eq_splitOnP, pieces_eq_splitOnP, List.splitOnP_cons_eq_if_modifyHead,
    if_neg (by simpa using hc)]

theorem sameLines_linesOf (text : List Char) : SameLines (linesOf text) (textLines text) := by
  fun_induction textLines text with
  | case1 => exact .nil
  | case2 rest ih => exact .cons (.inl rfl) ih
  | case3 rest ih =>
    have hlines : linesOf (['\r'] ++ '\n' :: rest) = ['\r'] :: linesOf rest :=
      linesOf_append_newline (by decide) rest
    exact hlines ▸ .cons (.inr rfl) ih
  -- A last line that no line feed ends.
  | case4 c rest hfeed _ hnone ih =>
    rw [linesOf_cons hfeed]
    rw [hnone] at ih
    generalize linesOf rest = pieces at ih ⊢
    cases ih
    exact .last [c]
  | case5 c rest hfeed _ line more hsome ih =>
    rw [linesOf_cons hfeed]
    rw [hsome] at ih
    generalize linesOf rest = pieces at ih ⊢
    cases ih with
    | last => exact .last _
    | cons h others =>
      refine .cons ?_ others
      rcases h with rfl | rfl
      · exact .inl rfl
      · exact .inr rfl

theorem codeOf_concat_return (line : List Char) : codeOf (line ++ ['\r']) = codeOf line := by
  unfold codeOf
  rw [List.takeWhile_append]
  split
  -- Without a comment the carriage return is a blank at the end of the line.
  · next hall =>
    rw [List.takeWhile_cons_of_pos (by decide), List.takeWhile_nil,
      trim_concat_blank (by decide), (List.takeWhile_prefix _).eq_of_length hall]
  · rfl

theorem readLines_of_sameLines {pieces lines : List (List Char)} (h : SameLines pieces lines)
    (first a : Nat) : readLines first a pieces = readLines first a lines := by
  induction h generalizing first a with
  | nil => rfl
  | last line => rfl
  | @cons piece line pieces lines h _ ih =>
    have hline : readLine first a piece = readLine first a line := by
      rcases h with rfl | rfl
      · rfl
      · unfold readLine
        rw [codeOf_concat_return]
    simp only [readLines, hline, ih]

/-- `parse` of a text is `readTokens` of its `tokens`. -/
theorem parse_eq_readTokens (text : String) (origin : UInt8) :
    parse text origin
      = (readTokens origin.toNat (tokens text)).map fun read => { cells := read.1 } := by
  rw [parse, readLines_of_sameLines (sameLines_linesOf text.toList), readLines_eq_readTokens]
  unfold tokens
  cases readTokens origin.toNat (tokensFrom 1 (textLines text.toList)) <;> rfl

/-! ## The grammar -/

/-- A text is accepted exactly if all its `tokens` store (`StoresAll`), and the image has just their
    cells in reading order; it is refused exactly if some token fails behind tokens that store
    (`FirstFails`), with the fault of that token. -/
theorem parse_follows_grammar (text : String) (origin : UInt8) :
    (∀ image, parse text origin = .ok image ↔
      ∃ next, StoresAll origin.toNat (tokens text) image.cells next) ∧
    (∀ e, parse text origin = .error e ↔ FirstFails origin.toNat (tokens text) e) := by
  rw [parse_eq_readTokens]
  constructor
  · intro image
    simp only [← readTokens_eq_ok_iff]
    cases readTokens origin.toNat (tokens text) with
    | error e => simp [Except.map]
    | ok read =>
      obtain ⟨cells, n⟩ := read
      obtain ⟨list⟩ := image
      simp [Except.map]
  · intro e
    rw [← readTokens_eq_error_iff]
    cases readTokens origin.toNat (tokens text) <;> simp [Except.map]

end Image
end Kenbak1
