/-
  Kenbak1.Proofs.Json.Reading

  Reading back what was written. A reader that `Reads` a value takes it from the front of an input
  and leaves the rest; where in a text the input stands makes no difference to a reader that
  succeeds. Numbers (`reads_number`, `reads_integer`), bytes and words (`reads_byte`,
  `reads_word32`) and lists of bytes (`reads_bytes`) are read back from JSON text without blanks.
-/
import Kenbak1.Json
import Kenbak1.Json.Typed
import Kenbak1.Proofs.Json.Grammar

namespace Kenbak1.Json

namespace Reader

variable {α γ : Type}

/-! ## Readers that succeed -/

/-- The reader reads a value from an input and leaves a rest of it. -/
def Reads (r : Reader α) (input : List Char) (a : α) (rest : List Char) : Prop :=
  ∀ c : Cursor, c.rest = input → ∃ d : Cursor, d.rest = rest ∧ r.run c = .ok (a, d)

namespace Reads

variable {r : Reader α} {f : α → Reader γ} {s t u : List Char} {a : α} {b : γ}

theorem pure (a : α) (s : List Char) : Reads (pure a) s a s :=
  fun c hc => ⟨c, hc, rfl⟩

theorem bind (hr : Reads r s a t) (hf : Reads (f a) t b u) : Reads (r >>= f) s b u := by
  intro c hc
  obtain ⟨d, hd, hrun⟩ := hr c hc
  obtain ⟨e, he, hrun'⟩ := hf d hd
  refine ⟨e, he, ?_⟩
  rw [StateT.run_bind, hrun]
  exact hrun'

/-- What a reader does may depend on the input that it finds. -/
theorem get_bind {f : Cursor → Reader γ} (h : ∀ c, c.rest = s → Reads (f c) s b t) :
    Reads (get >>= f) s b t := by
  intro c hc
  obtain ⟨d, hd, hrun⟩ := h c hc c hc
  exact ⟨d, hd, hrun⟩

theorem peek (s : List Char) : Reads peek s s.head? s := by
  intro c hc
  exact ⟨c, hc, by rw [← hc]; rfl⟩

theorem eat (c : Char) (s : List Char) : Reads eat (c :: s) () s := by
  intro k hk
  refine ⟨k.advance, ?_, rfl⟩
  unfold Cursor.advance
  rw [hk]
  split
  · next h => cases h
  · next h => cases h; rfl
  · next h => cases h; rfl

/-- The next character, where no blank stands before it. -/
theorem next {c : Char} (hc : isSpace c = false) (s : List Char) :
    Reads next (c :: s) (some c) (c :: s) := by
  intro k hk
  simp only [isSpace, Bool.or_eq_false_iff, decide_eq_false_iff_not] at hc
  have hskip : k.skipBlanks = k := by
    unfold Cursor.skipBlanks
    rw [hk, Cursor.pastBlanks, if_neg hc.1.1.1, if_neg (by simp [hc])]
    rw [← hk]
  refine ⟨k, hk, ?_⟩
  show (Reader.peek.run k.skipBlanks) = _
  rw [hskip]
  show Except.ok (k.rest.head?, k) = _
  rw [hk]
  rfl

end Reads

/-! ## Blanks -/

/-- A blank is passed. -/
theorem pastBlanks_cons {c : Char} (hc : isSpace c = true) (line column : Nat) :
    ∃ line' column', ∀ s,
      Cursor.pastBlanks (c :: s) line column = Cursor.pastBlanks s line' column' := by
  simp only [isSpace, Bool.or_eq_true, decide_eq_true_eq] at hc
  by_cases hfeed : c = '\n'
  · exact ⟨line + 1, 0, fun s => by rw [Cursor.pastBlanks, if_pos hfeed]⟩
  · refine ⟨line, column + 1, fun s => ?_⟩
    rw [Cursor.pastBlanks, if_neg hfeed, if_pos (by simpa [hfeed, or_assoc] using hc)]

theorem exists_skipBlanks {b s : List Char} (hb : Spaces b) {c : Cursor} (hc : c.rest = b ++ s) :
    ∃ d : Cursor, d.rest = s ∧ c.skipBlanks = d.skipBlanks := by
  induction b generalizing c with
  | nil => exact ⟨c, hc, rfl⟩
  | cons x b ih =>
    obtain ⟨hx, hb⟩ := spaces_cons.mp hb
    obtain ⟨line, column, hpast⟩ := pastBlanks_cons hx c.line c.column
    obtain ⟨d, hd, heq⟩ := ih hb (c := { rest := b ++ s, line, column }) rfl
    refine ⟨d, hd, heq ▸ ?_⟩
    rw [Cursor.skipBlanks, hc, List.cons_append, hpast]
    rfl

/-- Blanks at the front of the input make no difference to the reader. -/
def SkipsBlanks (r : Reader α) : Prop :=
  ∀ b s : List Char, Spaces b → ∀ c : Cursor, c.rest = b ++ s →
    ∃ d : Cursor, d.rest = s ∧ r.run c = r.run d

namespace SkipsBlanks

variable {r : Reader α} {b s t : List Char} {a : α}

theorem next : SkipsBlanks next := by
  intro b s hb c hc
  obtain ⟨d, hd, heq⟩ := exists_skipBlanks hb hc
  refine ⟨d, hd, ?_⟩
  show Reader.peek.run c.skipBlanks = Reader.peek.run d.skipBlanks
  rw [heq]

/-- What matters is how a reader begins. -/
theorem bind {f : α → Reader γ} (h : SkipsBlanks r) : SkipsBlanks (r >>= f) := by
  intro b s hb c hc
  obtain ⟨d, hd, hrun⟩ := h b s hb c hc
  exact ⟨d, hd, by rw [StateT.run_bind, StateT.run_bind, hrun]⟩

theorem reads (h : SkipsBlanks r) (hb : Spaces b) (hr : Reads r s a t) : Reads r (b ++ s) a t := by
  intro c hc
  obtain ⟨d, hd, hrun⟩ := h b s hb c hc
  rw [hrun]
  exact hr d hd

end SkipsBlanks

/-- The next character, behind blanks. -/
theorem Reads.next_of_spaces {b : List Char} (hb : Spaces b) {c : Char} (hc : isSpace c = false)
    (s : List Char) : Reads Reader.next (b ++ c :: s) (some c) (c :: s) :=
  SkipsBlanks.next.reads hb (.next hc s)

/-! ## Numbers -/

theorem le_ofDigitChars (ds : List Char) (init : Nat) : init ≤ Nat.ofDigitChars 10 ds init := by
  induction ds generalizing init with
  | nil => exact Nat.le_refl _
  | cons d ds ih =>
    rw [Nat.ofDigitChars_cons]
    exact Nat.le_trans (by omega) (ih _)

/-- Digits are gathered to their value, where 64 bits hold it. -/
theorem gather_eq {ds : List Char} {init : Nat}
    (h : Nat.ofDigitChars 10 ds init ≤ maxSignificand) :
    gather init ds = (Nat.ofDigitChars 10 ds init, 0) := by
  induction ds generalizing init with
  | nil => rfl
  | cons d ds ih =>
    rw [Nat.ofDigitChars_cons] at h ⊢
    -- The reader and the library multiply in different orders.
    have hstep : init * 10 + (d.toNat - 48) = 10 * init + (d.toNat - '0'.toNat) := by
      rw [Nat.mul_comm]
      rfl
    unfold gather
    dsimp only
    rw [hstep, if_pos (Nat.le_trans (le_ofDigitChars ds _) h), ih h]

theorem digitChar_ne_zero : ∀ d < 10, 0 < d → Nat.digitChar d ≠ '0' := by decide

/-- A number that is not zero does not begin with a zero. -/
theorem head_toDigits_ne_zero {n : Nat} (h : 0 < n) {c : Char} {cs : List Char}
    (hn : Nat.toDigits 10 n = c :: cs) : c ≠ '0' := by
  -- The induction is on the number; its first digit is the first one of its tenth.
  induction n using Nat.strongRecOn generalizing cs with
  | ind n ih =>
    rw [Nat.toDigits_eq_if (by decide)] at hn
    split at hn
    · next hlt =>
      obtain rfl := (List.cons.inj hn).1
      exact digitChar_ne_zero n hlt h
    · next hge =>
      cases hfront : Nat.toDigits 10 (n / 10) with
      | nil => exact absurd hfront Nat.toDigits_ne_nil
      | cons d ds =>
        rw [hfront, List.cons_append] at hn
        obtain rfl := (List.cons.inj hn).1
        exact ih (n / 10) (by omega) (by omega) hfront

/-- Nothing that could belong to a number stands at the front of the input. -/
def NumberEnds (s : List Char) : Prop :=
  ∀ c ∈ s.head?, isDigit c = false ∧ c ∉ ['.', 'e', 'E']

/-- No digit stands at the front of the input. -/
def DigitsEnd (s : List Char) : Prop :=
  ∀ c ∈ s.head?, isDigit c = false

theorem NumberEnds.digitsEnd {s : List Char} (hs : NumberEnds s) : DigitsEnd s :=
  fun c hc => (hs c hc).1

/-- What separates and closes values ends a number. -/
theorem numberEnds_cons {c : Char} (hc : c ∈ [',', ']', '\x7d']) (s : List Char) :
    NumberEnds (c :: s) := by
  intro d hd
  obtain rfl := Option.some.inj hd
  simp only [List.mem_cons, List.not_mem_nil, or_false] at hc
  rcases hc with rfl | rfl | rfl <;> decide

theorem NumberEnds.spaces {b t : List Char} (hb : Spaces b) (ht : NumberEnds t) :
    NumberEnds (b ++ t) := by
  cases b with
  | nil => exact ht
  | cons c b =>
    intro d hd
    obtain rfl := Option.some.inj hd
    have hc := (spaces_cons.mp hb).1
    simp only [isSpace, Bool.or_eq_true, decide_eq_true_eq] at hc
    rcases hc with ((rfl | rfl) | rfl) | rfl <;> decide

theorem reads_digits {ds s : List Char} (hds : ∀ c ∈ ds, isDigit c = true) (hs : DigitsEnd s) :
    Reads digits (ds ++ s) ds s := by
  have htake : (ds ++ s).takeWhile isDigit = ds := by
    rw [List.takeWhile_append_of_pos hds]
    cases s with
    | nil => simp
    | cons c s => rw [List.takeWhile_cons_of_neg (by simp [hs c rfl]), List.append_nil]
  refine .get_bind fun c hc k _ => ?_
  refine ⟨{ c with rest := s, column := c.column + ds.length }, rfl, ?_⟩
  dsimp only
  rw [hc, htake, List.drop_left]
  rfl

/-- What stands behind the digits of a whole number ends it. -/
theorem reads_exponentMark {s : List Char} (hs : NumberEnds s) :
    Reads exponentMark s false s := by
  refine .bind (.peek s) ?_
  split
  · next h => exact absurd (by simp) (hs _ h).2
  · next h => exact absurd (by simp) (hs _ h).2
  · exact .pure false s

theorem reads_afterDigits (negative : Bool) {ds s : List Char}
    (hds : Nat.ofDigitChars 10 ds 0 ≤ maxSignificand) (hs : NumberEnds s) :
    Reads (afterDigits negative ds) s (whole negative (Nat.ofDigitChars 10 ds 0)) s := by
  unfold afterDigits
  rw [gather_eq hds]
  refine .bind (.peek s) ?_
  split
  · next h => exact absurd (by simp) (hs _ h).2
  · refine .bind (reads_exponentMark hs) ?_
    exact .pure _ s

/-- The digits of a number are read as the number. -/
theorem reads_number (negative : Bool) {n : Nat} (hn : n ≤ maxSignificand) {s : List Char}
    (hs : NumberEnds s) :
    Reads (number negative) (Nat.toDigits 10 n ++ s) (whole negative n) s := by
  have hvalue : Nat.ofDigitChars 10 (Nat.toDigits 10 n) 0 = n :=
    Nat.ofDigitChars_toDigits (by decide) (by decide)
  have hall : ∀ c ∈ Nat.toDigits 10 n, isDigit c = true := fun c hc =>
    Nat.isDigit_of_mem_toDigits (by decide) (by decide) hc
  have hafter := reads_afterDigits negative (hvalue.symm ▸ hn) hs
  rw [hvalue] at hafter
  obtain rfl | hpos := Nat.eq_zero_or_pos n
  · -- A zero is a number of its own, and no digit follows it.
    refine .bind (.peek _) (.bind (.eat '0' s) (.bind (.peek s) ?_))
    split
    · next c hc =>
      rw [(hs c hc).1]
      exact hafter
    · exact hafter
  · cases hdigits : Nat.toDigits 10 n with
    | nil => exact absurd hdigits Nat.toDigits_ne_nil
    | cons c cs =>
      rw [hdigits] at hall hafter
      refine .bind (.peek _) ?_
      split
      · next h => cases h
      · next h => exact absurd (Option.some.inj h) (head_toDigits_ne_zero hpos hdigits)
      · next d _ h =>
        obtain rfl : c = d := Option.some.inj h
        rw [hall c (by simp), if_pos rfl]
        exact .bind (reads_digits hall hs.digitsEnd) hafter

/-- A number has a first digit. -/
theorem exists_toDigits_cons (n : Nat) :
    ∃ c cs, Nat.toDigits 10 n = c :: cs ∧ isDigit c = true := by
  cases h : Nat.toDigits 10 n with
  | nil => exact absurd h Nat.toDigits_ne_nil
  | cons c cs =>
    have hmem : c ∈ Nat.toDigits 10 n := h ▸ List.mem_cons_self
    exact ⟨c, cs, rfl, Nat.isDigit_of_mem_toDigits (by decide) (by decide) hmem⟩

theorem ne_of_isDigit {c : Char} (hc : isDigit c = true) {d : Char} (hd : isDigit d = false) :
    c ≠ d := by
  rintro rfl
  rw [hc] at hd
  cases hd

/-- A digit is no blank. -/
theorem isSpace_of_isDigit {c : Char} (hc : isDigit c = true) : isSpace c = false := by
  have hne : ∀ d, isDigit d = false → c ≠ d := fun d => ne_of_isDigit hc
  simp only [isSpace, Bool.or_eq_false_iff, decide_eq_false_iff_not]
  exact ⟨⟨⟨hne _ rfl, hne _ rfl⟩, hne _ rfl⟩, hne _ rfl⟩

theorem Reads.next_digit {c : Char} (hc : isDigit c = true) (s : List Char) :
    Reads Reader.next (c :: s) (some c) (c :: s) :=
  .next (isSpace_of_isDigit hc) s

/-! ## Integers -/

/-- The integers that a text can hold without becoming floating-point numbers. -/
def IsInteger (n : Int) : Prop :=
  -0x8000000000000000 ≤ n ∧ n ≤ maxSignificand

theorem toList_compact_nat (n : Nat) :
    (Json.number n).compact.toList = Nat.toDigits 10 n := by
  show (Int.repr (Int.ofNat n)).toList = _
  simp [Int.repr]

theorem toList_compact_negSucc (n : Nat) :
    (Json.number (Int.negSucc n)).compact.toList = '-' :: Nat.toDigits 10 (n + 1) := by
  show (Int.repr (Int.negSucc n)).toList = _
  simp [Int.repr]

/-- A number of a range is read by `integer` as an integer of it. -/
theorem reads_integer (range : Range) {n : Int} (hn : IsInteger n) (hleast : range.least ≤ n)
    (hgreatest : n ≤ range.greatest) {s : List Char} (hs : NumberEnds s) :
    Reads (integer range) ((Json.number n).compact.toList ++ s) n s := by
  have hrange : ∀ t, Reads (if range.least ≤ n ∧ n ≤ range.greatest then Pure.pure n
      else failHere (.wrongValue n range.name)) t n t := fun t => by
    rw [if_pos ⟨hleast, hgreatest⟩]
    exact .pure n t
  obtain ⟨hlow, hhigh⟩ := hn
  -- A sign is eaten before the digits of a negative number are read.
  cases n with
  | ofNat n =>
    have hnumber := reads_number false (Int.ofNat_le.mp hhigh) hs
    obtain ⟨c, cs, hdigits, hc⟩ := exists_toDigits_cons n
    rw [hdigits] at hnumber
    rw [Int.ofNat_eq_natCast, toList_compact_nat, hdigits]
    refine .bind (.next_digit hc _) ?_
    dsimp only
    split
    · next h => cases h
    · next h => exact absurd (Option.some.inj h) (ne_of_isDigit hc rfl)
    · next d _ h =>
      obtain rfl : c = d := Option.some.inj h
      rw [if_pos hc]
      exact .bind hnumber (hrange s)
  | negSucc n =>
    have hmagnitude : ¬ (n + 1 = 0 ∨ 0x8000000000000000 < n + 1) := by omega
    have hwhole : whole true (n + 1) = .integer (Int.negSucc n) := by
      rw [whole, if_pos rfl, if_neg hmagnitude]
      rfl
    have hnumber := reads_number true (n := n + 1) (by unfold maxSignificand UInt64.size; omega) hs
    rw [hwhole] at hnumber
    rw [toList_compact_negSucc]
    refine .bind (.next rfl _) ?_
    exact .bind (.eat '-' _) (.bind hnumber (hrange s))

theorem SkipsBlanks.integer (range : Range) : SkipsBlanks (integer range) :=
  .bind .next

/-! ## Bytes and words -/

/-- An integer of a range is read as what is made of it. -/
theorem reads_converted (range : Range) {f : Int → α} {n : Int} {a : α} (hf : f n = a)
    (hn : IsInteger n) (hleast : range.least ≤ n) (hgreatest : n ≤ range.greatest)
    {s : List Char} (hs : NumberEnds s) :
    Reads (do return f (← integer range)) ((Json.number n).compact.toList ++ s) a s :=
  hf ▸ .bind (reads_integer range hn hleast hgreatest hs) (.pure (f n) s)

theorem toList_compact_byte (b : UInt8) :
    (Json.byte b).compact.toList = Nat.toDigits 10 b.toNat :=
  toList_compact_nat b.toNat

section

variable {s : List Char} (hs : NumberEnds s)
include hs

/-- A byte is read back. -/
theorem reads_byte (b : UInt8) : Reads byte ((Json.byte b).compact.toList ++ s) b s := by
  have hlt := b.toNat_lt
  have hback : (b.toNat : Int).toNat.toUInt8 = b := by simp
  exact reads_converted { name := "u8", least := 0, greatest := 0xff } hback
    (by unfold IsInteger maxSignificand UInt64.size; omega) (by simp) (by simp; omega) hs

theorem reads_word16 (w : UInt16) :
    Reads word16 ((Json.number w.toNat).compact.toList ++ s) w s := by
  have hlt := w.toNat_lt
  have hback : (w.toNat : Int).toNat.toUInt16 = w := by simp
  exact reads_converted { name := "u16", least := 0, greatest := 0xffff } hback
    (by unfold IsInteger maxSignificand UInt64.size; omega) (by simp) (by simp; omega) hs

theorem reads_word32 (w : UInt32) :
    Reads word32 ((Json.number w.toNat).compact.toList ++ s) w s := by
  have hlt := w.toNat_lt
  have hback : (w.toNat : Int).toNat.toUInt32 = w := by simp
  exact reads_converted { name := "u32", least := 0, greatest := 0xffffffff } hback
    (by unfold IsInteger maxSignificand UInt64.size; omega) (by simp) (by simp; omega) hs

theorem reads_signed64 (n : Int64) :
    Reads signed64 ((Json.number n.toInt).compact.toList ++ s) n s := by
  have hlow := n.le_toInt
  have hhigh := n.toInt_lt
  have hback : n.toInt.toInt64 = n := by simp
  exact reads_converted
    { name := "i64", least := -0x8000000000000000, greatest := 0x7fffffffffffffff } hback
    (by unfold IsInteger maxSignificand UInt64.size; omega) (by simp; omega) (by simp; omega) hs

end

/-! ## Lists of bytes -/

/-- Items of a list behind its first, each with a comma before it. -/
def furtherItems (bs : List UInt8) : List Char :=
  bs.flatMap fun b => ',' :: (Json.byte b).compact.toList

theorem numberEnds_furtherItems (bs : List UInt8) (s : List Char) :
    NumberEnds (furtherItems bs ++ ']' :: s) := by
  cases bs with
  | nil => exact numberEnds_cons (by simp) s
  | cons b bs => exact numberEnds_cons (by simp) _

/-- A byte begins with a digit. -/
theorem exists_byte_cons (b : UInt8) :
    ∃ c cs, (Json.byte b).compact.toList = c :: cs ∧ isDigit c = true := by
  obtain ⟨c, cs, hdigits, hc⟩ := exists_toDigits_cons b.toNat
  exact ⟨c, cs, (toList_compact_byte b).trans hdigits, hc⟩

/-- The first item has no comma before it. -/
theorem reads_hasItem_first (b : UInt8) (s : List Char) :
    Reads (hasItem true) ((Json.byte b).compact.toList ++ s) true
      ((Json.byte b).compact.toList ++ s) := by
  obtain ⟨c, cs, htext, hc⟩ := exists_byte_cons b
  rw [htext]
  refine .bind (.next_digit hc _) ?_
  split
  · next h => cases h
  · next h => exact absurd (Option.some.inj h) (ne_of_isDigit hc rfl)
  · exact .pure true _
  · exact .pure true _

/-- A comma and the digit behind it announce a further item. -/
theorem reads_hasItem_further (b : UInt8) (s : List Char) :
    Reads (hasItem false) (',' :: ((Json.byte b).compact.toList ++ s)) true
      ((Json.byte b).compact.toList ++ s) := by
  obtain ⟨c, cs, htext, hc⟩ := exists_byte_cons b
  rw [htext]
  refine .bind (.next rfl _) (.bind (.eat ',' _) ?_)
  refine .bind (.next_digit hc _) ?_
  split
  · next h => exact absurd (Option.some.inj h) (ne_of_isDigit hc rfl)
  · exact .pure true _
  · next h => cases h

theorem furtherItems_cons (b : UInt8) (bs : List UInt8) (s : List Char) :
    furtherItems (b :: bs) ++ s = ',' :: ((Json.byte b).compact.toList ++ (furtherItems bs ++ s)) := by
  simp [furtherItems]

/-- At the bracket there are no more items, whatever number is still allowed. -/
theorem reads_bytesWithin_nil (count : Nat) (first : Bool) (s : List Char) :
    Reads (bytesWithin count first) (']' :: s) [] (']' :: s) := by
  cases count with
  | zero => exact .pure [] _
  | succ count => exact .bind (.bind (.next rfl s) (.pure false _)) (.pure [] _)

theorem reads_furtherItems {bs : List UInt8} {count : Nat} (hcount : bs.length ≤ count)
    (s : List Char) :
    Reads (bytesWithin count false) (furtherItems bs ++ ']' :: s) bs (']' :: s) := by
  induction bs generalizing count with
  | nil => exact reads_bytesWithin_nil count false s
  | cons b bs ih =>
    obtain ⟨count, rfl⟩ := Nat.exists_eq_add_one_of_ne_zero (Nat.ne_zero_of_lt hcount)
    have hbyte := reads_byte (numberEnds_furtherItems bs s) b
    have hrest := ih (by simpa using hcount)
    rw [furtherItems_cons]
    exact .bind (reads_hasItem_further b _) (.bind hbyte (.bind hrest (.pure _ _)))

/-- Items of a list. -/
def listItems : List UInt8 → List Char
  | [] => []
  | b :: bs => (Json.byte b).compact.toList ++ furtherItems bs

theorem listItems_cons (b : UInt8) (bs : List UInt8) (s : List Char) :
    listItems (b :: bs) ++ s = (Json.byte b).compact.toList ++ (furtherItems bs ++ s) := by
  simp [listItems]

theorem reads_listItems {bs : List UInt8} {count : Nat} (hcount : bs.length ≤ count)
    (s : List Char) :
    Reads (bytesWithin count true) (listItems bs ++ ']' :: s) bs (']' :: s) := by
  cases bs with
  | nil => exact reads_bytesWithin_nil count true s
  | cons b bs =>
    obtain ⟨count, rfl⟩ := Nat.exists_eq_add_one_of_ne_zero (Nat.ne_zero_of_lt hcount)
    have hbyte := reads_byte (numberEnds_furtherItems bs s) b
    have hlength : bs.length ≤ count := by simpa using hcount
    have hrest := reads_furtherItems hlength s
    rw [listItems_cons]
    exact .bind (reads_hasItem_first b _) (.bind hbyte (.bind hrest (.pure _ _)))

theorem compactItems_eq (items : List Json) : compactItems items = items.map compact := by
  induction items with
  | nil => rfl
  | cons item rest ih => rw [compactItems, ih, List.map_cons]

theorem toList_compact_bytes (bs : List UInt8) :
    (Json.list (bs.map Json.byte)).compact.toList = '[' :: (listItems bs ++ [']']) := by
  have hitems : (joined "," (compactItems (bs.map Json.byte))).toList = listItems bs := by
    rw [compactItems_eq]
    cases bs with
    | nil => rfl
    | cons b bs =>
      rw [List.map_cons, List.map_cons, toList_joined (c := ',') rfl]
      simp [listItems, furtherItems, List.flatMap_map]
  rw [compact, String.toList_append, String.toList_append, hitems]
  rfl

theorem length_le_listItems (bs : List UInt8) (s : List Char) :
    bs.length ≤ (listItems bs ++ ']' :: s).length := by
  have hfurther : ∀ l : List UInt8, l.length ≤ (furtherItems l).length := by
    intro l
    induction l with
    | nil => exact Nat.le_refl _
    | cons b l ih =>
      simp only [furtherItems, List.flatMap_cons, List.length_append, List.length_cons] at ih ⊢
      omega
  cases bs with
  | nil => exact Nat.zero_le _
  | cons b bs =>
    have hbs := hfurther bs
    simp only [listItems, List.length_append, List.length_cons]
    omega

/-- A list is its items between brackets. -/
theorem toList_compact_bytes_append (bs : List UInt8) (s : List Char) :
    (Json.list (bs.map Json.byte)).compact.toList ++ s = '[' :: (listItems bs ++ ']' :: s) := by
  simp [toList_compact_bytes]

theorem reads_endList (s : List Char) : Reads endList (']' :: s) () s :=
  .bind (.next rfl _) (.eat ']' _)

/-- A list of bytes is read back. -/
theorem reads_bytes (bs : List UInt8) (s : List Char) :
    Reads bytes ((Json.list (bs.map Json.byte)).compact.toList ++ s) bs s := by
  have hbegin : Reads (beginList "a sequence") ('[' :: (listItems bs ++ ']' :: s)) ()
      (listItems bs ++ ']' :: s) := .bind (.next rfl _) (.eat '[' _)
  rw [toList_compact_bytes_append]
  -- The characters that are left allow for as many items as there are.
  refine .bind hbegin (.get_bind fun c hc => ?_)
  have hcount : bs.length ≤ c.rest.length := hc ▸ length_le_listItems bs s
  exact .bind (reads_listItems hcount s) (.bind (reads_endList s) (.pure bs s))

/-- Behind the first item of a list of a fixed length each one has a comma before it. -/
theorem reads_bytesExactly_further (expected : String) {found : Nat} (hfound : found ≠ 0)
    (bs : List UInt8) (s : List Char) :
    Reads (bytesExactly expected bs.length found) (furtherItems bs ++ ']' :: s) bs (']' :: s) := by
  induction bs generalizing found with
  | nil => exact .pure [] _
  | cons b bs ih =>
    have hbyte := reads_byte (numberEnds_furtherItems bs s) b
    have hrest := ih (Nat.succ_ne_zero found)
    rw [furtherItems_cons, List.length_cons, bytesExactly, decide_eq_false hfound]
    exact .bind (reads_hasItem_further b _) (.bind hbyte (.bind hrest (.pure _ _)))

/-- A list of bytes is read back as a list of its length. -/
theorem reads_byteArray (bs : List UInt8) (s : List Char) :
    Reads (byteArray bs.length) ((Json.list (bs.map Json.byte)).compact.toList ++ s) bs s := by
  rw [toList_compact_bytes_append]
  refine .bind (.bind (.next rfl _) (.eat '[' _)) (.bind ?_ (.bind (reads_endList s) (.pure bs s)))
  cases bs with
  | nil => exact .pure [] _
  | cons b bs =>
    have hbyte := reads_byte (numberEnds_furtherItems bs s) b
    have hrest := reads_bytesExactly_further ("an array of length " ++ toString (b :: bs).length)
      Nat.one_ne_zero bs s
    rw [listItems_cons]
    exact .bind (reads_hasItem_first b _) (.bind hbyte (.bind hrest (.pure _ _)))

end Reader

end Kenbak1.Json
