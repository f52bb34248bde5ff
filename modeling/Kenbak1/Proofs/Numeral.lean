/-
  Kenbak1.Proofs.Numeral

  Octal bytes. `IsOctal` says what an octal byte is without an order of reading, and
  `readOctal_eq_ok_iff` that `readOctal` accepts just these: a text is refused as too large if its
  leading digits alone are worth more than a byte (`ExceedsByte`), and as malformed otherwise. A
  byte that is written is read back (`readOctal_octalDigits`).
-/
import Kenbak1.Blank
import Kenbak1.Numeral
import Mathlib.Data.Nat.Digits.Defs
import Mathlib.Tactic.Ring

namespace Kenbak1

/-! ## Octal digits -/

/-- A digit from 0 to 7. -/
def IsOctalDigit (c : Char) : Prop :=
  '0' ≤ c ∧ c ≤ '7'

instance (c : Char) : Decidable (IsOctalDigit c) :=
  inferInstanceAs (Decidable (_ ∧ _))

/-- What a digit is worth. -/
def digitValue (c : Char) : Nat :=
  c.toNat - '0'.toNat

/-- What digits are worth, the first of them the most. -/
def octalValue (digits : List Char) : Nat :=
  Nat.ofDigits 8 (digits.reverse.map digitValue)

theorem octalValue_nil : octalValue [] = 0 := rfl

theorem octalValue_cons (c : Char) (rest : List Char) :
    octalValue (c :: rest) = digitValue c * 8 ^ rest.length + octalValue rest := by
  unfold octalValue
  rw [List.reverse_cons, List.map_append, Nat.ofDigits_append, List.length_map,
    List.length_reverse, List.map_cons, List.map_nil, Nat.ofDigits_singleton]
  ring

theorem digitValue_lt {c : Char} (h : IsOctalDigit c) : digitValue c < 8 := by
  have hle : c.toNat ≤ '7'.toNat := h.2
  have hseven : '7'.toNat = '0'.toNat + 7 := rfl
  unfold digitValue
  omega

/-! ## What an octal byte is -/

/-- A text is an octal byte: at most one plus sign and then at least one digit, worth no more
    than a byte. -/
def IsOctal (text : List Char) (value : UInt8) : Prop :=
  ∃ digits, (text = digits ∨ text = '+' :: digits) ∧ digits ≠ [] ∧
    (∀ c ∈ digits, IsOctalDigit c) ∧ octalValue digits = value.toNat

/-- The digits at the beginning of a text, behind a plus sign if there is one, are worth more
    than a byte, whatever follows them. -/
def ExceedsByte (text : List Char) : Prop :=
  ∃ digits rest, (text = digits ++ rest ∨ text = '+' :: (digits ++ rest)) ∧
    (∀ c ∈ digits, IsOctalDigit c) ∧ UInt8.size ≤ octalValue digits

/-! ## Reading digits -/

section Digits

variable {c : Char} {value : Nat} (rest : List Char)

theorem readOctalDigits_cons_digit (hc : IsOctalDigit c) (hroom : value < 32) :
    readOctalDigits value (c :: rest) = readOctalDigits (value * 8 + digitValue c) rest := by
  have hbounds : '0' ≤ c ∧ c ≤ '7' := hc
  rw [readOctalDigits, if_pos hbounds, if_pos hroom]
  rfl

theorem readOctalDigits_cons_full (hc : IsOctalDigit c) (hroom : ¬ value < 32) :
    readOctalDigits value (c :: rest) = .error .tooLarge := by
  have hbounds : '0' ≤ c ∧ c ≤ '7' := hc
  rw [readOctalDigits, if_pos hbounds, if_neg hroom]

theorem readOctalDigits_cons_other (hc : ¬ IsOctalDigit c) :
    readOctalDigits value (c :: rest) = .error .malformed := by
  have hbounds : ¬ ('0' ≤ c ∧ c ≤ '7') := hc
  rw [readOctalDigits, if_neg hbounds]

/-- A digit read onto a value is the first of the digits that follow, worth that much more. -/
theorem worth_cons (digits : List Char) :
    (value * 8 + digitValue c) * 8 ^ digits.length + octalValue digits
      = value * 8 ^ (c :: digits).length + octalValue (c :: digits) := by
  rw [octalValue_cons, List.length_cons, pow_succ]
  ring

theorem room_for_digit (hc : IsOctalDigit c) (hroom : value < 32) :
    value * 8 + digitValue c < UInt8.size := by
  have hdigit := digitValue_lt hc
  unfold UInt8.size
  omega

/-- A value below 256 is not too large without a digit behind it. -/
theorem ne_nil_of_worth (hvalue : value < UInt8.size) {digits : List Char}
    (hlarge : UInt8.size ≤ value * 8 ^ digits.length + octalValue digits) : digits ≠ [] := by
  rintro rfl
  rw [List.length_nil, pow_zero, mul_one, octalValue_nil] at hlarge
  omega

end Digits

/-- Digits read onto a value are accepted if they are digits and the whole is worth no more
    than a byte. -/
theorem readOctalDigits_eq_ok_iff {value : Nat} (hvalue : value < UInt8.size)
    {text : List Char} {v : UInt8} :
    readOctalDigits value text = .ok v ↔
      (∀ c ∈ text, IsOctalDigit c) ∧ value * 8 ^ text.length + octalValue text = v.toNat := by
  induction text generalizing value with
  | nil =>
    have hself : value.toUInt8.toNat = value := by
      rw [Nat.toUInt8_eq, UInt8.toNat_ofNat', Nat.mod_eq_of_lt hvalue]
    rw [readOctalDigits, Except.ok.injEq, ← UInt8.toNat_inj, hself]
    simp [octalValue_nil]
  | cons c rest ih =>
    by_cases hc : IsOctalDigit c
    · by_cases hroom : value < 32
      · rw [readOctalDigits_cons_digit rest hc hroom, ih (room_for_digit hc hroom), worth_cons,
          List.forall_mem_cons]
        simp only [hc, true_and]
      -- With one digit more the value is at least 256.
      · rw [readOctalDigits_cons_full rest hc hroom, ← worth_cons]
        refine ⟨nofun, fun ⟨_, hworth⟩ => absurd v.toNat_lt ?_⟩
        have hpow : 1 ≤ 8 ^ rest.length := Nat.one_le_pow _ _ (by omega)
        have hlarge := Nat.mul_le_mul (show 256 ≤ value * 8 + digitValue c by omega) hpow
        omega
    · rw [readOctalDigits_cons_other rest hc]
      exact ⟨nofun, fun ⟨hall, _⟩ => absurd (hall c List.mem_cons_self) hc⟩

/-- Digits read onto a value are too many if some of them, from the first on, make the whole
    worth more than a byte. -/
theorem readOctalDigits_eq_tooLarge_iff {value : Nat} (hvalue : value < UInt8.size)
    {text : List Char} :
    readOctalDigits value text = .error .tooLarge ↔
      ∃ digits rest, text = digits ++ rest ∧ (∀ c ∈ digits, IsOctalDigit c) ∧
        UInt8.size ≤ value * 8 ^ digits.length + octalValue digits := by
  -- The induction is on the text, with the value of the digits before it.
  induction text generalizing value with
  | nil =>
    rw [readOctalDigits]
    refine ⟨nofun, ?_⟩
    rintro ⟨digits, rest, htext, -, hlarge⟩
    exact absurd (List.append_eq_nil_iff.mp htext.symm).1 (ne_nil_of_worth hvalue hlarge)
  | cons c rest ih =>
    by_cases hc : IsOctalDigit c
    · by_cases hroom : value < 32
      · have hnext := room_for_digit hc hroom
        rw [readOctalDigits_cons_digit rest hc hroom, ih hnext]
        constructor
        · rintro ⟨digits, behind, rfl, hall, hlarge⟩
          exact ⟨c :: digits, behind, rfl, List.forall_mem_cons.mpr ⟨hc, hall⟩,
            worth_cons (c := c) digits ▸ hlarge⟩
        · rintro ⟨digits, behind, htext, hall, hlarge⟩
          obtain ⟨d, digits, rfl⟩ := List.exists_cons_of_ne_nil (ne_nil_of_worth hvalue hlarge)
          obtain ⟨rfl, rfl⟩ := List.cons.inj htext
          exact ⟨digits, behind, rfl, (List.forall_mem_cons.mp hall).2, worth_cons digits ▸ hlarge⟩
      -- The digit itself makes the value worth more than a byte.
      · rw [readOctalDigits_cons_full rest hc hroom]
        refine iff_of_true rfl ⟨[c], rest, rfl, by simpa using hc, ?_⟩
        rw [← worth_cons]
        unfold UInt8.size
        simp only [List.length_nil, octalValue_nil]
        omega
    · rw [readOctalDigits_cons_other rest hc]
      refine ⟨nofun, ?_⟩
      rintro ⟨digits, behind, htext, hall, hlarge⟩
      obtain ⟨d, digits, rfl⟩ := List.exists_cons_of_ne_nil (ne_nil_of_worth hvalue hlarge)
      obtain ⟨rfl, -⟩ := List.cons.inj htext
      exact absurd (hall c List.mem_cons_self) hc

/-! ## Reading octal bytes -/

/-- A text without the plus sign that may stand before a number. -/
def withoutPlus : List Char → List Char
  | '+' :: rest => rest
  | text => text

theorem withoutPlus_eq_iff {text rest : List Char} (h : rest.head? ≠ some '+') :
    withoutPlus text = rest ↔ text = rest ∨ text = '+' :: rest := by
  unfold withoutPlus
  split
  · next behind =>
    rw [List.cons.injEq]
    refine ⟨fun e => .inr ⟨rfl, e⟩, ?_⟩
    rintro (rfl | ⟨-, rfl⟩)
    · exact absurd rfl h
    · rfl
  · next hplus =>
    refine ⟨.inl, ?_⟩
    rintro (rfl | rfl)
    · rfl
    · exact absurd rfl (hplus rest)

theorem head?_ne_plus {digits : List Char} (h : ∀ c ∈ digits, IsOctalDigit c)
    (hne : digits ≠ []) (rest : List Char) : (digits ++ rest).head? ≠ some '+' := by
  obtain ⟨c, others, rfl⟩ := List.exists_cons_of_ne_nil hne
  rintro e
  obtain rfl : c = '+' := Option.some.inj e
  exact absurd (h _ List.mem_cons_self) (by decide)

theorem readOctal_eq (text : List Char) :
    readOctal text =
      if withoutPlus text = [] then .error .malformed else readOctalDigits 0 (withoutPlus text) := by
  unfold readOctal
  split
  · rfl
  · rfl
  · next digits hne => rw [show withoutPlus ('+' :: digits) = digits from rfl, if_neg hne]
  · next hnil hlone hplus =>
    have hself : withoutPlus text = text := by
      unfold withoutPlus
      split
      · next behind => exact absurd rfl (hplus behind)
      · rfl
    rw [hself, if_neg hnil]

/-- `readOctal` accepts octal bytes (`IsOctal`), with their values, and nothing else. -/
theorem readOctal_eq_ok_iff {text : List Char} {v : UInt8} :
    readOctal text = .ok v ↔ IsOctal text v := by
  have hread := @readOctalDigits_eq_ok_iff 0 (by decide) (withoutPlus text) v
  rw [Nat.zero_mul, Nat.zero_add] at hread
  rw [readOctal_eq]
  constructor
  · intro h
    split at h
    · cases h
    · next hne =>
      obtain ⟨hall, hworth⟩ := hread.mp h
      have hplus := head?_ne_plus hall hne []
      rw [List.append_nil] at hplus
      exact ⟨withoutPlus text, (withoutPlus_eq_iff hplus).mp rfl, hne, hall, hworth⟩
  · rintro ⟨digits, htext, hne, hall, hworth⟩
    have hplus := head?_ne_plus hall hne []
    rw [List.append_nil] at hplus
    obtain rfl := (withoutPlus_eq_iff hplus).mpr htext
    rw [if_neg hne]
    exact hread.mpr ⟨hall, hworth⟩

/-- A text is too large if its leading digits are (`ExceedsByte`), whatever follows them. -/
theorem readOctal_eq_tooLarge_iff {text : List Char} :
    readOctal text = .error .tooLarge ↔ ExceedsByte text := by
  have hzero : 0 < UInt8.size := by decide
  have hread := @readOctalDigits_eq_tooLarge_iff 0 hzero (withoutPlus text)
  simp only [Nat.zero_mul, Nat.zero_add] at hread
  rw [readOctal_eq]
  constructor
  · intro h
    split at h
    · cases h
    · obtain ⟨digits, rest, htext, hall, hlarge⟩ := hread.mp h
      have hne := ne_nil_of_worth hzero (by simpa using hlarge)
      have hplus := head?_ne_plus hall hne rest
      exact ⟨digits, rest, (withoutPlus_eq_iff hplus).mp htext, hall, hlarge⟩
  · rintro ⟨digits, rest, htext, hall, hlarge⟩
    have hne := ne_nil_of_worth hzero (by simpa using hlarge)
    have hwithout := (withoutPlus_eq_iff (head?_ne_plus hall hne rest)).mpr htext
    rw [if_neg (by simp [hwithout, hne])]
    exact hread.mpr ⟨digits, rest, hwithout, hall, hlarge⟩

/-- `readOctal` finds all other texts malformed. -/
theorem readOctal_eq_malformed_iff {text : List Char} :
    readOctal text = .error .malformed ↔ (∀ v, ¬ IsOctal text v) ∧ ¬ ExceedsByte text := by
  simp only [← readOctal_eq_ok_iff, ← readOctal_eq_tooLarge_iff]
  cases readOctal text with
  | ok v => simp
  | error fault => cases fault <;> simp

/-! ## Writing -/

theorem isOctalDigit_digitChar {d : Nat} (h : d < 8) :
    IsOctalDigit (digitChar d) ∧ digitValue (digitChar d) = d := by
  revert d
  decide

theorem octalDigits_eq (b : UInt8) :
    octalDigits b = [digitChar (b.toNat / 64 % 8), digitChar (b.toNat / 8 % 8),
      digitChar (b.toNat % 8)] := by
  simp [octalDigits, fixedDigits]

theorem isOctalDigit_of_mem_octalDigits {b : UInt8} {c : Char} (h : c ∈ octalDigits b) :
    IsOctalDigit c := by
  rw [octalDigits_eq] at h
  simp only [List.mem_cons, List.not_mem_nil, or_false] at h
  rcases h with rfl | rfl | rfl
  · exact (isOctalDigit_digitChar (Nat.mod_lt _ (by omega))).1
  · exact (isOctalDigit_digitChar (Nat.mod_lt _ (by omega))).1
  · exact (isOctalDigit_digitChar (Nat.mod_lt _ (by omega))).1

/-- A byte that is written is an octal byte of its own value. -/
theorem isOctal_octalDigits (b : UInt8) : IsOctal (octalDigits b) b := by
  have hb := b.toNat_lt
  refine ⟨octalDigits b, .inl rfl, by simp [octalDigits_eq],
    fun c hc => isOctalDigit_of_mem_octalDigits hc, ?_⟩
  have hdigit : ∀ n, digitValue (digitChar (n % 8)) = n % 8 :=
    fun n => (isOctalDigit_digitChar (Nat.mod_lt n (by omega))).2
  simp only [octalDigits_eq, octalValue_cons, octalValue_nil, hdigit, List.length_cons,
    List.length_nil]
  omega

theorem readOctal_octalDigits (b : UInt8) : readOctal (octalDigits b) = .ok b :=
  readOctal_eq_ok_iff.mpr (isOctal_octalDigits b)

/-! ## Digits and blanks -/

theorem newline_not_mem_toString (n : Nat) : '\n' ∉ (toString n).toList := by
  have hdigits : (toString n).toList = Nat.toDigits 10 n := by simp
  rw [hdigits]
  exact fun h => absurd (Nat.isDigit_of_mem_toDigits (by omega) (by omega) h) (by decide)

theorem isBlank_eq_false_of_isOctalDigit {c : Char} (h : IsOctalDigit c) : isBlank c = false := by
  have hlow : 48 ≤ c.toNat := h.1
  have hhigh : c.toNat ≤ 55 := h.2
  simp only [isBlank, Bool.or_eq_false_iff, Bool.and_eq_false_iff, decide_eq_false_iff_not,
    beq_eq_false_iff_ne]
  omega

theorem isBlank_eq_false_of_mem_octalDigits {b : UInt8} {c : Char} (h : c ∈ octalDigits b) :
    isBlank c = false :=
  isBlank_eq_false_of_isOctalDigit (isOctalDigit_of_mem_octalDigits h)

end Kenbak1
