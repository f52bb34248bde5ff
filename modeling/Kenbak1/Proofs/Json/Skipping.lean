/-
  Kenbak1.Proofs.Json.Skipping

  Every JSON value can be skipped, whatever its numbers and texts are and however deep it is nested.
  `Skips` counts the values, items and members that the reader enters; each rule of `IsJson` has a
  lemma of its own, which `skips_of_isJson` puts together, and a value has no more of them than
  twice its characters (`reads_skipValue`).
-/
import Kenbak1.Json.Skip
import Kenbak1.Proofs.Json.Reading

namespace Kenbak1.Json

variable {s t : List Char}

namespace Reader

/-! ## Numbers -/

theorem exists_cons_of_isDigits (h : IsDigits s) : ∃ c cs, s = c :: cs ∧ isDigit c = true := by
  obtain ⟨hne, hall⟩ := h
  cases s with
  | nil => exact absurd rfl hne
  | cons c cs => exact ⟨c, cs, rfl, List.all_eq_true.mp hall c List.mem_cons_self⟩

theorem reads_isDigits (h : IsDigits s) (ht : DigitsEnd t) : Reads digits (s ++ t) s t :=
  reads_digits (List.all_eq_true.mp h.2) ht

theorem reads_exponentSign {sign : List Char} (hsign : sign ∈ [[], ['+'], ['-']]) {c : Char}
    (hc : isDigit c = true) (s : List Char) :
    ∃ down, Reads exponentSign (sign ++ c :: s) down (c :: s) := by
  simp only [List.mem_cons, List.not_mem_nil, or_false] at hsign
  rcases hsign with rfl | rfl | rfl
  · refine ⟨false, .bind (.peek _) ?_⟩
    split
    · next h => exact absurd (Option.some.inj h) (ne_of_isDigit hc rfl)
    · next h => exact absurd (Option.some.inj h) (ne_of_isDigit hc rfl)
    · exact .pure false _
  · exact ⟨false, .bind (.peek _) (.bind (.eat '+' _) (.pure false _))⟩
  · exact ⟨true, .bind (.peek _) (.bind (.eat '-' _) (.pure true _))⟩

theorem reads_skipExponent {sign ds : List Char} (hsign : sign ∈ [[], ['+'], ['-']])
    (hds : IsDigits ds) (ht : DigitsEnd t) : Reads skipExponent (sign ++ (ds ++ t)) () t := by
  have hdigits := reads_isDigits hds ht
  obtain ⟨c, cs, rfl, hc⟩ := exists_cons_of_isDigits hds
  obtain ⟨down, hdown⟩ := reads_exponentSign hsign hc (cs ++ t)
  refine .bind hdown (.bind (.peek _) ?_)
  show Reads (if isDigit c = true then _ else _) _ _ _
  rw [if_pos hc]
  exact .bind hdigits (.pure () t)

/-- Past an exponent, if there is one. -/
def skipOptionalExponent : Reader Unit := do
  if ← exponentMark then skipExponent

theorem reads_skipOptionalExponent (h : IsExponent s) (ht : NumberEnds t) :
    Reads skipOptionalExponent (s ++ t) () t := by
  cases h with
  | none => exact .bind (reads_exponentMark ht) (.pure () t)
  | @some mark sign ds hmark hsign hds =>
    have hskip := reads_skipExponent hsign hds ht.digitsEnd
    have hinput : mark :: (sign ++ ds) ++ t = mark :: (sign ++ (ds ++ t)) := by simp
    have hread : Reads exponentMark (mark :: (sign ++ (ds ++ t))) true (sign ++ (ds ++ t)) := by
      simp only [List.mem_cons, List.not_mem_nil, or_false] at hmark
      rcases hmark with rfl | rfl
      · exact .bind (.peek _) (.bind (.eat 'e' _) (.pure true _))
      · exact .bind (.peek _) (.bind (.eat 'E' _) (.pure true _))
    rw [hinput]
    exact .bind hread hskip

/-- Neither a digit nor a point begins an exponent or what follows a number. -/
theorem head_exponent (h : IsExponent s) (ht : NumberEnds t) :
    ∀ c ∈ (s ++ t).head?, isDigit c = false ∧ c ≠ '.' := by
  cases h with
  | none =>
    intro c hc
    obtain ⟨hdigit, hmark⟩ := ht c hc
    exact ⟨hdigit, fun heq => hmark (by simp [heq])⟩
  | some hmark _ _ =>
    intro c hc
    obtain rfl := Option.some.inj hc
    simp only [List.mem_cons, List.not_mem_nil, or_false] at hmark
    rcases hmark with rfl | rfl <;> decide

/-- Past a fraction and an exponent, if they are there. -/
def skipPlaces : Reader Unit := do
  match ← peek with
  | some '.' => do
    eat
    if (← digits) = [] then failBeyond .badNumber
    else skipOptionalExponent
  | _ => skipOptionalExponent

theorem reads_skipPlaces {fraction exponent : List Char} (hfraction : IsFraction fraction)
    (hexponent : IsExponent exponent) (ht : NumberEnds t) :
    Reads skipPlaces (fraction ++ (exponent ++ t)) () t := by
  have hskip := reads_skipOptionalExponent hexponent ht
  cases hfraction with
  | none =>
    refine .bind (.peek _) ?_
    split
    · next h => exact absurd rfl (head_exponent hexponent ht _ h).2
    · exact hskip
  | some hds =>
    have hend : DigitsEnd (exponent ++ t) := fun c hc => (head_exponent hexponent ht c hc).1
    refine .bind (.peek _) (.bind (.eat '.' _) (.bind (reads_isDigits hds hend) ?_))
    rw [if_neg hds.1]
    exact hskip

theorem digitsEnd_fraction {fraction exponent : List Char} (hfraction : IsFraction fraction)
    (hexponent : IsExponent exponent) (ht : NumberEnds t) :
    DigitsEnd (fraction ++ (exponent ++ t)) := by
  cases hfraction with
  | none => exact fun c hc => (head_exponent hexponent ht c hc).1
  | some _ =>
    intro c hc
    obtain rfl := Option.some.inj hc
    rfl

/-- A number is passed whatever its size. -/
theorem reads_skipNumber (h : IsMagnitude s) (ht : NumberEnds t) :
    Reads skipNumber (s ++ t) () t := by
  obtain ⟨hwhole, hfraction, hexponent⟩ := h
  next whole fraction exponent =>
  have hplaces := reads_skipPlaces hfraction hexponent ht
  have hend := digitsEnd_fraction hfraction hexponent ht
  have hdigits := reads_isDigits hwhole.1 hend
  obtain ⟨c, cs, rfl, hc⟩ := exists_cons_of_isDigits hwhole.1
  rw [List.append_assoc, List.append_assoc]
  refine .bind (.peek _) ?_
  split
  · next h => cases h
  · next h =>
    -- A zero is a whole number of its own.
    have hzero := hwhole.2 h
    rw [hzero]
    refine .bind (.eat '0' _) (.bind (.peek _) ?_)
    split
    · next d hd =>
      rw [hend d hd]
      exact hplaces
    · exact hplaces
  · next d _ h =>
    obtain rfl : c = d := Option.some.inj h
    rw [if_pos hc]
    exact .bind hdigits hplaces

/-! ## Texts -/

theorem reads_hexQuad {n : Nat} (h : IsQuad s n) (t : List Char) :
    Reads hexQuad (s ++ t) n t := by
  obtain ⟨hlength, hvalue⟩ := h
  match s, hlength with
  | [a, b, c, d], _ =>
    refine .get_bind fun k hk => ?_
    have hquad : hexQuad? k.rest = some n := by rw [hk]; exact hvalue
    intro l _
    rw [hquad]
    exact ⟨_, by rw [hk]; rfl, rfl⟩

/-- No letter stands for a character by its number. -/
theorem letter_ne_number {letter c : Char} (h : plainEscape? letter = some c) : letter ≠ 'u' := by
  rintro rfl
  cases h

theorem reads_skipChars (h : IsText s) {count : Nat} (hcount : s.length < count) (t : List Char) :
    Reads (skipChars count) (s ++ '"' :: t) () t := by
  -- The induction is on the text; each character takes one of the count.
  induction h generalizing count with
  | nil =>
    obtain ⟨count, rfl⟩ := Nat.exists_eq_add_one_of_ne_zero (Nat.ne_of_gt hcount)
    exact .bind (.peek _) (.eat '"' t)
  | @plain c s hc _ ih =>
    obtain ⟨count, rfl⟩ := Nat.exists_eq_add_one_of_ne_zero (Nat.ne_zero_of_lt hcount)
    obtain ⟨hquote, hslash, hcontrol⟩ := (isPlain_iff c).mp hc
    have hlength : s.length < count := by simpa using hcount
    have hrest := ih hlength
    refine .bind (.peek _) ?_
    split
    · next h => cases h
    · next h => exact absurd (Option.some.inj h) hquote
    · next h => exact absurd (Option.some.inj h) hslash
    · next d _ _ h =>
      obtain rfl : c = d := Option.some.inj h
      rw [if_neg hcontrol]
      exact .bind (.eat c _) hrest
  | @letter letter c s hletter _ ih =>
    obtain ⟨count, rfl⟩ := Nat.exists_eq_add_one_of_ne_zero (Nat.ne_zero_of_lt hcount)
    simp only [List.length_cons] at hcount
    have hlength : s.length < count := by omega
    have hrest := ih hlength
    refine .bind (.peek _) (.bind (.eat '\\' _) (.bind (a := ()) (t := s ++ '"' :: t) ?_ hrest))
    refine .bind (.peek _) ?_
    split
    · next h => cases h
    · next h => exact absurd (Option.some.inj h) (letter_ne_number hletter)
    · next d _ h =>
      obtain rfl : letter = d := Option.some.inj h
      rw [hletter]
      exact .eat letter _
  | @number digits s n hdigits _ ih =>
    obtain ⟨count, rfl⟩ := Nat.exists_eq_add_one_of_ne_zero (Nat.ne_zero_of_lt hcount)
    simp only [List.length_cons, List.length_append] at hcount
    have hlength : s.length < count := by omega
    have hrest := ih hlength
    have hinput : '\\' :: 'u' :: (digits ++ s) ++ '"' :: t
        = '\\' :: 'u' :: (digits ++ (s ++ '"' :: t)) := by simp
    rw [hinput]
    refine .bind (.peek _) (.bind (.eat '\\' _) (.bind (a := ()) (t := s ++ '"' :: t) ?_ hrest))
    exact .bind (.peek _) (.bind (.eat 'u' _) (.bind (reads_hexQuad hdigits _) (.pure () _)))

theorem reads_skipText (h : IsText s) (t : List Char) :
    Reads skipText (s ++ '"' :: t) () t := by
  refine .get_bind fun c hc => ?_
  have hcount : s.length < c.rest.length + 1 := by
    rw [hc, List.length_append]
    omega
  exact reads_skipChars h hcount t

end Reader

/-! ## Values -/

open Reader

/-- A value, a member and what holds them begin with a character that is no blank and closes
    nothing. -/
theorem IsJson.head {part : Part} (h : IsJson part s) :
    ∃ c cs, s = c :: cs ∧ isSpace c = false ∧ c ≠ ']' ∧ c ≠ '\x7d' := by
  induction h with
  | number h =>
    obtain ⟨hwhole, -, -⟩ := h
    obtain ⟨c, cs, rfl, hc⟩ := exists_cons_of_isDigits hwhole.1
    exact ⟨c, _, rfl, isSpace_of_isDigit hc, ne_of_isDigit hc rfl, ne_of_isDigit hc rfl⟩
  | lastElement _ _ ih | lastMember _ _ ih =>
    obtain ⟨c, cs, rfl, hc⟩ := ih
    exact ⟨c, _, rfl, hc⟩
  | elements _ _ _ _ ih _ | members _ _ _ _ ih _ =>
    obtain ⟨c, cs, rfl, hc⟩ := ih
    exact ⟨c, _, rfl, hc⟩
  | _ => exact ⟨_, _, rfl, by decide, by decide, by decide⟩

namespace Reader

theorem reads_word (w t : List Char) : Reads (word w) (w ++ t) () t := by
  induction w with
  | nil => exact .pure () t
  | cons c w ih =>
    refine .bind (.peek _) ?_
    show Reads (if c = c then _ else _) _ _ _
    rw [if_pos rfl]
    exact .bind (.eat c _) ih

/-- What it takes to read past a part of a value. -/
def Skips : Part → List Char → Prop
  | .value, s => ∀ count t, 2 * s.length ≤ count → NumberEnds t →
      Reads (skipValueWithin count) (s ++ t) () t
  | .elements, s => ∀ count t, 2 * s.length < count →
      Reads (skipItems count) (s ++ ']' :: t) () t
  | .member, s => ∀ count t, 2 * s.length ≤ count → NumberEnds t →
      Reads (skipKey >>= fun _ => skipValueWithin count) (s ++ t) () t
  | .members, s => ∀ count t, 2 * s.length < count →
      Reads (skipMembers count) (s ++ '\x7d' :: t) () t

/-- A value takes one of the count. -/
theorem skips_value {c : Char} (h : ∀ count t, 2 * s.length < count → NumberEnds t →
    Reads (skipValueWithin (count + 1)) (c :: (s ++ t)) () t) : Skips .value (c :: s) := by
  intro count t hcount ht
  rw [List.length_cons] at hcount
  obtain ⟨count, rfl⟩ := Nat.exists_eq_add_one_of_ne_zero (n := count) (by omega)
  exact h count t (by omega) ht

/-! ## Values without parts -/

/-- A number is told from the other values by its first digit. -/
theorem skips_number (h : IsMagnitude s) : Skips .value s := by
  have hskip := fun t ht => reads_skipNumber (t := t) h ht
  obtain ⟨hwhole, -, -⟩ := h
  obtain ⟨c, cs, rfl, hc⟩ := exists_cons_of_isDigits hwhole.1
  refine skips_value fun count t _ ht => ?_
  unfold skipValueWithin
  refine .bind (.next_digit hc _) ?_
  split
  case h_9 d _ _ _ _ _ _ _ h =>
    obtain rfl : c = d := Option.some.inj h
    rw [if_pos hc]
    exact hskip t ht
  case h_1 h => cases h
  all_goals next h => exact absurd (Option.some.inj h) (ne_of_isDigit hc rfl)

theorem skips_negative (h : IsMagnitude s) : Skips .value ('-' :: s) := by
  refine skips_value fun count t _ ht => ?_
  unfold skipValueWithin
  exact .bind (.next rfl _) (.bind (.eat '-' _) (reads_skipNumber h ht))

theorem skips_null : Skips .value ['n', 'u', 'l', 'l'] := by
  refine skips_value fun count t _ _ => ?_
  unfold skipValueWithin
  exact .bind (.next rfl _) (.bind (.eat 'n' _) (reads_word _ t))

theorem skips_true : Skips .value ['t', 'r', 'u', 'e'] := by
  refine skips_value fun count t _ _ => ?_
  unfold skipValueWithin
  exact .bind (.next rfl _) (.bind (.eat 't' _) (reads_word _ t))

theorem skips_false : Skips .value ['f', 'a', 'l', 's', 'e'] := by
  refine skips_value fun count t _ _ => ?_
  unfold skipValueWithin
  exact .bind (.next rfl _) (.bind (.eat 'f' _) (reads_word _ t))

theorem skips_text (h : IsText s) : Skips .value ('"' :: (s ++ ['"'])) := by
  refine skips_value fun count t _ _ => ?_
  rw [List.append_assoc]
  unfold skipValueWithin
  exact .bind (.next rfl _) (.bind (.eat '"' _) (reads_skipText h t))

/-! ## Lists -/

theorem SkipsBlanks.skipValueWithin (count : Nat) : SkipsBlanks (skipValueWithin (count + 1)) := by
  unfold Reader.skipValueWithin
  exact .bind .next

theorem SkipsBlanks.skipItems (count : Nat) : SkipsBlanks (skipItems (count + 2)) := by
  unfold Reader.skipItems
  exact .bind (.skipValueWithin count)

section

variable {b b' rest : List Char} (hb : Spaces b)
include hb

theorem skips_emptyList : Skips .value ('[' :: (b ++ [']'])) := by
  refine skips_value fun count t _ _ => ?_
  rw [List.append_assoc]
  unfold skipValueWithin
  exact .bind (.next rfl _) (.bind (.eat '[' _) (.bind (.next_of_spaces hb rfl t) (.eat ']' t)))

theorem skips_list (hs : IsJson .elements s) (h : Skips .elements s) :
    Skips .value ('[' :: (b ++ (s ++ [']']))) := by
  refine skips_value fun count t hcount _ => ?_
  simp only [List.length_append] at hcount
  have hitems := h count t (by omega)
  obtain ⟨c, cs, rfl, hspace, hclose, -⟩ := hs.head
  rw [List.append_assoc, List.append_assoc]
  unfold skipValueWithin
  refine .bind (.next rfl _) (.bind (.eat '[' _) (.bind (.next_of_spaces hb hspace _) ?_))
  split
  · next h => cases h
  · next h => exact absurd (Option.some.inj h) hclose
  · exact hitems

theorem skips_lastElement (h : Skips .value s) : Skips .elements (s ++ b) := by
  intro count t hcount
  simp only [List.length_append] at hcount
  obtain ⟨count, rfl⟩ := Nat.exists_eq_add_one_of_ne_zero (n := count) (by omega)
  have hvalue := h count (b ++ ']' :: t) (by omega) (.spaces hb (numberEnds_cons (by simp) t))
  rw [List.append_assoc]
  unfold skipItems
  exact .bind hvalue (.bind (.next_of_spaces hb rfl t) (.eat ']' t))

theorem skips_elements (h : Skips .value s) (hb' : Spaces b') (hne : rest ≠ [])
    (hrest : Skips .elements rest) : Skips .elements (s ++ (b ++ ',' :: (b' ++ rest))) := by
  intro count t hcount
  have hpos : 0 < rest.length := List.length_pos_iff.mpr hne
  simp only [List.length_append, List.length_cons] at hcount
  -- One of the count goes to the item, and what is left is enough to pass the blanks behind it.
  obtain ⟨count, rfl⟩ := Nat.exists_eq_add_of_le' (show 3 ≤ count by omega)
  have hinput : s ++ (b ++ ',' :: (b' ++ rest)) ++ ']' :: t
      = s ++ (b ++ ',' :: (b' ++ (rest ++ ']' :: t))) := by simp
  have hvalue := h (count + 2) (b ++ ',' :: (b' ++ (rest ++ ']' :: t))) (by omega)
    (.spaces hb (numberEnds_cons (by simp) _))
  have hothers := hrest (count + 2) t (by omega)
  rw [hinput]
  unfold skipItems
  exact .bind hvalue (.bind (.next_of_spaces hb rfl _)
    (.bind (.eat ',' _) ((SkipsBlanks.skipItems count).reads hb' hothers)))

end

/-! ## Objects -/

theorem reads_colon {b : List Char} (hb : Spaces b) (s : List Char) :
    Reads colon (b ++ ':' :: s) () s :=
  .bind (.next_of_spaces hb rfl s) (.eat ':' s)

theorem SkipsBlanks.skipMembers (count : Nat) : SkipsBlanks (skipMembers (count + 1)) := by
  unfold Reader.skipMembers
  exact .bind (.bind .next)

section

variable {b b' rest : List Char} (hb : Spaces b)
include hb

theorem skips_member {key : List Char} (hkey : IsText key) (hb' : Spaces b') (hne : s ≠ [])
    (h : Skips .value s) : Skips .member ('"' :: (key ++ '"' :: (b ++ ':' :: (b' ++ s)))) := by
  intro count t hcount ht
  have hpos : 0 < s.length := List.length_pos_iff.mpr hne
  simp only [List.length_append, List.length_cons] at hcount
  obtain ⟨count, rfl⟩ := Nat.exists_eq_add_one_of_ne_zero (n := count) (by omega)
  have hinput : '"' :: (key ++ '"' :: (b ++ ':' :: (b' ++ s))) ++ t
      = '"' :: (key ++ '"' :: (b ++ ':' :: (b' ++ (s ++ t)))) := by simp
  have hpast : Reads skipKey ('"' :: (key ++ '"' :: (b ++ ':' :: (b' ++ (s ++ t))))) ()
      (b' ++ (s ++ t)) :=
    .bind (.next rfl _) (.bind (.eat '"' _) (.bind (reads_skipText hkey _) (reads_colon hb _)))
  rw [hinput]
  exact .bind hpast ((SkipsBlanks.skipValueWithin count).reads hb' (h _ t (by omega) ht))

theorem skips_emptyObject : Skips .value ('\x7b' :: (b ++ ['\x7d'])) := by
  refine skips_value fun count t _ _ => ?_
  rw [List.append_assoc]
  unfold skipValueWithin
  exact .bind (.next rfl _)
    (.bind (.eat '\x7b' _) (.bind (.next_of_spaces hb rfl t) (.eat '\x7d' t)))

theorem skips_object (hs : IsJson .members s) (h : Skips .members s) :
    Skips .value ('\x7b' :: (b ++ (s ++ ['\x7d']))) := by
  refine skips_value fun count t hcount _ => ?_
  simp only [List.length_append] at hcount
  have hmembers := h count t (by omega)
  obtain ⟨c, cs, rfl, hspace, -, hclose⟩ := hs.head
  rw [List.append_assoc, List.append_assoc]
  unfold skipValueWithin
  refine .bind (.next rfl _) (.bind (.eat '\x7b' _) (.bind (.next_of_spaces hb hspace _) ?_))
  split
  · next h => cases h
  · next h => exact absurd (Option.some.inj h) hclose
  · exact hmembers

theorem skips_lastMember (h : Skips .member s) : Skips .members (s ++ b) := by
  intro count t hcount
  simp only [List.length_append] at hcount
  obtain ⟨count, rfl⟩ := Nat.exists_eq_add_one_of_ne_zero (n := count) (by omega)
  have hmember := h count (b ++ '\x7d' :: t) (by omega) (.spaces hb (numberEnds_cons (by simp) t))
  rw [List.append_assoc]
  unfold skipMembers
  rw [← bind_assoc]
  exact .bind hmember (.bind (.next_of_spaces hb rfl t) (.eat '\x7d' t))

theorem skips_members (h : Skips .member s) (hb' : Spaces b') (hrest : Skips .members rest) :
    Skips .members (s ++ (b ++ ',' :: (b' ++ rest))) := by
  intro count t hcount
  simp only [List.length_append, List.length_cons] at hcount
  obtain ⟨count, rfl⟩ := Nat.exists_eq_add_of_le' (show 2 ≤ count by omega)
  have hinput : s ++ (b ++ ',' :: (b' ++ rest)) ++ '\x7d' :: t
      = s ++ (b ++ ',' :: (b' ++ (rest ++ '\x7d' :: t))) := by simp
  have hmember := h (count + 1) (b ++ ',' :: (b' ++ (rest ++ '\x7d' :: t))) (by omega)
    (.spaces hb (numberEnds_cons (by simp) _))
  have hothers := hrest (count + 1) t (by omega)
  rw [hinput]
  unfold skipMembers
  rw [← bind_assoc]
  exact .bind hmember (.bind (.next_of_spaces hb rfl _)
    (.bind (.eat ',' _) ((SkipsBlanks.skipMembers count).reads hb' hothers)))

end

/-! ## All values -/

/-- Each rule of `IsJson` is a way through the reader. -/
theorem skips_of_isJson {part : Part} (h : IsJson part s) : Skips part s := by
  have hne : ∀ {part s}, IsJson part s → s ≠ [] := by
    intro part s h
    obtain ⟨c, cs, rfl, -⟩ := h.head
    exact List.cons_ne_nil c cs
  -- The induction is on the grammar, one lemma for each rule.
  induction h with
  | nullWord => exact skips_null
  | trueWord => exact skips_true
  | falseWord => exact skips_false
  | number h => exact skips_number h
  | negative h => exact skips_negative h
  | text h => exact skips_text h
  | emptyList hb => exact skips_emptyList hb
  | list hb h ih => exact skips_list hb h ih
  | emptyObject hb => exact skips_emptyObject hb
  | object hb h ih => exact skips_object hb h ih
  | lastElement h hb ih => exact skips_lastElement hb ih
  | elements h hb hb' hrest ih ihrest => exact skips_elements hb ih hb' (hne hrest) ihrest
  | member hkey hb hb' h ih => exact skips_member hb hkey hb' (hne h) ih
  | lastMember h hb ih => exact skips_lastMember hb ih
  | members h hb hb' hrest ih ihrest => exact skips_members hb ih hb' ihrest

/-- `skipValue` passes a JSON value, with the blanks before it. -/
theorem reads_skipValue {b : List Char} (hb : Spaces b) (hs : IsJson .value s)
    (ht : NumberEnds t) : Reads skipValue (b ++ (s ++ t)) () t := by
  refine .get_bind fun c hc => ?_
  have hskip := skips_of_isJson hs (2 * c.rest.length + 2) t
    (by rw [hc]; simp only [List.length_append]; omega) ht
  exact (SkipsBlanks.skipValueWithin _).reads hb hskip

end Reader

end Kenbak1.Json
