/-
  Kenbak1.Proofs.Json.Records

  Reading records back. `reads_member` reads a member whatever blanks stand in it and however its
  key is spelled; `reads_unknownMember` passes one that no field asks for, whatever its value is.
  What a record was written as, without blanks, is the special case in which its fields come in
  their order (`Fills`, `Fills.reads_object`).
-/
import Kenbak1.Proofs.Json.Skipping

namespace Kenbak1.Json

namespace Reader

/-! ## Texts -/

/-- A character is read from each of the ways to write it. -/
theorem reads_character {c : Char} {s t u cs : List Char} {count : Nat} (h : IsCharacter c s)
    (hrest : Reads (chars count) t cs u) : Reads (chars (count + 1)) (s ++ t) (c :: cs) u := by
  have hread : Reads (do return c :: (← chars count)) t (c :: cs) u := .bind hrest (.pure _ u)
  cases h with
  | plain hc =>
    obtain ⟨hquote, hslash, hcontrol⟩ := (isPlain_iff c).mp hc
    refine .bind (.peek _) ?_
    split
    · next h => cases h
    · next h => exact absurd (Option.some.inj h) hquote
    · next h => exact absurd (Option.some.inj h) hslash
    · next d _ _ h =>
      obtain rfl : c = d := Option.some.inj h
      rw [if_neg hcontrol]
      exact .bind (.eat c _) hread
  | @letter _ letter hletter =>
    have hescape : Reads escape (letter :: t) c t := by
      refine .bind (.peek _) ?_
      split
      · next h => cases h
      · next h => exact absurd (Option.some.inj h) (letter_ne_number hletter)
      · next d _ h =>
        obtain rfl : letter = d := Option.some.inj h
        rw [hletter]
        exact .bind (.eat letter _) (.pure c t)
    exact .bind (.peek _) (.bind (.eat '\\' _) (.bind hescape hread))
  | @number digits n hdigits hscalar =>
    have hnumbered : Reads numbered (digits ++ t) (Char.ofNat n) t := by
      refine .bind (reads_hexQuad hdigits t) ?_
      rw [if_neg (by omega), if_pos (by omega)]
      exact .pure _ t
    have hescape : Reads escape ('u' :: (digits ++ t)) (Char.ofNat n) t :=
      .bind (.peek _) (.bind (.eat 'u' _) hnumbered)
    exact .bind (.peek _) (.bind (.eat '\\' _) (.bind hescape hread))
  | @pair upper lower high low hupper hlower hhigh hlow =>
    -- A number above four digits is written as two, a high surrogate and a low one.
    have hmark : ∀ (mark : Char) (v : List Char), Reads (pairMark mark) (mark :: v) () v := by
      intro mark v
      refine .bind (.peek _) ?_
      show Reads (if mark = mark then _ else _) _ _ _
      rw [if_pos rfl]
      exact .eat mark v
    have hnumbered : Reads numbered (upper ++ '\\' :: 'u' :: (lower ++ t))
        (Char.ofNat (0x10000 + (high - 0xD800) * 0x400 + (low - 0xDC00))) t := by
      refine .bind (reads_hexQuad hupper _) ?_
      rw [if_neg (by omega), if_neg (by omega)]
      refine .bind (hmark '\\' _) (.bind (hmark 'u' _) (.bind (reads_hexQuad hlower t) ?_))
      rw [if_neg (by omega)]
      exact .pure _ t
    -- The list has to be brought into the form in which the reader takes it apart.
    have hinput : '\\' :: 'u' :: (upper ++ '\\' :: 'u' :: lower) ++ t
        = '\\' :: 'u' :: (upper ++ '\\' :: 'u' :: (lower ++ t)) := by simp
    rw [hinput]
    exact .bind (.peek _)
      (.bind (.eat '\\' _) (.bind (.bind (.peek _) (.bind (.eat 'u' _) hnumbered)) hread))

theorem reads_chars {cs spelled : List Char} (h : IsSpelling cs spelled) {count : Nat}
    (hcount : cs.length < count) (t : List Char) :
    Reads (chars count) (spelled ++ '"' :: t) cs t := by
  induction h generalizing count with
  | nil =>
    obtain ⟨count, rfl⟩ := Nat.exists_eq_add_one_of_ne_zero (Nat.ne_of_gt hcount)
    exact .bind (.peek _) (.bind (.eat '"' t) (.pure [] t))
  | cons h _ ih =>
    obtain ⟨count, rfl⟩ := Nat.exists_eq_add_one_of_ne_zero (Nat.ne_zero_of_lt hcount)
    rw [List.append_assoc]
    exact reads_character h (ih (Nat.lt_of_succ_lt_succ hcount))

/-- Writing a character takes at least one. -/
theorem length_le_of_isSpelling {cs spelled : List Char} (h : IsSpelling cs spelled) :
    cs.length ≤ spelled.length := by
  induction h with
  | nil => exact Nat.le_refl _
  | cons h _ ih =>
    have hpos : ∀ {c s}, IsCharacter c s → 0 < s.length := by
      intro c s h
      cases h <;> simp
    have hfirst := hpos h
    simp only [List.length_cons, List.length_append]
    omega

/-- A text is read from each of its spellings. -/
theorem reads_text {text : String} {spelled : List Char} (h : IsSpelling text.toList spelled)
    (t : List Char) : Reads Reader.text (spelled ++ '"' :: t) text t := by
  refine .get_bind fun c hc => ?_
  have hcount : text.toList.length < c.rest.length + 1 := by
    have hspelled := length_le_of_isSpelling h
    rw [hc, List.length_append]
    omega
  refine .bind (reads_chars h hcount t) ?_
  rw [String.ofList_toList]
  exact .pure text t

theorem isSpelling_self {cs : List Char} (h : cs.all isPlain = true) : IsSpelling cs cs := by
  induction cs with
  | nil => exact .nil
  | cons c cs ih =>
    rw [List.all_cons, Bool.and_eq_true] at h
    exact .cons (.plain h.1) (ih h.2)

/-! ## Members -/

theorem SkipsBlanks.record {ρ : Type} (form : RecordForm ρ) : SkipsBlanks (Reader.record form) :=
  .bind .next

variable {ρ : Type} {form : RecordForm ρ} {count : Nat} {seen : List String} {record : ρ}

/-- A comma stands before every member except the first. -/
def behindComma (first : Bool) (s : List Char) : List Char :=
  if first then s else ',' :: s

theorem reads_hasMember (first : Bool) {b : List Char} (hb : Spaces b) (s : List Char) :
    Reads (hasMember first) (behindComma first (b ++ '"' :: s)) true ('"' :: s) := by
  cases first with
  | true => exact .bind (.next_of_spaces hb rfl s) (.pure true _)
  | false =>
    exact .bind (.next rfl _) (.bind (.eat ',' _) (.bind (.next_of_spaces hb rfl s) (.pure true _)))

theorem SkipsBlanks.membersWithin (form : RecordForm ρ) (count : Nat) (first : Bool)
    (seen : List String) (record : ρ) :
    SkipsBlanks (membersWithin form (count + 1) first seen record) := by
  unfold Reader.membersWithin hasMember
  exact .bind (.bind .next)

/-- An object ends where no field is missing. -/
theorem reads_members_end (first : Bool)
    (h : (form.fields.find? fun field => field.required ∧ field.key ∉ seen) = none)
    (s : List Char) :
    Reads (membersWithin form (count + 1) first seen record) ('\x7d' :: s) record s := by
  have hmember : Reads (hasMember first) ('\x7d' :: s) false ('\x7d' :: s) :=
    .bind (.next rfl s) (.pure false _)
  refine .bind hmember ?_
  rw [if_neg Bool.false_ne_true, h]
  exact .bind (.eat '\x7d' s) (.pure record s)

section

variable {first : Bool} {b b' spelled value s t : List Char} {key : String} {x : ρ}
  (hb : Spaces b) (hb' : Spaces b') (hkey : IsSpelling key.toList spelled)
include hb hb' hkey

/-- A member is read into its field, and `membersWithin` reads the members behind it into what that
    makes of the record. -/
theorem reads_member {field : Field ρ} {record' : ρ}
    (hfield : (form.fields.find? fun field => field.key = key) = some field) (hseen : key ∉ seen)
    (hvalue : Reads (field.read record) (value ++ s) record' s)
    (hrest : Reads (membersWithin form count false (key :: seen) record') s x t) :
    Reads (membersWithin form (count + 1) first seen record)
      (behindComma first (b ++ '"' :: (spelled ++ '"' :: (b' ++ ':' :: (value ++ s))))) x t := by
  refine .bind (reads_hasMember first hb _) ?_
  rw [if_pos rfl]
  refine .bind (.eat '"' _) (.bind (reads_text hkey _) ?_)
  rw [hfield]
  dsimp only
  rw [if_neg hseen]
  exact .bind (reads_colon hb' _) (.bind hvalue hrest)

/-- A member that is no field is passed. -/
theorem reads_unknownMember
    (hfield : (form.fields.find? fun field => field.key = key) = none)
    (hvalue : Reads skipValue (value ++ s) () s)
    (hrest : Reads (membersWithin form count false seen record) s x t) :
    Reads (membersWithin form (count + 1) first seen record)
      (behindComma first (b ++ '"' :: (spelled ++ '"' :: (b' ++ ':' :: (value ++ s))))) x t := by
  refine .bind (reads_hasMember first hb _) ?_
  rw [if_pos rfl]
  refine .bind (.eat '"' _) (.bind (reads_text hkey _) ?_)
  rw [hfield]
  exact .bind (reads_colon hb' _) (.bind hvalue hrest)

end

/-- A record is an object of its members. -/
theorem reads_record {s t : List Char} {x : ρ}
    (h : Reads (membersWithin form (s.length + 1) true [] form.initial) s x t) :
    Reads (Reader.record form) ('\x7b' :: s) x t := by
  refine .bind (.next rfl s) (.bind (.eat '\x7b' s) (.get_bind fun c hc => ?_))
  rw [hc]
  exact h

end Reader

/-! ## Whole texts -/

open Reader

/-- `parse` accepts a text that holds a value and behind it nothing but blanks. -/
theorem parse_eq_ok {α : Type} {r : Reader α} {text : String} {a : α} {b : List Char}
    (h : Reads r text.toList a b) (hb : Spaces b) : parse r text = .ok a := by
  obtain ⟨d, hd, hrun⟩ := h (Cursor.ofText text) rfl
  have hend : d.skipBlanks.rest = [] := by
    obtain ⟨e, he, heq⟩ := exists_skipBlanks hb (hd.trans (List.append_nil b).symm)
    rw [heq, Cursor.skipBlanks, he]
    rfl
  unfold parse
  rw [hrun]
  simp only [bind, Except.bind, hend]
  rfl

/-! ## Objects without blanks -/

/-- A text of characters that stand for themselves is written between quotes as it is. -/
theorem toList_quote {s : String} (hs : s.toList.all isPlain = true) :
    (quote s).toList = '"' :: (s.toList ++ ['"']) := by
  have hescaped : ∀ l : List Char, l.all isPlain = true →
      (l.map escaped).flatMap String.toList = l := by
    intro l hl
    induction l with
    | nil => rfl
    | cons c l ih =>
      rw [List.all_cons, Bool.and_eq_true, isPlain_iff] at hl
      obtain ⟨⟨hquote, hslash, hcontrol⟩, htail⟩ := hl
      -- The characters with an escape of their own are no plain ones.
      have hself : escaped c = c.toString := by
        unfold escaped
        split
        · exact absurd rfl hquote
        · exact absurd rfl hslash
        all_goals first | exact absurd (by decide) hcontrol | exact if_neg hcontrol
      rw [List.map_cons, List.flatMap_cons, hself, ih htail]
      simp
  unfold quote
  rw [String.toList_append, String.toList_append, String.toList_join, hescaped _ hs]
  rfl

/-- A member without blanks. -/
def memberText (member : String × Json) : List Char :=
  '"' :: (member.1.toList ++ '"' :: ':' :: member.2.compact.toList)

/-- Members without blanks, each behind a comma. -/
def furtherMembers (members : List (String × Json)) : List Char :=
  members.flatMap fun member => ',' :: memberText member

theorem toList_compactMembers {members : List (String × Json)}
    (h : ∀ member ∈ members, member.1.toList.all isPlain = true) :
    (compactMembers members).map String.toList = members.map memberText := by
  induction members with
  | nil => rfl
  | cons member members ih =>
    have hquote := toList_quote (h member List.mem_cons_self)
    rw [compactMembers, List.map_cons, List.map_cons, ih fun m hm => h m (List.mem_cons_of_mem _ hm),
      String.toList_append, String.toList_append, hquote, memberText]
    simp

theorem toList_compact_object {member : String × Json} {members : List (String × Json)}
    (h : ∀ m ∈ member :: members, m.1.toList.all isPlain = true) :
    (Json.object (member :: members)).compact.toList
      = '\x7b' :: (memberText member ++ (furtherMembers members ++ ['\x7d'])) := by
  have htexts := toList_compactMembers h
  rw [compact, String.toList_append, String.toList_append]
  rw [compactMembers, List.map_cons, List.map_cons] at htexts
  obtain ⟨hfirst, hothers⟩ := List.cons.inj htexts
  have hfurther : (compactMembers members).flatMap (fun text => ',' :: text.toList)
      = furtherMembers members := by
    rw [furtherMembers, ← List.flatMap_map String.toList (',' :: ·), hothers, List.flatMap_map]
  rw [compactMembers, toList_joined (c := ',') rfl, hfirst, hfurther]
  simp

/-- Members that a record is made of, one after another. -/
inductive Fills {ρ : Type} (form : RecordForm ρ) :
    (seen : List String) → ρ → List (String × Json) → ρ → Prop
  | nil {seen : List String} {record : ρ}
      (h : (form.fields.find? fun field => field.required ∧ field.key ∉ seen) = none) :
      Fills form seen record [] record
  | cons {seen : List String} {record record' final : ρ} {key : String} {value : Json}
      {field : Field ρ} {members : List (String × Json)} (hkey : key.toList.all isPlain = true)
      (hfield : (form.fields.find? fun field => field.key = key) = some field)
      (hseen : key ∉ seen)
      (hvalue : ∀ s, NumberEnds s → Reads (field.read record) (value.compact.toList ++ s) record' s)
      (hrest : Fills form (key :: seen) record' members final) :
      Fills form seen record ((key, value) :: members) final

section

variable {ρ : Type} {form : RecordForm ρ} {seen : List String} {record final : ρ}
  {members : List (String × Json)}

theorem Fills.isPlain (h : Fills form seen record members final) :
    ∀ member ∈ members, member.1.toList.all isPlain = true := by
  induction h with
  | nil => exact fun _ hmem => absurd hmem List.not_mem_nil
  | cons hkey _ _ _ _ ih => exact List.forall_mem_cons.mpr ⟨hkey, ih⟩

theorem numberEnds_furtherMembers (members : List (String × Json)) (s : List Char) :
    NumberEnds (furtherMembers members ++ '\x7d' :: s) := by
  cases members with
  | nil => exact numberEnds_cons (by simp) s
  | cons member members => exact numberEnds_cons (by simp) _

theorem length_le_furtherMembers (members : List (String × Json)) :
    members.length ≤ (furtherMembers members).length := by
  induction members with
  | nil => exact Nat.le_refl _
  | cons member members ih =>
    simp only [furtherMembers, List.flatMap_cons, List.length_append, List.length_cons] at ih ⊢
    omega

/-- Members behind the first are read into their fields. -/
theorem Fills.reads (h : Fills form seen record members final) {count : Nat}
    (hcount : members.length < count) (s : List Char) :
    Reads (membersWithin form count false seen record) (furtherMembers members ++ '\x7d' :: s)
      final s := by
  induction h generalizing count with
  | nil h =>
    obtain ⟨count, rfl⟩ := Nat.exists_eq_add_one_of_ne_zero (Nat.ne_of_gt hcount)
    exact reads_members_end false h s
  | @cons _ _ _ _ key value _ members hkey hfield hseen hvalue _ ih =>
    obtain ⟨count, rfl⟩ := Nat.exists_eq_add_one_of_ne_zero (Nat.ne_zero_of_lt hcount)
    have hinput : furtherMembers ((key, value) :: members) ++ '\x7d' :: s
        = behindComma false ([] ++ '"' :: (key.toList ++ '"' :: ([] ++ ':' ::
            (value.compact.toList ++ (furtherMembers members ++ '\x7d' :: s))))) := by
      simp [furtherMembers, memberText, behindComma]
    rw [hinput]
    exact reads_member spaces_nil spaces_nil (isSpelling_self hkey) hfield hseen
      (hvalue _ (numberEnds_furtherMembers members s)) (ih (Nat.lt_of_succ_lt_succ hcount))

/-- A record is read back from the object that it was written as, whose members it `Fills`. -/
theorem Fills.reads_object {member : String × Json}
    (h : Fills form [] form.initial (member :: members) final) (s : List Char) :
    Reads (Reader.record form) ((Json.object (member :: members)).compact.toList ++ s) final s := by
  rw [toList_compact_object h.isPlain]
  cases h with
  | @cons _ _ _ _ key value _ _ hkey hfield hseen hvalue hrest =>
    have hinput : '\x7b' :: (memberText (key, value) ++ (furtherMembers members ++ ['\x7d'])) ++ s
        = '\x7b' :: behindComma true ([] ++ '"' :: (key.toList ++ '"' :: ([] ++ ':' ::
            (value.compact.toList ++ (furtherMembers members ++ '\x7d' :: s))))) := by
      simp [memberText, behindComma]
    have hlength := length_le_furtherMembers members
    rw [hinput]
    refine reads_record ?_
    exact reads_member spaces_nil spaces_nil (isSpelling_self hkey) hfield hseen
      (hvalue _ (numberEnds_furtherMembers members s)) (hrest.reads (by
        simp only [behindComma, if_pos, List.length_append, List.length_cons]; omega) s)

end

/-! ## Variants, options and truth values -/

section

variable {α : Type} {variants : List (String × Variant α)} {name found : String}
  (hname : name.toList.all isPlain = true)
include hname

theorem reads_variantName {variant : Variant α}
    (hfind : (variants.find? fun v => v.1 = name) = some (found, variant)) (s : List Char) :
    Reads (variantName variants) ('"' :: (name.toList ++ '"' :: s)) variant s := by
  refine .bind (.eat '"' _) (.bind (reads_text (isSpelling_self hname) s) ?_)
  rw [hfind]
  exact .pure variant s

/-- A variant that is a value of its own is read back from its name. -/
theorem reads_bareVariant {a : α}
    (hfind : (variants.find? fun v => v.1 = name) = some (found, .bare a)) (s : List Char) :
    Reads (variant variants) ((Json.text name).compact.toList ++ s) a s := by
  have hinput : (Json.text name).compact.toList ++ s = '"' :: (name.toList ++ '"' :: s) := by
    rw [compact, toList_quote hname]
    simp
  rw [hinput]
  exact .bind (.next rfl _) (.bind (reads_variantName hname hfind s) (.pure a s))

/-- A variant made from a byte is read back from an object. -/
theorem reads_byteVariant {make : UInt8 → α}
    (hfind : (variants.find? fun v => v.1 = name) = some (found, .ofByte make)) (b : UInt8)
    (s : List Char) :
    Reads (variant variants) ((Json.object [(name, .byte b)]).compact.toList ++ s) (make b) s := by
  have hinput : (Json.object [(name, .byte b)]).compact.toList ++ s
      = '\x7b' :: '"' :: (name.toList ++ '"' :: ([] ++ ':' ::
          ((Json.byte b).compact.toList ++ '\x7d' :: s))) := by
    rw [toList_compact_object (List.forall_mem_cons.mpr ⟨hname, by simp⟩)]
    simp [memberText, furtherMembers]
  have hbyte := reads_byte (numberEnds_cons (c := '\x7d') (by simp) s) b
  rw [hinput]
  refine .bind (.next rfl _) (.bind (.eat '\x7b' _) (.bind (.bind (.next rfl _)
    (reads_variantName hname hfind _)) (.bind (reads_colon spaces_nil _) ?_)))
  exact .bind hbyte (.bind (.pure (make b) _)
    (.bind (.next rfl s) (.bind (.eat '\x7d' s) (.pure (make b) s))))

end

/-- A value that may be absent is read back, if its text does not begin like that of none. -/
theorem reads_optional {α : Type} {read : Reader α} {f : α → Json} {value : Option α}
    {s : List Char}
    (hhead : ∀ a, ∃ c cs, (f a).compact.toList = c :: cs ∧ isSpace c = false ∧ c ≠ 'n')
    (hread : ∀ a, Reads read ((f a).compact.toList ++ s) a s) :
    Reads (optional read) ((Json.option f value).compact.toList ++ s) value s := by
  cases value with
  | none =>
    have hinput : (Json.option f none).compact.toList ++ s = 'n' :: (['u', 'l', 'l'] ++ s) := by
      simp [option, compact]
    rw [hinput]
    exact .bind (.next rfl _) (.bind (.eat 'n' _) (.bind (reads_word _ s) (.pure none s)))
  | some a =>
    have ha := hread a
    obtain ⟨c, cs, htext, hspace, hnull⟩ := hhead a
    show Reads (optional read) ((f a).compact.toList ++ s) (some a) s
    rw [htext] at ha ⊢
    refine .bind (.next hspace _) ?_
    split
    · next h => exact absurd (Option.some.inj h) hnull
    · exact .bind ha (.pure (some a) s)

theorem reads_bool (b : Bool) (s : List Char) :
    Reads Reader.bool ((Json.bool b).compact.toList ++ s) b s := by
  cases b with
  | true => exact .bind (.next rfl _) (.bind (.eat 't' _) (.bind (reads_word _ s) (.pure true s)))
  | false => exact .bind (.next rfl _) (.bind (.eat 'f' _) (.bind (reads_word _ s) (.pure false s)))

end Kenbak1.Json
