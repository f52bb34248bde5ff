/-
  Kenbak1.Proofs.Instruction.Text

  What a line of a listing tells. `wordsOf_text` divides a line into its mnemonic and `wordsBehind`:
  they tell the operation, the register, bit or condition and the operand, so no two instructions
  that act differently (`ActAlike`) are listed alike (`actAlike_of_words`).
-/
import Kenbak1.Machine.Execute
import Kenbak1.Proofs.Instruction.Operand

namespace Kenbak1

/-! ## Mnemonics and conditions -/

/-- No mnemonic begins with the words of another. -/
theorem Operation.eq_of_prefix {f g : Operation}
    (h : wordsOf f.mnemonic <+: wordsOf g.mnemonic) : f = g := by
  revert h
  cases f <;> cases g <;> decide

theorem wordsOf_symbol (c : Condition) : wordsOf c.symbol = [c.symbol.toList] := by
  cases c <;> decide

theorem Condition.symbol_injective : Function.Injective Condition.symbol := by
  intro c d h
  cases c <;> cases d <;> first | rfl | simp [symbol] at h

/-! ## Lines -/

namespace Instruction

/-- The words of a jump that tell when it is taken. -/
def testWords (i : Instruction) : List (List Char) :=
  match i.condition with
  | some condition => wordsOf i.registerText ++ wordsOf condition.symbol
  | none => wordsOf unconditional

/-- The words of a line behind the mnemonic. -/
def wordsBehind (i : Instruction) (x : UInt8) : List (List Char) :=
  let shown := wordsOf (operandText i.mode x)
  match i.operation with
  | .add | .sub | .load => wordsOf i.registerText ++ shown
  | .store => shown ++ wordsOf i.registerText
  | .or | .and | .lneg => shown
  | .jpd | .jpi | .jmd | .jmi => i.testWords ++ shown
  | .skp0 | .skp1 | .set0 | .set1 => wordsOf ("b" ++ i.bitText) ++ shown
  | .sftl | .sftr | .rotl | .rotr => wordsOf (i.registerText ++ i.bitText)
  | .noop | .halt => []

theorem wordsOf_text (i : Instruction) (x : UInt8) :
    wordsOf (i.text x) = wordsOf i.operation.mnemonic ++ i.wordsBehind x := by
  have hbit : i.operation.mnemonic ++ " b" ++ i.bitText
      = i.operation.mnemonic ++ " " ++ ("b" ++ i.bitText) := by
    rw [String.append_assoc, String.append_assoc]
    rfl
  unfold text wordsBehind
  dsimp only
  cases hop : i.operation with
  | add | sub | load | store | or | and | lneg =>
    simp only [wordsOf_append_blank, List.append_assoc]
  | jpd | jpi | jmd | jmi =>
    unfold testWords
    cases i.condition with
    | none => simp only [wordsOf_append_blank, List.append_assoc]
    | some c => simp only [wordsOf_append_blank, List.append_assoc]
  | skp0 | skp1 | set0 | set1 =>
    rw [hop] at hbit
    simp only [hbit, wordsOf_append_blank, List.append_assoc]
  | sftl | sftr | rotl | rotr =>
    simp only [String.append_assoc, ← wordsOf_append_blank]
  | noop | halt => simp only [List.append_nil]

/-! ## Fields told by a line -/

variable {i i₁ i₂ : Instruction} {x₁ x₂ : UInt8}

theorem wordsOf_registerText {r : Register} (h : i.register = some r) :
    wordsOf i.registerText = [r.name.toList] := by
  rw [registerText, h]
  exact wordsOf_name r

theorem eq_of_name {r₁ r₂ : Register} (h : r₁.name.toList = r₂.name.toList) : r₁ = r₂ :=
  Register.name_injective (String.toList_inj.mp h)

theorem toList_bitText {n : UInt8} (h : i.bit = some n) (hn : n.toNat < 8) :
    i.bitText.toList = [digitChar n.toNat] := by
  have hdigit : ∀ d < 8, (toString d).toList = [digitChar d] := by decide
  rw [bitText, h]
  exact hdigit n.toNat hn

/-- A number of a bit or of places behind other characters is in one word with them. -/
theorem wordsOf_bitText {before : String} (hbefore : before.toList.any isBlank = false)
    {n : UInt8} (h : i.bit = some n) (hn : n.toNat < 8) :
    wordsOf (before ++ i.bitText) = [before.toList ++ [digitChar n.toNat]] := by
  have hlist : (before ++ i.bitText).toList = before.toList ++ [digitChar n.toNat] := by
    rw [String.toList_append, toList_bitText h hn]
  rw [← hlist]
  refine wordsOf_eq_singleton ?_ fun c hc => ?_
  · simp [hlist]
  · rw [hlist, List.mem_append, List.mem_singleton] at hc
    rcases hc with hc | rfl
    · exact Bool.eq_false_iff.mpr (List.any_eq_false.mp hbefore c hc)
    · exact isBlank_eq_false_of_isOctalDigit (isOctalDigit_digitChar hn).1

theorem eq_of_digitChar {n₁ n₂ : UInt8} (hn₁ : n₁.toNat < 8) (hn₂ : n₂.toNat < 8)
    (h : digitChar n₁.toNat = digitChar n₂.toNat) : n₁ = n₂ := by
  have hvalue := congrArg digitValue h
  rw [(isOctalDigit_digitChar hn₁).2, (isOctalDigit_digitChar hn₂).2] at hvalue
  exact UInt8.toNat_inj.mp hvalue

/-! ## Actions told by a line -/

variable {a₁ a₂ : Action}

/-- Two instructions with their operand bytes act alike: they are of one size, and on every
    machine they do the same. -/
structure ActAlike (i₁ : Instruction) (x₁ : UInt8) (i₂ : Instruction) (x₂ : UInt8) : Prop where
  size : i₁.size = i₂.size
  execute : ∀ {β : Type} [Bus β] (m : Machine β), m.execute i₁ x₁ = m.execute i₂ x₂

theorem ActAlike.of_action (h₁ : i₁.action = .ok a₁) (h₂ : i₂.action = .ok a₂)
    (hmode : i₁.mode = i₂.mode)
    (hperform : ∀ {β : Type} [Bus β] (m : Machine β), m.perform a₁ x₁ = m.perform a₂ x₂) :
    ActAlike i₁ x₁ i₂ x₂ where
  size := by
    unfold Instruction.size hasOperand
    rw [hmode]
  execute m := by
    rw [Machine.execute, Machine.execute, h₁, h₂]
    exact hperform m

/-- Operands with the same words. -/
theorem mode_eq_of_words {mode₁ mode₂ : Mode} (h₁ : i₁.mode = some mode₁)
    (h₂ : i₂.mode = some mode₂)
    (h : wordsOf (operandText i₁.mode x₁) = wordsOf (operandText i₂.mode x₂)) :
    mode₁ = mode₂ ∧ x₁ = x₂ := by
  rw [h₁, h₂] at h
  exact operandText_injective h

theorem combination_told {f : Combination} (h₁ : i₁.combination f = .ok a₁)
    (h₂ : i₂.combination f = .ok a₂)
    (h : wordsOf i₁.registerText ++ wordsOf (operandText i₁.mode x₁)
      = wordsOf i₂.registerText ++ wordsOf (operandText i₂.mode x₂)) :
    i₁.mode = i₂.mode ∧ a₁ = a₂ ∧ x₁ = x₂ := by
  obtain ⟨mode₁, r₁, hmode₁, hr₁, rfl⟩ := combination_eq_ok.mp h₁
  obtain ⟨mode₂, r₂, hmode₂, hr₂, rfl⟩ := combination_eq_ok.mp h₂
  rw [wordsOf_registerText hr₁, wordsOf_registerText hr₂] at h
  obtain ⟨hname, hshown⟩ := List.cons_eq_cons.mp h
  obtain rfl := eq_of_name hname
  obtain ⟨rfl, rfl⟩ := mode_eq_of_words hmode₁ hmode₂ hshown
  exact ⟨hmode₁.trans hmode₂.symm, rfl, rfl⟩

theorem testWords_of_none (h : i.condition = none) : i.testWords = [unconditional.toList] := by
  have hword : wordsOf unconditional = [unconditional.toList] := by decide
  rw [testWords, h]
  exact hword

theorem testWords_of_some {c : Condition} {r : Register} (hc : i.condition = some c)
    (hr : i.register = some r) : i.testWords = [r.name.toList, c.symbol.toList] := by
  rw [testWords, hc]
  show wordsOf i.registerText ++ wordsOf c.symbol = _
  rw [wordsOf_registerText hr, wordsOf_symbol]
  rfl

theorem jump_told (h₁ : i₁.jump = .ok a₁) (h₂ : i₂.jump = .ok a₂) (hmark : i₁.mark = i₂.mark)
    (h : i₁.testWords ++ wordsOf (operandText i₁.mode x₁)
      = i₂.testWords ++ wordsOf (operandText i₂.mode x₂)) :
    i₁.mode = i₂.mode ∧ a₁ = a₂ ∧ x₁ = x₂ := by
  -- No register is called what an unconditional jump says in its place.
  have hname : ∀ r : Register, r.name.toList ≠ unconditional.toList := by
    intro r
    cases r <;> decide
  obtain ⟨mode₁, hmode₁, ⟨hc₁, rfl⟩ | ⟨c₁, r₁, hc₁, hr₁, rfl⟩⟩ := jump_eq_ok h₁
  · rw [testWords_of_none hc₁] at h
    obtain ⟨mode₂, hmode₂, ⟨hc₂, rfl⟩ | ⟨c₂, r₂, hc₂, hr₂, rfl⟩⟩ := jump_eq_ok h₂
    · rw [testWords_of_none hc₂] at h
      obtain ⟨rfl, rfl⟩ := mode_eq_of_words hmode₁ hmode₂ (List.append_cancel_left h)
      exact ⟨hmode₁.trans hmode₂.symm, by rw [hmark], rfl⟩
    · rw [testWords_of_some hc₂ hr₂] at h
      exact absurd (List.cons_eq_cons.mp h).1.symm (hname r₂)
  · rw [testWords_of_some hc₁ hr₁] at h
    obtain ⟨mode₂, hmode₂, ⟨hc₂, rfl⟩ | ⟨c₂, r₂, hc₂, hr₂, rfl⟩⟩ := jump_eq_ok h₂
    · rw [testWords_of_none hc₂] at h
      exact absurd (List.cons_eq_cons.mp h).1 (hname r₁)
    · rw [testWords_of_some hc₂ hr₂] at h
      obtain ⟨hregister, hrest⟩ := List.cons_eq_cons.mp h
      obtain ⟨hsymbol, hshown⟩ := List.cons_eq_cons.mp hrest
      obtain rfl := eq_of_name hregister
      obtain rfl := Condition.symbol_injective (String.toList_inj.mp hsymbol)
      obtain ⟨rfl, rfl⟩ := mode_eq_of_words hmode₁ hmode₂ hshown
      exact ⟨hmode₁.trans hmode₂.symm, by rw [hmark], rfl⟩

theorem store_told {r₁ r₂ : Register} {mode₁ mode₂ : Mode} (hr₁ : i₁.register = some r₁)
    (hr₂ : i₂.register = some r₂) (hmode₁ : i₁.mode = some mode₁) (hmode₂ : i₂.mode = some mode₂)
    (h : wordsOf (operandText i₁.mode x₁) ++ wordsOf i₁.registerText
      = wordsOf (operandText i₂.mode x₂) ++ wordsOf i₂.registerText) :
    r₁ = r₂ ∧ mode₁ = mode₂ ∧ x₁ = x₂ := by
  rw [wordsOf_registerText hr₁, wordsOf_registerText hr₂] at h
  obtain ⟨hshown, hname⟩ := List.append_inj' h rfl
  obtain ⟨rfl, rfl⟩ := mode_eq_of_words hmode₁ hmode₂ hshown
  exact ⟨eq_of_name (List.singleton_inj.mp hname), rfl, rfl⟩

/-- The bit and the operand of an instruction that works on a bit. -/
theorem bit_told {n₁ n₂ : UInt8} (hbit₁ : i₁.bit = some n₁) (hbit₂ : i₂.bit = some n₂)
    (hn₁ : n₁.toNat < 8) (hn₂ : n₂.toNat < 8) (hmode₁ : i₁.mode = some .memory)
    (hmode₂ : i₂.mode = some .memory)
    (h : wordsOf ("b" ++ i₁.bitText) ++ wordsOf (operandText i₁.mode x₁)
      = wordsOf ("b" ++ i₂.bitText) ++ wordsOf (operandText i₂.mode x₂)) :
    n₁ = n₂ ∧ x₁ = x₂ := by
  rw [wordsOf_bitText rfl hbit₁ hn₁, wordsOf_bitText rfl hbit₂ hn₂] at h
  obtain ⟨hword, hshown⟩ := List.cons_eq_cons.mp h
  obtain ⟨-, hdigit⟩ := List.append_inj' hword rfl
  exact ⟨eq_of_digitChar hn₁ hn₂ (List.singleton_inj.mp hdigit),
    (mode_eq_of_words hmode₁ hmode₂ hshown).2⟩

/-- The register and the places of a shift, which are in one word. -/
theorem shift_told {r₁ r₂ : Register} {n₁ n₂ : UInt8} (hr₁ : i₁.register = some r₁)
    (hr₂ : i₂.register = some r₂) (hbit₁ : i₁.bit = some n₁) (hbit₂ : i₂.bit = some n₂)
    (hn₁ : n₁.toNat < 8) (hn₂ : n₂.toNat < 8)
    (h : wordsOf (i₁.registerText ++ i₁.bitText) = wordsOf (i₂.registerText ++ i₂.bitText)) :
    r₁ = r₂ ∧ n₁ = n₂ := by
  have hname : ∀ r : Register, r.name.toList.any isBlank = false := by
    intro r
    cases r <;> rfl
  have hword : ∀ {i : Instruction} {r : Register} {n : UInt8}, i.register = some r →
      i.bit = some n → n.toNat < 8 →
      wordsOf (i.registerText ++ i.bitText) = [r.name.toList ++ [digitChar n.toNat]] := by
    intro i r n hr hbit hn
    rw [registerText, hr]
    exact wordsOf_bitText (hname r) hbit hn
  rw [hword hr₁ hbit₁ hn₁, hword hr₂ hbit₂ hn₂] at h
  obtain ⟨hregister, hdigit⟩ := List.append_inj' (List.singleton_inj.mp h) rfl
  exact ⟨eq_of_name hregister, eq_of_digitChar hn₁ hn₂ (List.singleton_inj.mp hdigit)⟩

/-- Executable instructions of one operation whose lines have the same `wordsBehind` the mnemonic
    `ActAlike`. -/
theorem actAlike_of_words (hwf₁ : i₁.WellFormed) (hwf₂ : i₂.WellFormed) (h₁ : i₁.action = .ok a₁)
    (h₂ : i₂.action = .ok a₂) (hop : i₁.operation = i₂.operation)
    (h : i₁.wordsBehind x₁ = i₂.wordsBehind x₂) : ActAlike i₁ x₁ i₂ x₂ := by
  have halike : i₁.mode = i₂.mode ∧ a₁ = a₂ ∧ x₁ = x₂ → ActAlike i₁ x₁ i₂ x₂ := by
    rintro ⟨hmode, rfl, rfl⟩
    exact .of_action h₁ h₂ hmode fun _ => rfl
  have haction₁ := h₁
  have haction₂ := h₂
  unfold Instruction.action at haction₁ haction₂
  unfold wordsBehind at h
  rw [← hop] at haction₂ h
  -- The cases are the families of operations whose lines are written alike.
  cases hop₁ : i₁.operation with
  | add | sub | load =>
    simp only [hop₁] at h haction₁ haction₂
    exact halike (combination_told haction₁ haction₂ h)
  | or | and | lneg =>
    simp only [hop₁] at h haction₁ haction₂
    -- The line of a logic operation has no register: it works on A.
    have hregister : i₁.registerText = i₂.registerText := by
      rw [registerText, registerText, hwf₁.logic (by simp [hop₁]),
        hwf₂.logic (by simp [← hop, hop₁])]
    exact halike (combination_told haction₁ haction₂ (by rw [h, hregister]))
  | store =>
    simp only [hop₁] at h haction₁ haction₂
    simp only [bind_eq_ok, needRegister_eq_ok, needMode_eq_ok, pure, Except.pure,
      Except.ok.injEq] at haction₁ haction₂
    obtain ⟨r₁, hr₁, mode₁, hmode₁, rfl⟩ := haction₁
    obtain ⟨r₂, hr₂, mode₂, hmode₂, rfl⟩ := haction₂
    obtain ⟨rfl, rfl, hx⟩ := store_told hr₁ hr₂ hmode₁ hmode₂ h
    exact halike ⟨hmode₁.trans hmode₂.symm, rfl, hx⟩
  | jpd | jpi | jmd | jmi =>
    simp only [hop₁] at h haction₁ haction₂
    have hmark : i₁.mark = i₂.mark := by rw [hwf₁.mark, hwf₂.mark, hop]
    exact halike (jump_told haction₁ haction₂ hmark h)
  | skp0 | skp1 | set0 | set1 =>
    simp only [hop₁] at h haction₁ haction₂
    simp only [bind_eq_ok, needBit_eq_ok, pure, Except.pure, Except.ok.injEq] at haction₁ haction₂
    obtain ⟨n₁, hn₁, rfl⟩ := haction₁
    obtain ⟨n₂, hn₂, rfl⟩ := haction₂
    have hmode₁ := hwf₁.bitCell (by simp [hop₁])
    have hmode₂ := hwf₂.bitCell (by simp [← hop, hop₁])
    obtain ⟨hbit, hx⟩ := bit_told hn₁ hn₂ (hwf₁.bit _ hn₁) (hwf₂.bit _ hn₂) hmode₁ hmode₂ h
    obtain rfl : n₁ = n₂ := by
      have hnat := congrArg UInt8.toNat hbit
      rw [UInt8.toNat_ofNat', UInt8.toNat_ofNat'] at hnat
      omega
    exact halike ⟨hmode₁.trans hmode₂.symm, rfl, hx⟩
  | sftl | sftr | rotl | rotr =>
    simp only [hop₁] at h haction₁ haction₂
    obtain ⟨r₁, n₁, hr₁, hn₁, rfl⟩ := shiftAction_eq_ok.mp haction₁
    obtain ⟨r₂, n₂, hr₂, hn₂, rfl⟩ := shiftAction_eq_ok.mp haction₂
    -- A shift is a single byte, so the bytes behind the two opcodes may differ.
    have hmode₁ := hwf₁.single (by simp [hop₁])
    have hmode₂ := hwf₂.single (by simp [← hop, hop₁])
    obtain ⟨rfl, rfl⟩ := shift_told hr₁ hr₂ hn₁ hn₂ (hwf₁.bit _ hn₁) (hwf₂.bit _ hn₂) h
    exact .of_action h₁ h₂ (hmode₁.trans hmode₂.symm) fun _ => rfl
  | noop | halt =>
    simp only [hop₁, pure, Except.pure, Except.ok.injEq] at haction₁ haction₂
    subst haction₁ haction₂
    have hmode₁ := hwf₁.single (by simp [hop₁])
    have hmode₂ := hwf₂.single (by simp [← hop, hop₁])
    exact .of_action h₁ h₂ (hmode₁.trans hmode₂.symm) fun _ => rfl

/-- The `text` of a line tells what its instruction does: opcodes that are listed alike, with their
    operand bytes, stand for instructions of one `size` that `execute` carries out alike on every
    machine. -/
theorem text_determines_behaviour (o₁ o₂ x₁ x₂ : UInt8)
    (h : (decode o₁).text x₁ = (decode o₂).text x₂) :
    (decode o₁).size = (decode o₂).size ∧
      ∀ {β : Type} [Bus β] (m : Machine β),
        m.execute (decode o₁) x₁ = m.execute (decode o₂) x₂ := by
  have hwords := congrArg wordsOf h
  rw [wordsOf_text, wordsOf_text] at hwords
  -- Of two beginnings of one list of words, one begins with the other.
  have hop : (decode o₁).operation = (decode o₂).operation := by
    obtain ⟨rest, hrest, -⟩ | ⟨rest, hrest, -⟩ := List.append_eq_append_iff.mp hwords
    · exact Operation.eq_of_prefix ⟨rest, hrest.symm⟩
    · exact (Operation.eq_of_prefix ⟨rest, hrest.symm⟩).symm
  rw [hop] at hwords
  obtain ⟨a₁, h₁⟩ := exists_action_decode o₁
  obtain ⟨a₂, h₂⟩ := exists_action_decode o₂
  have halike := actAlike_of_words (wellFormed_decode o₁) (wellFormed_decode o₂) h₁ h₂ hop
    (List.append_cancel_left hwords)
  exact ⟨halike.size, halike.execute⟩

/-- The two opcodes of a right shift of A by one place, with different bytes behind them. -/
theorem text_determines_behaviour_right_shift :
    (decode 0o011).text 0 = (decode 0o311).text 7 ∧
      (decode 0o011).size = (decode 0o311).size ∧
      Machine.fresh.execute (decode 0o011) 0 = Machine.fresh.execute (decode 0o311) 7 := by
  have htext : (decode 0o011).text 0 = (decode 0o311).text 7 := by decide
  obtain ⟨hsize, hexecute⟩ := text_determines_behaviour 0o011 0o311 0 7 htext
  exact ⟨htext, hsize, hexecute Machine.fresh⟩

end Instruction
end Kenbak1
