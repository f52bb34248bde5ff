/-
  Kenbak1.Proofs.Stored

  What is stored as JSON is read back: an `Instruction` with all its fields, a `Bank` of registers,
  a `Memory` of any size, a `Button`, the `Lamps`, a `RunState`, and the settings, whose file may
  also be written by hand (`IsSettings`).
-/
import Kenbak1.Proofs.Config
import Kenbak1.Proofs.Lamps
import Kenbak1.Stored

namespace Kenbak1

open Json (Fills IsJson IsSpelling Reader)
open Json.Reader

/-- A value is read back from its `compact` text if its reader reads to the end of it. -/
theorem Json.parse_compact {α : Type} {r : Reader α} {value : Json} {a : α}
    (h : Reads r (value.compact.toList ++ []) a []) : Json.parse r value.compact = .ok a := by
  rw [List.append_nil] at h
  exact Json.parse_eq_ok h Json.spaces_nil

/-! ## Labels -/

theorem Register.reads (r : Register) (s : List Char) :
    Reads Register.reader ((Json.text r.label).compact.toList ++ s) r s :=
  Json.reads_bareVariant (by cases r <;> decide) (by cases r <;> rfl) s

theorem Operation.reads (operation : Operation) (s : List Char) :
    Reads Operation.reader ((Json.text operation.label).compact.toList ++ s) operation s :=
  Json.reads_bareVariant (by cases operation <;> decide) (by cases operation <;> rfl) s

theorem Mode.reads (mode : Mode) (s : List Char) :
    Reads Mode.reader ((Json.text mode.label).compact.toList ++ s) mode s :=
  Json.reads_bareVariant (by cases mode <;> decide) (by cases mode <;> rfl) s

theorem Condition.reads (condition : Condition) (s : List Char) :
    Reads Condition.reader ((Json.text condition.label).compact.toList ++ s) condition s :=
  Json.reads_bareVariant (by cases condition <;> decide) (by cases condition <;> rfl) s

theorem RunState.reads (state : RunState) (s : List Char) :
    Reads RunState.reader ((Json.text state.label).compact.toList ++ s) state s :=
  Json.reads_bareVariant (by cases state <;> decide) (by cases state <;> rfl) s

/-! ## Buttons and lamps -/

theorem Button.reads (button : Button) (s : List Char) :
    Reads Button.reader (button.toJson.compact.toList ++ s) button s := by
  cases button with
  | bit number => exact Json.reads_byteVariant (by decide) rfl number s
  | _ => exact Json.reads_bareVariant (by decide) (by rfl) s

theorem Lamps.reads (lamps : Lamps) {s : List Char} (hs : NumberEnds s) :
    Reads Lamps.reader (lamps.toJson.compact.toList ++ s) lamps s := by
  have h : Reads Lamps.reader (lamps.toJson.compact.toList ++ s) (Lamps.ofWord lamps.word) s :=
    .bind (reads_word16 hs lamps.word) (.pure _ s)
  rwa [Lamps.ofWord_word] at h

/-! ## Registers and memory -/

/-- Bytes under the key `cells` are read as what their list is read as. -/
theorem reads_cellsForm {ρ : Type} {name : String} {initial x : ρ} {read : Reader ρ}
    {cells : List UInt8}
    (h : ∀ s, Reads read ((Json.list (cells.map Json.byte)).compact.toList ++ s) x s)
    (s : List Char) :
    Reads (Reader.record (cellsForm name initial read)) ((cellsJson cells).compact.toList ++ s) x s :=
  Fills.reads_object (.cons (by decide) rfl (by simp) (fun s _ => h s) (.nil rfl)) s

theorem Bank.reads (bank : Bank) (s : List Char) :
    Reads Bank.reader (bank.toJson.compact.toList ++ s) bank s :=
  reads_cellsForm (fun s => .bind (reads_byteArray bank.toList s) (.pure bank s)) s

theorem Memory.reads (m : Memory) (s : List Char) :
    Reads Memory.reader (m.toJson.compact.toList ++ s) m s :=
  reads_cellsForm (fun s => .bind (reads_bytes m.cells.toList s) (.pure m s)) s

/-! ## Instructions -/

theorem head_text (name : String) :
    ∃ c cs, (Json.text name).compact.toList = c :: cs ∧ Json.isSpace c = false ∧ c ≠ 'n' := by
  have hquote : (Json.text name).compact.toList
      = '"' :: ((String.join (name.toList.map Json.escaped)).toList ++ ['"']) := by
    rw [Json.compact, Json.quote, String.toList_append, String.toList_append]
    rfl
  exact ⟨'"', _, hquote, by decide, by decide⟩

theorem head_byte (b : UInt8) :
    ∃ c cs, (Json.byte b).compact.toList = c :: cs ∧ Json.isSpace c = false ∧ c ≠ 'n' := by
  obtain ⟨c, cs, htext, hc⟩ := exists_byte_cons b
  exact ⟨c, cs, htext, isSpace_of_isDigit hc, ne_of_isDigit hc rfl⟩

/-- The fields of an `Instruction` are read one after another. -/
theorem Instruction.fills (i : Instruction) :
    ∃ member members, i.toJson = .object (member :: members) ∧
      Fills form [] form.initial (member :: members) i := by
  refine ⟨_, _, rfl, ?_⟩
  refine .cons (by decide) rfl (by simp)
    (fun s hs => .bind (reads_byte hs i.opcode) (.pure _ s)) ?_
  refine .cons (by decide) rfl (by simp)
    (fun s _ => .bind (i.operation.reads s) (.pure _ s)) ?_
  refine .cons (by decide) rfl (by simp)
    (fun s _ => .bind (Json.reads_optional (fun _ => head_text _) (fun m => m.reads s))
      (.pure _ s)) ?_
  refine .cons (by decide) rfl (by simp)
    (fun s _ => .bind (Json.reads_optional (fun _ => head_text _) (fun r => r.reads s))
      (.pure _ s)) ?_
  refine .cons (by decide) rfl (by simp)
    (fun s hs => .bind (Json.reads_optional head_byte (fun b => reads_byte hs b)) (.pure _ s)) ?_
  refine .cons (by decide) rfl (by simp)
    (fun s _ => .bind (Json.reads_optional (fun _ => head_text _) (fun c => c.reads s))
      (.pure _ s)) ?_
  refine .cons (by decide) rfl (by simp)
    (fun s _ => .bind (Json.reads_bool i.mark s) (.pure _ s)) ?_
  exact .nil rfl

theorem Instruction.reads (i : Instruction) (s : List Char) :
    Reads Instruction.reader (i.toJson.compact.toList ++ s) i s := by
  obtain ⟨member, members, hobject, hfills⟩ := i.fills
  rw [hobject]
  exact hfills.reads_object s

/-! ## Everything that is stored -/

/-- What is stored is read back. A configuration that `Config.save` wrote to a file is loaded from
    it. In a file that is written by hand (`IsSettings`) the settings may come in any order, with
    any other members between them: what it gives is in force, and what it does not give has its
    default. And each `Instruction`, `Bank`, `Button`, pattern of `Lamps`, `RunState` and `Memory`
    is read from the text that it is stored as. -/
theorem stored_read_back :
    (∀ config : Config, Config.parse config.render = .ok config ∧
      ∀ store path after, config.save store path = .ok after →
        Config.load after.readBytes path = .ok config) ∧
    (∀ given text, IsSettings given text.toList → (given.map Setting.key).Nodup →
      ∃ config, Config.parse text = .ok config ∧ ∀ s, s ∈ config.settings ↔
        s ∈ given ∨ (s ∈ ({} : Config).settings ∧ s.key ∉ given.map Setting.key)) ∧
    (∀ i : Instruction, Json.parse Instruction.reader i.toJson.compact = .ok i) ∧
    (∀ bank : Bank, Json.parse Bank.reader bank.toJson.compact = .ok bank) ∧
    (∀ button : Button, Json.parse Button.reader button.toJson.compact = .ok button) ∧
    (∀ lamps : Lamps, Json.parse Lamps.reader lamps.toJson.compact = .ok lamps) ∧
    (∀ state : RunState, Json.parse RunState.reader (Json.text state.label).compact = .ok state) ∧
    (∀ m : Memory, Json.parse Memory.reader m.toJson.compact = .ok m) := by
  have hend : NumberEnds [] := fun _ h => by cases h
  refine ⟨fun config => ⟨config.parse_render, fun _ _ _ => Config.load_of_save⟩,
    fun given text htext hdistinct => ?_, fun i => Json.parse_compact (i.reads []),
    fun bank => Json.parse_compact (bank.reads []),
    fun button => Json.parse_compact (button.reads []),
    fun lamps => Json.parse_compact (lamps.reads hend),
    fun state => Json.parse_compact (state.reads []), fun m => Json.parse_compact (m.reads [])⟩
  exact ⟨_, Config.parse_eq_ok_of_isSettings htext hdistinct,
    Config.mem_settings_foldl given hdistinct {}⟩

/-- A file with one setting, the key of which holds an escape, behind another member. -/
theorem stored_read_back_partial :
    let text := "\x7b \"note\": [1e9, \x7b\x7d],\n\"\\u0062urst_cycles\" :-7\x7d"
    let given := [Setting.burstCycles (-7)]
    IsSettings given text.toList ∧ (given.map Setting.key).Nodup ∧
      ∃ config, Config.parse text = .ok config ∧
        .burstCycles (-7) ∈ config.settings ∧ .loadAddress 0o004 ∈ config.settings := by
  intro text given
  have hnone : Json.Spaces [] := rfl
  have hblank : Json.Spaces [' '] := rfl
  have hfeed : Json.Spaces ['\n'] := rfl
  -- The other member holds a number with an exponent and an empty object.
  have hnumber : IsJson .value (['1'] ++ ([] ++ 'e' :: ([] ++ ['9']))) :=
    .number (.mk ⟨⟨by simp, rfl⟩, by simp⟩ .none (.some (by simp) (by simp) ⟨by simp, rfl⟩))
  have hother : "note" ∉ Setting.keys := by decide
  have hnote := IsMember.other hother (isSpelling_self (by decide)) hnone hblank
    (.list hnone (.elements hnumber hnone hblank (.lastElement (.emptyObject hnone) hnone)))
  -- The first letter of the key is written by its number.
  have hkey : IsSpelling (Setting.burstCycles (-7)).key.toList
      ('\\' :: 'u' :: ['0', '0', '6', '2'] ++ "urst_cycles".toList) := by
    have hchars : (Setting.burstCycles (-7)).key.toList
        = Char.ofNat 0x62 :: "urst_cycles".toList := by decide
    rw [hchars]
    exact .cons (.number ⟨rfl, rfl⟩ (by decide)) (isSpelling_self (by decide))
  have hburst := IsMember.setting _ hkey hblank hnone
  have htext : IsSettings given text.toList := by
    refine Eq.mpr (congrArg (IsSettings given) ?_)
      (.members hnone hblank (.more hnote hnone hfeed (.last hburst hnone)) hnone)
    decide
  have hdistinct : (given.map Setting.key).Nodup := by simp [given]
  obtain ⟨-, hread, -⟩ := stored_read_back
  obtain ⟨config, hparse, hsettings⟩ := hread given text htext hdistinct
  refine ⟨htext, hdistinct, config, hparse, (hsettings _).mpr (.inl (by simp [given])),
    (hsettings _).mpr (.inr ⟨?_, ?_⟩)⟩
  · simp [Config.settings]
  · simp [given, Setting.key]

end Kenbak1
