/-
  Kenbak1.Proofs.Config

  Settings files. `IsSettings` is the grammar of such a file: it may give any `Setting` of the four,
  in any order, and hold whatever else besides. `parse_eq_ok_of_isSettings` says that what it gives
  is read and what it does not give keeps its default. `render` writes a file that gives all four
  (`isSettings_render`).
-/
import Mathlib.Data.List.Nodup
import Kenbak1.Config
import Kenbak1.Proofs.FileStore
import Kenbak1.Proofs.Json.Records

namespace Kenbak1

open Json (IsJson IsSpelling Spaces)
open Json.Reader

/-! ## Settings -/

/-- One of the settings of a machine. -/
inductive Setting where
  | clockHz (value : UInt32)
  | cyclesPerInstruction (value : UInt32)
  | burstCycles (value : Int64)
  | loadAddress (value : UInt8)
  deriving DecidableEq

namespace Setting

/-- The keys of the settings. -/
def keys : List String :=
  ["clock_hz", "cycles_per_instruction", "burst_cycles", "load_address"]

def key : Setting → String
  | clockHz _ => "clock_hz"
  | cyclesPerInstruction _ => "cycles_per_instruction"
  | burstCycles _ => "burst_cycles"
  | loadAddress _ => "load_address"

/-- The number that a file gives. -/
def number : Setting → Int
  | clockHz value | cyclesPerInstruction value => value.toNat
  | burstCycles value => value.toInt
  | loadAddress value => value.toNat

/-- Changes the setting. -/
def apply (config : Config) : Setting → Config
  | clockHz value => { config with clockHz := value }
  | cyclesPerInstruction value => { config with cyclesPerInstruction := value }
  | burstCycles value => { config with burstCycles := value }
  | loadAddress value => { config with loadAddress := value }

end Setting

namespace Config

/-- All settings. -/
def settings (config : Config) : List Setting :=
  [.clockHz config.clockHz, .cyclesPerInstruction config.cyclesPerInstruction,
    .burstCycles config.burstCycles, .loadAddress config.loadAddress]

theorem mem_settings_apply (config : Config) (setting s : Setting) :
    s ∈ (setting.apply config).settings ↔
      s = setting ∨ (s ∈ config.settings ∧ s.key ≠ setting.key) := by
  cases setting <;> cases s <;> simp [settings, Setting.apply, Setting.key]

/-- Where no setting is given twice, each one that is given is in force (`apply`), and every other
    one is as it was. -/
theorem mem_settings_foldl (given : List Setting) (h : (given.map Setting.key).Nodup)
    (config : Config) (s : Setting) :
    s ∈ (given.foldl Setting.apply config).settings ↔
      s ∈ given ∨ (s ∈ config.settings ∧ s.key ∉ given.map Setting.key) := by
  induction given generalizing config with
  | nil => simp
  | cons setting rest ih =>
    rw [List.map_cons, List.nodup_cons] at h
    have hown : s = setting → s.key ∉ rest.map Setting.key := fun heq => heq ▸ h.1
    rw [List.foldl_cons, ih h.2, mem_settings_apply, List.map_cons, List.mem_cons, List.mem_cons]
    tauto

end Config

/-! ## Texts -/

/-- A member of a settings file: a setting, or anything else under another key. -/
inductive IsMember : Option Setting → List Char → Prop
  | setting (s : Setting) {spelled b b' : List Char} (hkey : IsSpelling s.key.toList spelled)
      (hb : Spaces b) (hb' : Spaces b') :
      IsMember (some s)
        ('"' :: (spelled ++ '"' :: (b ++ ':' :: (b' ++ (toString s.number).toList))))
  | other {key : String} {spelled b b' value : List Char} (hother : key ∉ Setting.keys)
      (hkey : IsSpelling key.toList spelled) (hb : Spaces b) (hb' : Spaces b')
      (h : IsJson .value value) :
      IsMember none ('"' :: (spelled ++ '"' :: (b ++ ':' :: (b' ++ value))))

/-- The members of a settings file, and the settings among them. -/
inductive IsMembers : List Setting → List Char → Prop
  | last {given : Option Setting} {s b : List Char} (h : IsMember given s) (hb : Spaces b) :
      IsMembers given.toList (s ++ b)
  | more {given : Option Setting} {others : List Setting} {s b b' rest : List Char}
      (h : IsMember given s) (hb : Spaces b) (hb' : Spaces b') (hrest : IsMembers others rest) :
      IsMembers (given.toList ++ others) (s ++ (b ++ ',' :: (b' ++ rest)))

/-- A settings file, and the settings that it gives. -/
inductive IsSettings : List Setting → List Char → Prop
  | empty {b b' b'' : List Char} (hb : Spaces b) (hb' : Spaces b') (hb'' : Spaces b'') :
      IsSettings [] (b ++ '\x7b' :: (b' ++ '\x7d' :: b''))
  | members {given : List Setting} {b b' s b'' : List Char} (hb : Spaces b) (hb' : Spaces b')
      (h : IsMembers given s) (hb'' : Spaces b'') :
      IsSettings given (b ++ '\x7b' :: (b' ++ (s ++ '\x7d' :: b'')))

namespace Config

/-! ## Reading -/

/-- A value is read behind blanks and put into the configuration. -/
theorem reads_put {α : Type} {read : Json.Reader α} (hskips : SkipsBlanks read) {value : α}
    {b text u : List Char} (hb : Spaces b) (hread : Reads read (text ++ u) value u)
    (put : α → Config) : Reads (do return put (← read)) (b ++ (text ++ u)) (put value) u :=
  hskips.bind.reads hb (.bind hread (.pure (put value) u))

/-- Each setting has a field that reads it. -/
theorem exists_field (s : Setting) :
    ∃ field, (form.fields.find? fun field => field.key = s.key) = some field ∧
      ∀ config {b u : List Char}, Spaces b → NumberEnds u →
        Reads (field.read config) (b ++ ((toString s.number).toList ++ u)) (s.apply config) u := by
  cases s with
  | clockHz value =>
    exact ⟨_, rfl, fun config _ _ hb hu => reads_put (.bind (.integer _)) hb
      (reads_word32 hu value) fun v => { config with clockHz := v }⟩
  | cyclesPerInstruction value =>
    exact ⟨_, rfl, fun config _ _ hb hu => reads_put (.bind (.integer _)) hb
      (reads_word32 hu value) fun v => { config with cyclesPerInstruction := v }⟩
  | burstCycles value =>
    exact ⟨_, rfl, fun config _ _ hb hu => reads_put (.bind (.integer _)) hb
      (reads_signed64 hu value) fun v => { config with burstCycles := v }⟩
  | loadAddress value =>
    exact ⟨_, rfl, fun config _ _ hb hu => reads_put (.bind (.integer _)) hb
      (reads_byte hu value) fun v => { config with loadAddress := v }⟩

theorem find?_eq_none_of_not_mem {key : String} (h : key ∉ Setting.keys) :
    (form.fields.find? fun field => field.key = key) = none := by
  refine List.find?_eq_none.mpr fun field hfield => ?_
  have hkey : field.key ∈ form.fields.map (·.key) := List.mem_map_of_mem hfield
  have hne : field.key ≠ key := fun heq => h (heq ▸ hkey)
  simpa using hne

/-- A key stands between two quotes. -/
theorem two_le_length_of_isMember {given : Option Setting} {s : List Char}
    (h : IsMember given s) : 2 ≤ s.length := by
  cases h <;> simp only [List.length_cons, List.length_append] <;> omega

section

variable {first : Bool} {count : Nat} {seen : List String} {config x : Config}
  {b s u t : List Char} (hb : Spaces b)
include hb

/-- A member is read; if it is a setting, the setting is changed. -/
theorem reads_isMember {given : Option Setting} (h : IsMember given s)
    (hseen : ∀ setting ∈ given, setting.key ∉ seen) (hu : NumberEnds u)
    (hrest : Reads (membersWithin form count false (given.toList.map Setting.key ++ seen)
      (given.toList.foldl Setting.apply config)) u x t) :
    Reads (membersWithin form (count + 1) first seen config)
      (behindComma first (b ++ (s ++ u))) x t := by
  cases h with
  | @setting setting spelled b₁ b₂ hkey hb₁ hb₂ =>
    obtain ⟨field, hfield, hvalue⟩ := exists_field setting
    have hread := hvalue config hb₂ hu
    rw [← List.append_assoc] at hread
    have hinput : b ++ ('"' :: (spelled ++ '"' :: (b₁ ++ ':' ::
          (b₂ ++ (toString setting.number).toList))) ++ u)
        = b ++ '"' :: (spelled ++ '"' :: (b₁ ++ ':' ::
            ((b₂ ++ (toString setting.number).toList) ++ u))) := by simp
    rw [hinput]
    exact reads_member hb hb₁ hkey hfield (hseen setting rfl) hread hrest
  | @other key spelled b₁ b₂ value hother hkey hb₁ hb₂ hjson =>
    have hread : Reads skipValue ((b₂ ++ value) ++ u) () u := by
      rw [List.append_assoc]
      exact reads_skipValue hb₂ hjson hu
    have hinput : b ++ ('"' :: (spelled ++ '"' :: (b₁ ++ ':' :: (b₂ ++ value))) ++ u)
        = b ++ '"' :: (spelled ++ '"' :: (b₁ ++ ':' :: ((b₂ ++ value) ++ u))) := by simp
    rw [hinput]
    exact reads_unknownMember hb hb₁ hkey (find?_eq_none_of_not_mem hother) hread hrest

/-- No field of the settings has to be there. -/
theorem reads_end (seen : List String) (config : Config) (first : Bool) (t : List Char) :
    Reads (membersWithin form (count + 1) first seen config) (b ++ '\x7d' :: t) config t :=
  (SkipsBlanks.membersWithin form count first seen config).reads hb (reads_members_end first rfl t)

/-- The members of a file are read up to its closing brace, in whatever order they are. -/
theorem reads_isMembers {given : List Setting} (h : IsMembers given s)
    (hdistinct : (given.map Setting.key).Nodup)
    (hseen : ∀ setting ∈ given, setting.key ∉ seen) (hcount : s.length < count) :
    Reads (membersWithin form count first seen config)
      (behindComma first (b ++ (s ++ '\x7d' :: t))) (given.foldl Setting.apply config) t := by
  -- The induction is on the members. Each takes one of the count and has at least two quotes.
  induction h generalizing first count seen config b with
  | @last given s b₁ h hb₁ =>
    have hlength := two_le_length_of_isMember h
    rw [List.length_append] at hcount
    obtain ⟨count, rfl⟩ := Nat.exists_eq_add_of_le' (show 2 ≤ count by omega)
    rw [List.append_assoc]
    exact reads_isMember hb h (fun setting hmem => hseen setting (Option.mem_toList.mpr hmem))
      (.spaces hb₁ (numberEnds_cons (by simp) t)) (reads_end hb₁ _ _ false t)
  | @more given others s b₁ b₂ rest h hb₁ hb₂ _ ih =>
    have hlength := two_le_length_of_isMember h
    simp only [List.length_append, List.length_cons] at hcount
    obtain ⟨count, rfl⟩ := Nat.exists_eq_add_of_le' (show 2 ≤ count by omega)
    rw [List.map_append, List.nodup_append'] at hdistinct
    obtain ⟨-, hothers, hdisjoint⟩ := hdistinct
    -- What this member gives is seen from here on, and no later member gives it again.
    have hnew : ∀ setting ∈ others, setting.key ∉ given.toList.map Setting.key ++ seen := by
      intro setting hmem hkey
      rcases List.mem_append.mp hkey with hkey | hkey
      · exact hdisjoint hkey (List.mem_map_of_mem hmem)
      · exact hseen setting (List.mem_append_right _ hmem) hkey
    have hrest : Reads (membersWithin form (count + 1) false (given.toList.map Setting.key ++ seen)
        (given.toList.foldl Setting.apply config)) (behindComma false (b₂ ++ (rest ++ '\x7d' :: t)))
        (others.foldl Setting.apply (given.toList.foldl Setting.apply config)) t :=
      ih hb₂ hothers hnew (by omega)
    have hinput : s ++ (b₁ ++ ',' :: (b₂ ++ rest)) ++ '\x7d' :: t
        = s ++ (b₁ ++ behindComma false (b₂ ++ (rest ++ '\x7d' :: t))) := by
      simp [behindComma]
    have hgiven : ∀ setting ∈ given, setting.key ∉ seen := fun setting hmem =>
      hseen setting (List.mem_append_left _ (Option.mem_toList.mpr hmem))
    rw [hinput, List.foldl_append]
    exact reads_isMember hb h hgiven (.spaces hb₁ (numberEnds_cons (by simp) _))
      ((SkipsBlanks.membersWithin form count false _ _).reads hb₁ hrest)

end

/-- What a settings file gives (`IsSettings`) is read by `parse`. -/
theorem parse_eq_ok_of_isSettings {given : List Setting} {text : String}
    (h : IsSettings given text.toList) (hdistinct : (given.map Setting.key).Nodup) :
    parse text = .ok (given.foldl Setting.apply {}) := by
  have hread : ∃ b, Spaces b ∧
      Reads (record form) text.toList (given.foldl Setting.apply {}) b := by
    generalize text.toList = input at h
    cases h with
    | @empty b b' b'' hb hb' hb'' =>
      exact ⟨b'', hb'', (SkipsBlanks.record form).reads hb
        (reads_record (reads_end hb' [] form.initial true b''))⟩
    | @members _ b b' s b'' hb hb' hs hb'' =>
      have hmembers : Reads (membersWithin form ((b' ++ (s ++ '\x7d' :: b'')).length + 1) true []
          form.initial) (behindComma true (b' ++ (s ++ '\x7d' :: b'')))
          (given.foldl Setting.apply {}) b'' :=
        reads_isMembers hb' hs hdistinct (fun _ _ => List.not_mem_nil)
          (by simp only [List.length_append]; omega)
      exact ⟨b'', hb'', (SkipsBlanks.record form).reads hb (reads_record hmembers)⟩
  obtain ⟨b, hb, hread⟩ := hread
  rw [parse, Json.parse_eq_ok hread hb]

/-! ## Writing -/

theorem isPlain_key (s : Setting) : s.key.toList.all Json.isPlain = true := by
  have hkeys : (Setting.keys.all fun key => key.toList.all Json.isPlain) = true := by decide
  have hmem : s.key ∈ Setting.keys := by cases s <;> simp [Setting.keys, Setting.key]
  exact List.all_eq_true.mp hkeys s.key hmem

/-- A setting is written as a member, with a blank behind its colon. -/
theorem isMember_toList (s : Setting) :
    IsMember (some s) (Json.quote s.key ++ ": " ++ toString s.number).toList := by
  have hcolon : ": ".toList = [':', ' '] := by simp
  have htext : (Json.quote s.key ++ ": " ++ toString s.number).toList
      = '"' :: (s.key.toList ++ '"' :: ([] ++ ':' :: ([' '] ++ (toString s.number).toList))) := by
    rw [String.toList_append, String.toList_append, Json.toList_quote (isPlain_key s), hcolon]
    simp
  rw [htext]
  exact .setting s (isSpelling_self (isPlain_key s)) rfl rfl

/-- The text of a written file: one member a line. -/
theorem toList_render (config : Config) :
    let line := fun s : Setting => (Json.quote s.key ++ ": " ++ toString s.number).toList
    let indent := ['\n', ' ', ' ']
    config.render.toList = [] ++ '\x7b' :: (indent ++
      ((line (.clockHz config.clockHz) ++ ([] ++ ',' :: (indent ++
        (line (.cyclesPerInstruction config.cyclesPerInstruction) ++ ([] ++ ',' :: (indent ++
          (line (.burstCycles config.burstCycles) ++ ([] ++ ',' :: (indent ++
            (line (.loadAddress config.loadAddress) ++ ['\n']))))))))))
        ++ '\x7d' :: [])) := by
  intro line indent
  simp [render, toJson, Json.pretty, Json.prettyAt, Json.prettyMembers, Json.stacked, joined,
    Json.newLine, line, indent, Setting.key, Setting.number]

/-- A file that `render` wrote gives all `settings`. -/
theorem isSettings_render (config : Config) :
    IsSettings config.settings config.render.toList := by
  rw [toList_render]
  refine .members rfl rfl ?_ rfl
  refine .more (isMember_toList _) rfl rfl ?_
  refine .more (isMember_toList _) rfl rfl ?_
  refine .more (isMember_toList _) rfl rfl ?_
  exact .last (isMember_toList _) rfl

theorem parse_render (config : Config) : parse config.render = .ok config :=
  parse_eq_ok_of_isSettings config.isSettings_render (by simp [settings, Setting.key])

/-- A configuration that `save` wrote is loaded. -/
theorem load_of_save {config : Config} {store after : FileStore} {path : String}
    (h : config.save store path = .ok after) : load after.readBytes path = .ok config := by
  have hwrite : store.writeText path config.render = .ok after := by
    unfold save at h
    split at h
    · next written hwritten =>
      cases h
      exact hwritten
    · cases h
  rw [load, Files.text_of_bytes (FileStore.readBytes_of_writeText hwrite)]
  exact config.parse_render

end Config
end Kenbak1
