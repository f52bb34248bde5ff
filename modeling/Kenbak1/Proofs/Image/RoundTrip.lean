/-
  Kenbak1.Proofs.Image.RoundTrip

  Image text is read back. A written image is two comments, an empty line and rows: a row
  (`rowText`) begins with an address and holds the bytes of consecutive cells. `readLine_rowText`
  gives its cells again, and in `readLines_cellsText` the row that is being written and the address
  that is being read stay in step, whatever cells follow. So an image saved to a file of octal text
  is loaded unchanged (`load_of_bytes`).
-/
import Mathlib
import Kenbak1.Image.File
import Kenbak1.Proofs.Blank
import Kenbak1.Proofs.FileStore
import Kenbak1.Proofs.Numeral

namespace Kenbak1

theorem trim_octalDigits (b : UInt8) : trim (octalDigits b) = octalDigits b :=
  trim_eq_self (fun _ hc => isBlank_eq_false_of_mem_octalDigits (List.mem_of_mem_head? hc))
    (fun _ hc => isBlank_eq_false_of_mem_octalDigits (List.mem_of_mem_getLast? hc))

namespace Image

/-! ## Rows -/

/-- The text of a row: an address, and the bytes from there on. -/
def rowText (start : UInt8) (values : List UInt8) : List Char :=
  octalDigits start ++ ':' :: values.flatMap fun value => ' ' :: octalDigits value

theorem rowText_concat (start : UInt8) (values : List UInt8) (value : UInt8) :
    rowText start (values ++ [value]) = rowText start values ++ ' ' :: octalDigits value := by
  simp [rowText, List.flatMap_append]

theorem mem_rowText {start : UInt8} {values : List UInt8} {c : Char}
    (h : c ∈ rowText start values) : IsOctalDigit c ∨ c = ':' ∨ c = ' ' := by
  simp only [rowText, List.mem_append, List.mem_cons, List.mem_flatMap] at h
  rcases h with hstart | rfl | ⟨value, -, rfl | hvalue⟩
  · exact .inl (isOctalDigit_of_mem_octalDigits hstart)
  · exact .inr (.inl rfl)
  · exact .inr (.inr rfl)
  · exact .inl (isOctalDigit_of_mem_octalDigits hvalue)

theorem not_mem_rowText {start : UInt8} {values : List UInt8} {c : Char}
    (hdigit : ¬ IsOctalDigit c) (hcolon : c ≠ ':') (hblank : c ≠ ' ') :
    c ∉ rowText start values := by
  intro hmem
  rcases mem_rowText hmem with h | h | h
  · exact hdigit h
  · exact hcolon h
  · exact hblank h

/-- A row begins with a digit, and ends with a digit or with its colon. -/
theorem trim_rowText (start : UInt8) (values : List UInt8) :
    trim (rowText start values) = rowText start values := by
  have hdigit : ∀ d, isBlank (digitChar (d % 8)) = false := fun d =>
    isBlank_eq_false_of_isOctalDigit (isOctalDigit_digitChar (Nat.mod_lt d (by omega))).1
  apply trim_eq_self
  · simp [rowText, octalDigits_eq, hdigit]
  · rcases List.eq_nil_or_concat values with rfl | ⟨init, value, rfl⟩
    · simp [rowText, isBlank]
    · rw [List.concat_eq_append, rowText_concat]
      simp [octalDigits_eq, hdigit]

theorem codeOf_rowText (start : UInt8) (values : List UInt8) :
    codeOf (rowText start values) = rowText start values := by
  have hcomment : ';' ∉ rowText start values :=
    not_mem_rowText (by decide) (by decide) (by decide)
  have hwhole : (rowText start values).takeWhile (· ≠ ';') = rowText start values := by
    rw [List.takeWhile_eq_self_iff]
    intro c hc
    simpa using fun e : c = ';' => hcomment (e ▸ hc)
  rw [codeOf, hwhole, trim_rowText]

theorem words_rowText (values : List UInt8) :
    words (values.flatMap fun value => ' ' :: octalDigits value) = values.map octalDigits := by
  have hwords : ∀ word ∈ values.map octalDigits, word ≠ [] ∧ ∀ c ∈ word, isBlank c = false := by
    intro word hword
    obtain ⟨value, -, rfl⟩ := List.mem_map.mp hword
    exact ⟨by simp [octalDigits_eq], fun c => isBlank_eq_false_of_mem_octalDigits⟩
  rw [← List.flatMap_map octalDigits (' ' :: ·)]
  exact words_flatMap_cons (by decide) hwords

/-! ## Reading rows -/

/-- The bytes of a row that does not go behind the last address go to consecutive cells. -/
theorem readBytes_octalDigits (line : Nat) {start : Nat} {values : List UInt8}
    (hroom : start + values.length ≤ memorySize) :
    readBytes line start (values.map octalDigits)
      = .ok (cellsFrom start.toUInt8 values, start + values.length) := by
  induction values generalizing start with
  | nil => rfl
  | cons value rest ih =>
    rw [List.length_cons] at hroom
    have hnext : (start + 1).toUInt8 = start.toUInt8 + 1 := by
      simp [Nat.toUInt8_eq]
    rw [List.map_cons, readBytes, if_pos (by omega), readNumber, readOctal_octalDigits]
    simp only [bind, Except.bind, pure, Except.pure]
    rw [ih (by omega), hnext, List.length_cons, cellsFrom, Nat.add_right_comm, Nat.add_assoc]

theorem readLine_rowText (line a : Nat) {start : UInt8} {values : List UInt8}
    (hroom : start.toNat + values.length ≤ memorySize) :
    readLine line a (rowText start values)
      = .ok (cellsFrom start values, start.toNat + values.length) := by
  have hhead : (rowText start values).takeWhile (· ≠ ':') = octalDigits start := by
    have hdigits : ∀ c ∈ octalDigits start, decide (c ≠ ':') = true := by
      intro c hc
      have hdigit := isOctalDigit_of_mem_octalDigits hc
      exact decide_eq_true fun e => absurd (e ▸ hdigit) (by decide)
    rw [rowText, List.takeWhile_append_of_pos hdigits, List.takeWhile_cons_of_neg (by decide),
      List.append_nil]
  have htail : (rowText start values).drop (octalDigits start).length
      = ':' :: values.flatMap fun value => ' ' :: octalDigits value :=
    List.drop_left
  have hstart : readNumber line (trim (octalDigits start)) = .ok start := by
    rw [trim_octalDigits, readNumber, readOctal_octalDigits]
  simp only [readLine, codeOf_rowText, hhead, htail, hstart, bind, Except.bind, words_rowText,
    readBytes_octalDigits line hroom]
  rw [Nat.toUInt8_eq, UInt8.ofNat_toNat]

theorem cellsFrom_concat (start : UInt8) (values : List UInt8) (value : UInt8) :
    cellsFrom start (values ++ [value])
      = cellsFrom start values ++ [(start + UInt8.ofNat values.length, value)] := by
  induction values generalizing start with
  | nil => simp [cellsFrom]
  | cons first rest ih =>
    have hshift : start + 1 + UInt8.ofNat rest.length = start + UInt8.ofNat (rest.length + 1) := by
      rw [UInt8.ofNat_add, UInt8.add_assoc, UInt8.add_comm 1]
      rfl
    rw [List.cons_append, cellsFrom, cellsFrom, ih, List.length_cons, hshift, List.cons_append]

/-! ## Reading what was written -/

theorem toNat_of_following {address next : UInt8} (h : following address = some next) :
    next.toNat = address.toNat + 1 := by
  unfold following at h
  split at h
  · cases h
  · next hlast =>
    have hne : address.toNat ≠ 255 := fun e => hlast (UInt8.toNat_inj.mp e)
    have hlt := address.toNat_lt
    cases h
    rw [UInt8.toNat_add, UInt8.toNat_one]
    omega

theorem rowText_singleton (start value : UInt8) :
    rowText start [value] = octalDigits start ++ ':' :: ' ' :: octalDigits value := by
  simp [rowText]

/-- Behind a row that is being written come cells. If `cellsText` knows an address after the row, it
    is the address at which `readLines` goes on, so a cell there may be added to the row. -/
theorem readLines_cellsText (cells : List (UInt8 × UInt8)) (line a : Nat) (start : UInt8)
    (values : List UInt8) (hroom : start.toNat + values.length ≤ memorySize) {next : Option UInt8}
    (hnext : ∀ address, next = some address → address.toNat = start.toNat + values.length)
    (onLine : Nat) :
    readLines line a (linesOf (rowText start values ++ (cellsText next onLine cells ++ ['\n'])))
      = .ok (cellsFrom start values ++ cells) := by
  induction cells generalizing line a start values next onLine with
  | nil =>
    have hfeed : '\n' ∉ rowText start values := not_mem_rowText (by decide) (by decide) (by decide)
    rw [cellsText, List.nil_append, linesOf_append_newline hfeed, readLines,
      readLine_rowText _ _ hroom]
    rfl
  | cons cell rest ih =>
    obtain ⟨address, value⟩ := cell
    have hlt : address.toNat < memorySize := address.toNat_lt
    by_cases hbreak : next ≠ some address ∨ onLine = 8
    -- A new row: the reader takes its address from the text.
    · have hfeed : '\n' ∉ rowText start values :=
        not_mem_rowText (by decide) (by decide) (by decide)
      have htext : cellsText next onLine ((address, value) :: rest)
          = '\n' :: (rowText address [value] ++ cellsText (following address) 1 rest) := by
        rw [cellsText, if_pos hbreak, rowText_singleton]
        simp
      have hrest := ih (line + 1) (start.toNat + values.length) address [value] hlt
        (fun _ => toNat_of_following) 1
      rw [htext, List.cons_append, linesOf_append_newline hfeed, List.append_assoc, readLines,
        readLine_rowText _ _ hroom]
      simp only [bind, Except.bind, hrest]
      rfl
    -- One byte more in the row: the reader is where the cell belongs.
    · obtain ⟨hsome, -⟩ := not_or.mp hbreak
      have haddress := hnext address (not_not.mp hsome)
      have htext : rowText start values ++ (cellsText next onLine ((address, value) :: rest) ++ ['\n'])
          = rowText start (values ++ [value])
            ++ (cellsText (following address) (onLine + 1) rest ++ ['\n']) := by
        rw [cellsText, if_neg hbreak, rowText_concat]
        simp
      have hlength : (values ++ [value]).length = values.length + 1 := by simp
      have hbehind : address = start + UInt8.ofNat values.length := by
        rw [← UInt8.toNat_inj, UInt8.toNat_add, UInt8.toNat_ofNat', haddress]
        unfold memorySize at hlt
        omega
      have hrest := ih line a start (values ++ [value]) (by omega)
        (fun after hafter => by rw [toNat_of_following hafter, hlength, haddress]; rfl) (onLine + 1)
      rw [htext, hrest, cellsFrom_concat, ← hbehind, List.append_assoc, List.singleton_append]

/-- A line that says nothing. -/
theorem readLines_quiet {line a : Nat} {text : List Char}
    (hquiet : readLine line a text = .ok ([], a)) (hfeed : '\n' ∉ text) (rest : List Char) :
    readLines line a (linesOf (text ++ '\n' :: rest)) = readLines (line + 1) a (linesOf rest) := by
  rw [linesOf_append_newline hfeed, readLines, hquiet]
  simp only [bind, Except.bind, pure, Except.pure, List.nil_append]
  cases readLines (line + 1) a (linesOf rest) <;> rfl

theorem readLine_comment (line a : Nat) (text : List Char) :
    readLine line a (';' :: text) = .ok ([], a) := rfl

theorem readLine_nil (line a : Nat) : readLine line a [] = .ok ([], a) := rfl

/-- What stands behind the comments of an image is read as its cells. -/
theorem readLines_body (line a : Nat) (cells : List (UInt8 × UInt8)) :
    readLines line a (linesOf (cellsText none 0 cells ++ ['\n'])) = .ok cells := by
  cases cells with
  | nil => rfl
  | cons cell rest =>
    obtain ⟨address, value⟩ := cell
    have htext : cellsText none 0 ((address, value) :: rest) ++ ['\n']
        = [] ++ '\n' :: (rowText address [value]
          ++ (cellsText (following address) 1 rest ++ ['\n'])) := by
      rw [cellsText, if_pos (.inl nofun), rowText_singleton]
      simp
    rw [htext, readLines_quiet (readLine_nil line a) nofun]
    exact readLines_cellsText rest (line + 1) a address [value] address.toNat_lt
      (fun _ => toNat_of_following) 1

theorem toList_render (image : Image) :
    image.render.toList =
      (';' :: " Kenbak-1 program image".toList) ++ '\n' ::
        ((';' :: ' ' :: ((toString image.size).toList ++ " bytes".toList)) ++ '\n' ::
          (cellsText none 0 image.cells ++ ['\n'])) := by
  have hfirst : "; Kenbak-1 program image\n; ".toList
      = ';' :: " Kenbak-1 program image".toList ++ ['\n', ';', ' '] := by simp
  have hsecond : " bytes\n".toList = " bytes".toList ++ ['\n'] := by simp
  have hlast : "\n".toList = ['\n'] := by simp
  unfold render
  simp only [String.toList_append, String.toList_ofList, hfirst, hsecond, hlast]
  -- The words of the comments are left closed; the rest is a matter of brackets.
  generalize " Kenbak-1 program image".toList = name
  generalize " bytes".toList = unit
  simp

/-- The text that `render` writes of any image is read as the image, from wherever bytes without an
    address would go. -/
theorem parse_render (image : Image) (origin : UInt8) : parse image.render origin = .ok image := by
  have hname : '\n' ∉ ';' :: " Kenbak-1 program image".toList := by decide
  have hcount : '\n' ∉ ';' :: ' ' :: ((toString image.size).toList ++ " bytes".toList) := by
    have hbytes : '\n' ∉ " bytes".toList := by decide
    simp only [List.mem_cons, List.mem_append, newline_not_mem_toString, hbytes, or_self, or_false]
    decide
  rw [parse, toList_render, readLines_quiet (readLine_comment _ _ _) hname,
    readLines_quiet (readLine_comment _ _ _) hcount, readLines_body]
  rfl

/-! ## Files -/

theorem isTextPath_of_extension {path extension : String}
    (h : Path.extension? path = some extension)
    (hcase : extension.toList.map Char.toLower = textExtension) : isTextPath path = true := by
  simp [isTextPath, h, hcase]

/-- A file of octal text that holds the bytes of a written image. -/
theorem load_of_bytes {files : Files} {path : String} {image : Image} (hpath : isTextPath path = true)
    (h : files path = .ok image.render.toUTF8.toList) (origin : UInt8) :
    load files path origin = .ok image := by
  simp only [load, if_pos hpath, Files.text_of_bytes h, ofFile, bind, Except.bind]
  exact parse_render image origin

/-- A written image is read back cell for cell: its text (`render`), wherever bytes without an
    address would go, and its file, if the extension is that of octal text (`textExtension`) in
    whatever case. It does not matter whether the file is in the tree that `save` put it into or
    wherever else its bytes are found. -/
theorem load_save (image : Image) (origin : UInt8) :
    parse image.render origin = .ok image ∧
    ∀ path extension, Path.extension? path = some extension →
      extension.toList.map Char.toLower = textExtension →
      (∀ store after, image.save store path = .ok after →
        load after.readBytes path origin = .ok image) ∧
      (∀ files : Files, files path = .ok image.render.toUTF8.toList →
        load files path origin = .ok image) := by
  refine ⟨parse_render image origin, fun path extension hextension hcase => ?_⟩
  have hpath := isTextPath_of_extension hextension hcase
  refine ⟨fun store after hsave => ?_, fun files hfiles => load_of_bytes hpath hfiles origin⟩
  have hwrite : store.writeText path image.render = .ok after := by
    unfold save ofFile at hsave
    split at hsave
    · next written hwritten =>
      cases hsave
      exact hwritten
    · cases hsave
  exact load_of_bytes hpath (FileStore.readBytes_of_writeText hwrite) origin

/-- An image that writes 377 twice and then the registers, in a file whose extension is in
    capital and small letters. -/
theorem load_save_registers :
    let image : Image := { cells := [(0o377, 1), (0o377, 2), (0o000, 3), (0o001, 4)] }
    Path.extension? "p.KbK" = some "KbK" ∧
    ∃ after, image.save {} "p.KbK" = .ok after ∧
      load after.readBytes "p.KbK" 0o004 = .ok image ∧
      load (fun _ => .ok image.render.toUTF8.toList) "p.KbK" 0o004 = .ok image := by
  intro image
  have hsplit : "p.KbK".splitOn "/" = ["p.KbK"] := by cbv
  have hsteps : Path.steps "p.KbK" = ["p.KbK"] := by simp [Path.steps, hsplit]
  have hextension : Path.extension? "p.KbK" = some "KbK" := by
    simp [Path.extension?, Path.fileName?, Path.components, hsteps]
  have hlocate : ({} : FileStore).locate "p.KbK" = .ok ["p.KbK"] := by
    rw [FileStore.locate, hsteps]
    rfl
  have hsave : image.save {} "p.KbK"
      = .ok (FileStore.put {} ["p.KbK"] (.file image.render.toUTF8.toList)) := by
    have hnode : ({} : FileStore).node? ["p.KbK"] = none := by decide
    have hslash : Path.endsWithSlash "p.KbK" = false := by simp [Path.endsWithSlash]
    simp [save, FileStore.writeText, hslash, hlocate, hnode, ofFile, bind, Except.bind]
  have hcase : "KbK".toList.map Char.toLower = textExtension := by decide
  obtain ⟨-, hfiles⟩ := load_save image 0o004
  obtain ⟨hsaved, hfound⟩ := hfiles "p.KbK" "KbK" hextension hcase
  refine ⟨hextension, _, hsave, ?_, ?_⟩
  · exact hsaved _ _ hsave
  · exact hfound _ rfl

end Image
end Kenbak1
