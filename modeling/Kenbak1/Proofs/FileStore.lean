/-
  Kenbak1.Proofs.FileStore

  Reading what was written. `writeText` puts a node at the place its path leads to; no directory on
  the way is that place, so the path leads there afterwards too (`locate_put`), and the bytes of the
  text are read there (`readBytes_of_writeText`).
-/
import Kenbak1.FileStore
import Mathlib.Data.List.Basic

namespace Kenbak1

/-! ## Bytes of texts -/

theorem toList_loop_eq (bytes : ByteArray) (i : Nat) (read : List UInt8) :
    ByteArray.toList.loop bytes i read = read.reverse ++ bytes.data.toList.drop i := by
  fun_induction ByteArray.toList.loop bytes i read with
  | case1 i read hlt ih =>
    have hi : i < bytes.data.toList.length := by simpa using hlt
    have hget : bytes.get! i = bytes.data.toList[i] := by simp [ByteArray.get!, hlt]
    rw [ih, List.drop_eq_getElem_cons hi, List.reverse_cons, hget, List.append_assoc,
      List.singleton_append]
  | case2 i read hge =>
    rw [List.drop_eq_nil_of_le (by simpa using Nat.le_of_not_lt hge), List.append_nil]

/-- The bytes of a text are read as that text. -/
theorem Files.text_of_bytes {files : Files} {path text : String}
    (h : files path = .ok text.toUTF8.toList) : files.text path = .ok text := by
  have hbytes : ByteArray.mk text.toUTF8.toList.toArray = text.toUTF8 := by
    rw [ByteArray.toList, toList_loop_eq]
    simp
  simp only [Files.text, h, bind, Except.bind, hbytes]
  simp only [String.fromUTF8?, String.toUTF8_eq_toByteArray, dif_pos text.isValidUTF8]
  rfl

namespace FileStore

variable {store : FileStore} {place : Place} {node : Node}

/-! ## Nodes -/

theorem node?_put_same (store : FileStore) (place : Place) (node : Node) :
    (store.put place node).node? place = some node := by
  simp [node?, put]

/-- A directory stays one when a node is put elsewhere. -/
theorem node?_put_of_directory {other : Place} (hother : store.node? other = some .directory)
    (hne : other ≠ place) : (store.put place node).node? other = some .directory := by
  have hfind : (store.put place node).nodes.reverse.find? (fun entry => entry.1 = other)
      = store.nodes.reverse.find? (fun entry => entry.1 = other) := by
    simp [put, hne.symm]
  unfold node? at hother ⊢
  rw [hfind]
  split at hother
  · exact hother
  -- It may be there only because something stands further down the tree.
  · split at hother
    · next hdirectory =>
      rw [if_pos]
      simp only [put, List.any_append, Bool.or_eq_true]
      rcases hdirectory with habove | hbelow
      · exact .inl habove
      · exact .inr (.inl hbelow)
    · cases hother

/-! ## Places -/

theorem follow_eq_ok_iff {start next : Place} {name : String} :
    store.follow start name = .ok next ↔
      store.node? start = some .directory ∧ ¬ maxNameSize < name.utf8ByteSize ∧
        start.step name = next := by
  unfold follow
  cases store.node? start with
  | none => simp
  | some found =>
    cases found with
    | file bytes => simp
    | directory =>
      simp only [true_and]
      split
      · next hlong => simp [hlong]
      · next hshort => simp [hshort]

/-- The way to a place that is no directory does not lead through it. -/
theorem foldlM_follow_put (hplace : store.node? place ≠ some .directory) {start : Place}
    {names : List String} (h : names.foldlM store.follow start = .ok place) :
    names.foldlM (store.put place node).follow start = .ok place := by
  induction names generalizing start with
  | nil => exact h
  | cons name rest ih =>
    rw [List.foldlM_cons] at h ⊢
    cases hnext : store.follow start name with
    | error fault =>
      rw [hnext] at h
      cases h
    | ok next =>
      rw [hnext] at h
      obtain ⟨hstart, hname, hstep⟩ := follow_eq_ok_iff.mp hnext
      have hne : start ≠ place := fun e => hplace (e ▸ hstart)
      have hfollow : (store.put place node).follow start name = .ok next :=
        follow_eq_ok_iff.mpr ⟨node?_put_of_directory hstart hne, hname, hstep⟩
      rw [hfollow]
      exact ih h

theorem locate_put {path : String} (hplace : store.node? place ≠ some .directory)
    (h : store.locate path = .ok place) : (store.put place node).locate path = .ok place := by
  unfold locate at h ⊢
  cases hstart : start path with
  | error fault =>
    rw [hstart] at h
    cases h
  | ok first =>
    rw [hstart] at h
    exact foldlM_follow_put hplace h

/-! ## Texts -/

/-- A file that `writeText` wrote holds the bytes of its text. -/
theorem readBytes_of_writeText {path text : String} {after : FileStore}
    (h : store.writeText path text = .ok after) :
    after.readBytes path = .ok text.toUTF8.toList := by
  unfold writeText at h
  split at h
  · cases hparent : store.parent path <;> simp [hparent, bind, Except.bind] at h
  · next hslash =>
    cases hlocate : store.locate path with
    | error fault => simp [hlocate, bind, Except.bind] at h
    | ok place =>
      simp only [hlocate, bind, Except.bind] at h
      split at h
      · cases h
      · next hplace =>
        cases h
        have hafter : (store.put place (.file text.toUTF8.toList)).locate path = .ok place :=
          locate_put hplace hlocate
        simp only [readBytes, hafter, bind, Except.bind, node?_put_same, if_neg hslash]

end FileStore
end Kenbak1
