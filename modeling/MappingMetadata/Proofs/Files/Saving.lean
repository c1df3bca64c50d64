import MappingMetadata.Proofs.Files.Loading

/-!
# Saving to a file tree

What has been written to a path is read from it again (`FileTree.read?_of_write?`), and no other
file changes. Making folders changes no file at all, so this is all that saving metadata does to
the files of a tree (`FileTree.run_save`).
-/

namespace MappingMetadata

/-! ## Texts as bytes -/

/-- Going on from a position gathers the bytes from there. -/
theorem toList_loop (bytes : ByteArray) (i : Nat) (gathered : List UInt8) :
    ByteArray.toList.loop bytes i gathered = gathered.reverse ++ bytes.data.toList.drop i := by
  fun_induction ByteArray.toList.loop bytes i gathered with
  | case1 i gathered h ih =>
    have hi : i < bytes.data.toList.length := h
    rw [ih, List.drop_eq_getElem_cons hi, List.reverse_cons, List.append_assoc]
    simp [ByteArray.get!, h]
  | case2 i gathered h =>
    have hi : bytes.data.toList.length ≤ i := Nat.le_of_not_lt h
    rw [List.drop_eq_nil_of_le hi, List.append_nil]

/-- A text is read back from its bytes. -/
theorem fromUTF8?_toUTF8 (s : String) :
    String.fromUTF8? ⟨s.toUTF8.toList.toArray⟩ = some s := by
  have hbytes : (⟨s.toUTF8.toList.toArray⟩ : ByteArray) = s.toByteArray := by
    have hlist : s.toUTF8.toList = s.toByteArray.data.toList := toList_loop s.toByteArray 0 []
    rw [hlist]
  rw [hbytes, String.fromUTF8?, dif_pos s.isValidUTF8]
  rfl

namespace FileTree

variable {t t' : FileTree}

/-! ## Writing a file -/

/-- The way to a place is through folders only. -/
theorem follow_with_files (t : FileTree) (files : List (List String × List UInt8))
    (place segments : List String) :
    ({ t with files := files } : FileTree).follow place segments = t.follow place segments := by
  induction segments generalizing place with
  | nil => rfl
  | cons s rest ih =>
    have hfolder : ({ t with files := files } : FileTree).isFolder place = t.isFolder place := rfl
    simp only [follow, ih, hfolder]

theorem locate_with_files (t : FileTree) (files : List (List String × List UInt8))
    (path : String) : ({ t with files := files } : FileTree).locate path = t.locate path := by
  unfold locate
  split
  · rfl
  · rfl
  · exact follow_with_files t files _ _

theorem write?_eq_some {path text : String} (h : t.write? path text = some t') :
    ∃ place, t.locate path = some place ∧
      t' = { t with files := Assoc.put t.files place text.toUTF8.toList } := by
  obtain ⟨place, hplace, hput⟩ := Option.bind_eq_some_iff.1 h
  refine ⟨place, hplace, ?_⟩
  unfold putFile at hput
  split at hput
  · cases hput
  · exact (Option.some.inj hput).symm

theorem read?_of_write? {path text : String} (h : t.write? path text = some t') :
    t'.read? path = some text := by
  obtain ⟨place, hplace, rfl⟩ := write?_eq_some h
  have hfile : Assoc.get? (Assoc.put t.files place text.toUTF8.toList) place =
      some text.toUTF8.toList := by rw [Assoc.get?_put, if_pos rfl]
  simp only [read?, locate_with_files, hplace, file?, hfile, Option.bind_eq_bind,
    Option.bind_some, fromUTF8?_toUTF8]

/-- The file of the path holds the text, and every other file is as it was. -/
def Saved (t t' : FileTree) (path text : String) : Prop :=
  t'.read? path = some text ∧
    ∀ place, t'.locate path ≠ some place → t'.file? place = t.file? place

theorem saved_of_write? {path text : String} (h : t.write? path text = some t') :
    t.Saved t' path text := by
  refine ⟨read?_of_write? h, fun place hplace => ?_⟩
  obtain ⟨written, hwritten, rfl⟩ := write?_eq_some h
  rw [locate_with_files, hwritten] at hplace
  have hne : written ≠ place := fun e => hplace (congrArg some e)
  rw [file?, file?, Assoc.get?_put, if_neg hne]

theorem Saved.of_files {t₁ : FileTree} {path text : String} (h : t₁.Saved t' path text)
    (hfiles : t₁.files = t.files) : t.Saved t' path text := by
  refine ⟨h.1, fun place hplace => (h.2 place hplace).trans ?_⟩
  rw [file?, file?, hfiles]

/-! ## Making folders -/

theorem makeAlong_files (t : FileTree) (place segments : List String) :
    (t.makeAlong place segments).1.files = t.files := by
  fun_induction makeAlong t place segments <;> first | rfl | assumption

theorem makeFolders_files (t : FileTree) (path : String) :
    (t.makeFolders path).1.files = t.files := by
  unfold makeFolders
  split
  · rfl
  · rfl
  · exact makeAlong_files t [] _

/-! ## Saving -/

theorem run_makeFolders (t : FileTree) (path : String) :
    (disk.makeFolders path).run t = ((t.makeFolders path).2, (t.makeFolders path).1) := rfl

theorem run_write (t : FileTree) (path text : String) :
    (disk.write path text).run t =
      ((t.write? path text).isSome, (t.write? path text).getD t) := by
  simp only [disk, StateT.run_bind, StateT.run_get, pure_bind]
  cases t.write? path text <;> rfl

/-- Writing a file either works or is reported. -/
theorem run_write_or_throw (t : FileTree) (path text : String) :
    let x : ExceptT Error (StateM FileTree) Unit := do
      if !(← disk.write path text) then throw (.unwritable path)
    (∃ t', x.run.run t = (.ok (), t') ∧ t.Saved t' path text) ∨
      x.run.run t = (.error (.unwritable path), t) := by
  intro x
  have hrun : x.run.run t = _ := run_bind_ok (run_lift (run_write t path text))
  cases h : t.write? path text with
  | none =>
    rw [h] at hrun
    exact .inr hrun
  | some t' =>
    rw [h] at hrun
    exact .inl ⟨t', hrun, saved_of_write? h⟩

/-- Saving either puts the metadata into its file and changes no other, or says what cannot be
written. -/
theorem run_save (t : FileTree) (format : Format) (metadata : Metadata) (path : String) :
    ∃ t', (disk.save format metadata path).run.run t = (.ok (), t') ∧
        t.Saved t' path (format.render metadata.toData) ∨
      ∃ failed, (disk.save format metadata path).run.run t = (.error (.unwritable failed), t') := by
  unfold Disk.save
  cases (Path.parent? path).filter fun p => !p.isEmpty with
  | none =>
    rcases run_write_or_throw t path (format.render metadata.toData) with ⟨t', h⟩ | h
    · exact ⟨t', .inl h⟩
    · exact ⟨t, .inr ⟨path, h⟩⟩
  | some folder =>
    have hmake := run_lift (ε := Error) (run_makeFolders t folder)
    cases hmade : (t.makeFolders folder).2 with
    | false =>
      rw [hmade] at hmake
      exact ⟨_, .inr ⟨folder, run_bind_ok hmake⟩⟩
    | true =>
      rw [hmade] at hmake
      rcases run_write_or_throw (t.makeFolders folder).1 path (format.render metadata.toData) with
        ⟨t', hrun, hsaved⟩ | hrun
      · refine ⟨t', .inl ⟨(run_bind_ok hmake).trans hrun, ?_⟩⟩
        exact hsaved.of_files (makeFolders_files t folder)
      · exact ⟨_, .inr ⟨path, (run_bind_ok hmake).trans hrun⟩⟩

end FileTree

end MappingMetadata
