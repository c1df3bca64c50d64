import MappingMetadata.Files.FileTree
import MappingMetadata.Files.Library

/-!
# Loading from a file tree

An attempt *finds* a value on a file tree when it ends with this value and leaves the tree as it
is; when there is nothing to find it fails, and leaves the tree as it is too (`FileTree.Finds`).

All loading is of this kind. What is found in a file is a function of the tree
(`FileTree.loaded`), and what is found in a folder are its documents in the order of their names
(`FileTree.documentPaths`).
-/

namespace MappingMetadata

variable {ε ε' α β : Type}

/-! ## Going through a list -/

section MapM

variable {f : α → Option β} {as : List α}

theorem mapM_eq_some_iff {bs : List β} : as.mapM f = some bs ↔ as.map f = bs.map some := by
  induction as generalizing bs with
  | nil => cases bs <;> simp
  | cons a as ih =>
    cases bs with
    | nil =>
      rw [List.mapM_cons]
      cases f a <;> cases as.mapM f <;> simp
    | cons b bs =>
      rw [List.mapM_cons, List.map_cons, List.map_cons, List.cons.injEq, ← ih]
      cases f a <;> cases as.mapM f <;> simp

theorem mapM_eq_none_iff : as.mapM f = none ↔ none ∈ as.map f := by
  induction as with
  | nil => simp
  | cons a as ih =>
    rw [List.mapM_cons, List.map_cons, List.mem_cons, ← ih]
    cases f a <;> cases as.mapM f <;> simp

end MapM

namespace FileTree

variable {t : FileTree}

/-- The attempt ends with the value, or fails when there is none; the tree stays as it is. -/
def Finds (x : ExceptT ε (StateM FileTree) α) (t : FileTree) (found : Option α) : Prop :=
  ∃ r : Except ε α, x.run.run t = (r, t) ∧ r.toOption = found

/-! ## Putting attempts together -/

section Bind

variable {x : ExceptT ε (StateM FileTree) α} {f : α → ExceptT ε (StateM FileTree) β} {t' : FileTree}

theorem run_bind_ok {a : α} (h : x.run.run t = (.ok a, t')) :
    (x >>= f).run.run t = (f a).run.run t' := by
  rw [ExceptT.run_bind, StateT.run_bind, h]
  rfl

theorem run_bind_error {e : ε} (h : x.run.run t = (.error e, t')) :
    (x >>= f).run.run t = (.error e, t') := by
  rw [ExceptT.run_bind, StateT.run_bind, h]
  rfl

end Bind

/-- An answer of the disk is no failure. -/
theorem run_lift {act : StateM FileTree α} {a : α} {t' : FileTree} (h : act.run t = (a, t')) :
    (ExceptT.lift act : ExceptT ε (StateM FileTree) α).run.run t = (.ok a, t') := by
  change (act >>= fun a => pure (Except.ok a)).run t = _
  rw [StateT.run_bind, h]
  rfl

theorem run_adapt {x : ExceptT ε (StateM FileTree) α} {r : Except ε α} {t' : FileTree}
    (h : x.run.run t = (r, t')) (f : ε → ε') : (x.adapt f).run.run t = (r.mapError f, t') := by
  change (Except.mapError f <$> x.run).run t = _
  rw [StateT.run_map, h]
  rfl

theorem Finds.run_some {x : ExceptT ε (StateM FileTree) α} {a : α} (h : Finds x t (some a)) :
    x.run.run t = (.ok a, t) := by
  obtain ⟨r, hr, hfound⟩ := h
  cases r with
  | error e => cases hfound
  | ok b =>
    cases hfound
    exact hr

theorem Finds.run_none {x : ExceptT ε (StateM FileTree) α} (h : Finds x t none) :
    ∃ e, x.run.run t = (.error e, t) := by
  obtain ⟨r, hr, hfound⟩ := h
  cases r with
  | error e => exact ⟨e, hr⟩
  | ok b => cases hfound

theorem finds_pure (a : α) : Finds (pure a : ExceptT ε (StateM FileTree) α) t (some a) :=
  ⟨.ok a, rfl, rfl⟩

theorem finds_throw (e : ε) : Finds (throw e : ExceptT ε (StateM FileTree) α) t none :=
  ⟨.error e, rfl, rfl⟩

theorem finds_lift {act : StateM FileTree α} {a : α} (h : act.run t = (a, t)) :
    Finds (ExceptT.lift act : ExceptT ε (StateM FileTree) α) t (some a) :=
  ⟨.ok a, run_lift h, rfl⟩

theorem Finds.bind {x : ExceptT ε (StateM FileTree) α} {f : α → ExceptT ε (StateM FileTree) β}
    {found : Option α} {g : α → Option β} (h : Finds x t found)
    (h' : ∀ a, found = some a → Finds (f a) t (g a)) : Finds (x >>= f) t (found.bind g) := by
  obtain ⟨r, hr, rfl⟩ := h
  cases r with
  | error e => exact ⟨.error e, run_bind_error hr, rfl⟩
  | ok a =>
    obtain ⟨r, hr', hfound⟩ := h' a rfl
    exact ⟨r, (run_bind_ok hr).trans hr', hfound⟩

theorem Finds.bind_some {x : ExceptT ε (StateM FileTree) α}
    {f : α → ExceptT ε (StateM FileTree) β} {a : α} {found : Option β} (h : Finds x t (some a))
    (h' : Finds (f a) t found) : Finds (x >>= f) t found :=
  h.bind (g := fun _ => found) fun _ ha => Option.some.inj ha ▸ h'

theorem Finds.bind_none {x : ExceptT ε (StateM FileTree) α} (h : Finds x t none)
    (f : α → ExceptT ε (StateM FileTree) β) : Finds (x >>= f) t none :=
  h.bind (g := fun _ => none) nofun

theorem Finds.bind_map {x : ExceptT ε (StateM FileTree) α}
    {f : α → ExceptT ε (StateM FileTree) β} {g : α → β} {found : Option α} (h : Finds x t found)
    (h' : ∀ a, Finds (f a) t (some (g a))) : Finds (x >>= f) t (found.map g) := by
  rw [Option.map_eq_bind]
  exact h.bind fun a _ => h' a

theorem Finds.adapt {x : ExceptT ε (StateM FileTree) α} {found : Option α} (h : Finds x t found)
    (f : ε → ε') : Finds (x.adapt f) t found := by
  obtain ⟨r, hr, rfl⟩ := h
  exact ⟨r.mapError f, run_adapt hr f, by cases r <;> rfl⟩

/-- A list is gone through to its end when something is found for every item. -/
theorem Finds.mapM {f : α → ExceptT ε (StateM FileTree) β} {g : α → Option β} {as : List α}
    (h : ∀ a ∈ as, Finds (f a) t (g a)) : Finds (as.mapM f) t (as.mapM g) := by
  induction as with
  | nil => exact finds_pure []
  | cons a as ih =>
    rw [List.forall_mem_cons] at h
    rw [List.mapM_cons, List.mapM_cons]
    exact h.1.bind fun b _ => (ih h.2).bind fun bs _ => finds_pure (b :: bs)

theorem Finds.mapM_some {f : α → ExceptT ε (StateM FileTree) β} {g : α → β} {as : List α}
    (h : ∀ a ∈ as, Finds (f a) t (some (g a))) : Finds (as.mapM f) t (some (as.map g)) := by
  have hmap : as.mapM (fun a => some (g a)) = some (as.map g) := List.mapM_pure
  rw [← hmap]
  exact Finds.mapM h

/-- A list is not gone through to its end when nothing is found for one of its items. -/
theorem Finds.mapM_none {f : α → ExceptT ε (StateM FileTree) β} {g : α → Option β} {as : List α}
    (h : ∀ a ∈ as, Finds (f a) t (g a)) {a : α} (ha : a ∈ as) (hnone : g a = none) :
    Finds (as.mapM f) t none := by
  have hmap : as.mapM g = none := mapM_eq_none_iff.2 (hnone ▸ List.mem_map_of_mem ha)
  exact hmap ▸ Finds.mapM h

/-! ## Files -/

/-- What loading a file comes to. -/
def loaded (t : FileTree) (r : Reader α) (path : String) : Outcome α :=
  match t.read? path with
  | some text => (Format.ofPath path).read r text
  | none => .error (.unreadable path)

theorem run_load (t : FileTree) (r : Reader α) (path : String) :
    (disk.load r path).run.run t = (t.loaded r path, t) := by
  have hread : (disk.read? path).run t = (t.read? path, t) := rfl
  have htext : (disk.readText path).run.run t =
      (match t.read? path with
        | some text => .ok text
        | none => .error (.unreadable path), t) := by
    refine (run_bind_ok (run_lift hread)).trans ?_
    cases t.read? path <;> rfl
  unfold loaded
  cases h : t.read? path with
  | none => exact run_bind_error (by rw [htext, h])
  | some text => exact run_bind_ok (by rw [htext, h])

theorem finds_load (t : FileTree) (r : Reader α) (path : String) :
    Finds (disk.load r path) t (t.loaded r path).toOption :=
  ⟨t.loaded r path, run_load t r path, rfl⟩

/-! ## Folders -/

/-- The paths of the documents in a folder, by their names. -/
def documentPaths (t : FileTree) (folder : String) : List String :=
  let names := ((t.files? folder).getD []).mergeSort fun a b => a ≤ b
  (names.map (Path.inFolder folder)).filter Path.isDocument

theorem exists_files_of_hasFolder {path : String} (h : t.hasFolder path) :
    ∃ names, t.files? path = some names := by
  obtain ⟨place, hplace, hfolder⟩ := (Option.any_eq_true _ _).1 h
  simp [files?, hplace, hfolder]

theorem finds_documentPaths {folder : String} (h : t.hasFolder folder) :
    Finds (disk.documentPaths folder) t (some (t.documentPaths folder)) := by
  obtain ⟨names, hnames⟩ := exists_files_of_hasFolder h
  have hfiles : (disk.files? folder).run t = (some names, t) := by
    rw [← hnames]
    rfl
  refine (finds_lift hfiles).bind_some ?_
  rw [documentPaths, hnames]
  exact finds_pure _

theorem finds_loadFolder {folder : String} (h : t.hasFolder folder) :
    Finds (disk.loadFolder folder) t (some ((t.documentPaths folder).map fun path =>
      (path, t.loaded Declaration.Document.codec.read path))) := by
  refine (finds_documentPaths h).bind_some ?_
  exact Finds.mapM_some fun path _ =>
    (finds_lift (run_load t _ path)).bind_some (finds_pure (path, _))

end FileTree

end MappingMetadata
