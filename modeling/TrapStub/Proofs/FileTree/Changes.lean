import TrapStub.Proofs.FileTree.Places
import TrapStub.Proofs.Outcome

/-!
# Making directories and writing files

Where nothing but directories stands in the way, directories are made, and a file below them is written. On
any other path these steps may fail, as the system says, but not because the path is none.

* `FileTree.Made`: what making directories changes.
* `makeDirectories_ends`, `writeFile_ends`: **both succeed on a clear way.**
* `FileTree.locate_ne_null`, `makeDirectories_fails`, `writeFile_fails`: only a path with a null character is
  refused as one.
-/

namespace TrapStub

open FileTree

variable {tree t u : FileTree} {names front other : List Text} {name : Text} {p : Path}

namespace FileTree

/-- The directories under the names are there, and else nothing has changed. -/
structure Made (tree : FileTree) (names : List Text) (t : FileTree) : Prop where
  through : t.Through names
  others : ∀ other, ¬ other <+: names → t.entry? other = tree.entry? other
  scratch : t.scratch = tree.scratch
  here : t.here = tree.here

theorem put_scratch (entry : FileEntry) : (tree.put names entry).scratch = tree.scratch := by
  unfold put
  split <;> rfl

theorem put_here (entry : FileEntry) : (tree.put names entry).here = tree.here := by
  unfold put
  split <;> rfl

theorem Made.refl (h : tree.Through names) : tree.Made names tree := ⟨h, fun _ _ => rfl, rfl, rfl⟩

theorem Made.put (h : tree.Through front) :
    tree.Made (front ++ [name]) (tree.put (front ++ [name]) .directory) := by
  have hne : front ++ [name] ≠ [] := List.append_ne_nil_of_right_ne_nil _ (List.cons_ne_nil _ _)
  have hshorter : ∀ part, part <+: front → part ≠ front ++ [name] := by
    rintro part hpart rfl
    have hlength := hpart.length_le
    rw [List.length_append, List.length_singleton] at hlength
    omega
  refine ⟨Through.concat (fun part hpart => ?_) (put_entry_self hne _), fun other hother => ?_, put_scratch _,
    put_here _⟩
  · rw [put_entry_of_ne hne _ (hshorter part hpart)]
    exact h part hpart
  · refine put_entry_of_ne hne _ ?_
    rintro rfl
    exact hother List.prefix_rfl

theorem Made.trans (h : tree.Made front t) (h' : t.Made (front ++ [name]) u) : tree.Made (front ++ [name]) u :=
  ⟨h'.through, fun other hother =>
    (h'.others other hother).trans (h.others other fun hfront => hother (hfront.trans (List.prefix_append _ _))),
    h'.scratch.trans h.scratch, h'.here.trans h.here⟩

theorem not_concat_isPrefix : ¬ front ++ [name] <+: front := by
  intro h
  have hlength := h.length_le
  rw [List.length_append, List.length_singleton] at hlength
  omega

theorem Made.through_of (h : tree.Made names t) (hother : tree.Through other) : t.Through other := by
  intro part hpart
  by_cases hnames : part <+: names
  · exact h.through part hnames
  · rw [h.others part hnames]
    exact hother part hpart

/-- A way of directories stays one when something is put where no directory is. -/
theorem Through.put (h : tree.Through other) (hne : names ≠ []) (hfree : tree.entry? names ≠ some .directory)
    (entry : FileEntry) : (tree.put names entry).Through other := by
  intro part hpart
  rw [put_entry_of_ne hne]
  · exact h part hpart
  · rintro rfl
    exact hfree (h part hpart)

/-! ## Places for new directories and files -/

theorem directoryPlace_concat (hnames : AreNames (front ++ [name])) :
    tree.directoryPlace (Staged.absolute (front ++ [name])) =
      match tree.locate .entry (Staged.absolute (front ++ [name])) with
      | .ok (.occupied _ _) => .error .alreadyExists
      | .ok (.vacant names) => .ok names
      | .error problem => .error problem := by
  have hlast : (Staged.absolute (front ++ [name])).name = name := by
    unfold Staged.absolute Path.name
    rw [List.getLast?_concat, Option.getD_some]
  have hup := (isName_fields (hnames name (List.mem_append_right _ (List.mem_singleton_self _)))).2.2.1
  have hempty : (Staged.absolute (front ++ [name])).names.isEmpty = false := by simp [Staged.absolute]
  unfold directoryPlace
  rw [hlast, hempty, Bool.or_false, decide_eq_false hup]
  exact if_neg Bool.false_ne_true

end FileTree

/-! ## Steps on a clear way -/

theorem makeDirectory_run (p : Path) (tree : FileTree) : makeDirectory p tree = match tree.directoryPlace p with
    | .ok names => (.ok (), tree.put names .directory)
    | .error problem => (.error problem, tree) := by
  unfold makeDirectory
  rw [bind_run]
  change (match tree.directoryPlace p with
    | .ok names => set (tree.put names .directory)
    | .error problem => throw problem : FileAction Unit) tree = _
  cases tree.directoryPlace p <;> rfl

theorem unlessDirectory_ends (hnames : AreNames names) (hfits : Fits names) (h : tree.Through names)
    (problem : FileProblem) :
    Ends (unlessDirectory (Staged.absolute names) problem) tree (fun _ t => t = tree) fun _ _ => False := by
  refine Ends.get_bind ?_
  rw [locate_through _ hnames hfits h]
  exact ends_pure rfl

/-- The last directory is made, or is there; what else could be done about a failure plays no part. -/
theorem tryMakeDirectory_ends (hnames : AreNames (front ++ [name])) (hfits : Fits (front ++ [name]))
    (hfront : tree.Through front)
    (hlast : tree.entry? (front ++ [name]) = some .directory ∨ tree.entry? (front ++ [name]) = none)
    {handler : FileProblem → FileAction Unit}
    (hh : handler .alreadyExists = unlessDirectory (Staged.absolute (front ++ [name])) .alreadyExists) :
    Ends (tryCatch (makeDirectory (Staged.absolute (front ++ [name]))) handler) tree
      (fun _ t => tree.Made (front ++ [name]) t) fun _ _ => False := by
  have hplace := locate_place .entry hnames hfits hfront (by
    rintro target htarget
    rcases hlast with h | h <;> rw [h] at htarget <;> cases htarget)
  have hrun := makeDirectory_run (Staged.absolute (front ++ [name])) tree
  rw [directoryPlace_concat hnames, hplace] at hrun
  rcases hlast with hlast | hlast
  · rw [hlast] at hrun
    refine (ends_of_error (F := fun fault t => fault = .alreadyExists ∧ t = tree) hrun ⟨rfl, rfl⟩).tryCatch
      fun fault t ⟨hfault, ht⟩ => ?_
    subst hfault ht
    rw [hh]
    have hthrough := hfront.concat hlast
    refine (unlessDirectory_ends hnames hfits hthrough _).imp (fun _ u hu => ?_) fun _ _ => id
    rw [hu]
    exact Made.refl hthrough
  · rw [hlast] at hrun
    exact (ends_of_ok (F := fun _ _ => False) hrun (Made.put hfront)).tryCatch fun _ _ => False.elim

/-- **Directories are made** where nothing else is in the way. -/
theorem makeDirectories_ends (hnames : AreNames names) (hfits : Fits names) (hclear : tree.Clear names) :
    Ends (makeDirectories (Staged.absolute names)) tree (fun _ t => tree.Made names t) fun _ _ => False := by
  induction names using List.reverseRecOn with
  | nil =>
    have hplace : tree.directoryPlace (Staged.absolute []) = .error .alreadyExists := by
      have hroot := locate_through .target hnames hfits (through_nil tree)
      have hparent : (Staged.absolute []).parent = Staged.absolute [] := rfl
      unfold directoryPlace
      rw [hparent, hroot]
      simp [Staged.absolute]
    have hrun := makeDirectory_run (Staged.absolute []) tree
    rw [hplace] at hrun
    rw [makeDirectories]
    refine (ends_of_error (F := fun fault t => fault = .alreadyExists ∧ t = tree) hrun ⟨rfl, rfl⟩).tryCatch
      fun fault t ⟨hfault, ht⟩ => ?_
    subst hfault ht
    rw [if_neg (by decide)]
    exact (unlessDirectory_ends hnames hfits (through_nil _) _).imp
      (fun _ t ht => ht ▸ Made.refl (through_nil _)) fun _ _ => id
  | append_singleton front name ih =>
    have hfront : AreNames front := fun n hn => hnames n (List.mem_append_left _ hn)
    have hfrontFits := hfits.of_isPrefix (List.prefix_append front [name])
    have hfrontClear := hclear.of_isPrefix (List.prefix_append front [name])
    rw [makeDirectories]
    by_cases hthrough : tree.Through front
    · exact tryMakeDirectory_ends hnames hfits hthrough (hclear _ List.prefix_rfl) (if_neg (by decide))
    · -- the directories above are missing: they are made first
      have hmissing := locate_missing .entry hnames hfits hfrontClear hthrough
      have hrun := makeDirectory_run (Staged.absolute (front ++ [name])) tree
      rw [directoryPlace_concat hnames, hmissing] at hrun
      refine (ends_of_error (F := fun fault t => fault = .missing ∧ t = tree) hrun ⟨rfl, rfl⟩).tryCatch
        fun fault t ⟨hfault, ht⟩ => ?_
      subst hfault ht
      have hparent : (Staged.absolute (front ++ [name])).parent = Staged.absolute front := by
        unfold Path.parent Staged.absolute
        rw [List.dropLast_concat]
      rw [if_pos rfl, dif_neg (by simp [Staged.absolute]), hparent]
      refine (ih hfront hfrontFits hfrontClear).bind fun _ u hu => ?_
      have hlast := hclear (front ++ [name]) List.prefix_rfl
      rw [← hu.others _ not_concat_isPrefix] at hlast
      exact (tryMakeDirectory_ends hnames hfits hu.through hlast (if_neg (by decide))).imp
        (fun _ _ => hu.trans) fun _ _ => id

/-- **A file is written** below directories, unless something else than a file has its name. -/
theorem writeFile_ends (hnames : AreNames (front ++ [name])) (hfits : Fits (front ++ [name]))
    (hfront : tree.Through front)
    (hfree : ∀ entry, tree.entry? (front ++ [name]) = some entry → ∃ bytes, entry = .file bytes)
    (bytes : List UInt8) :
    Ends (writeFile (Staged.absolute (front ++ [name])) bytes) tree
      (fun _ t => t = tree.put (front ++ [name]) (.file bytes)) fun _ _ => False := by
  have hplace := locate_place .newFile hnames hfits hfront (by
    rintro target htarget
    obtain ⟨bytes, hbytes⟩ := hfree _ htarget
    cases hbytes)
  have hfile : tree.filePlace (Staged.absolute (front ++ [name])) = .ok (front ++ [name]) := by
    unfold filePlace
    rw [hplace]
    cases hentry : tree.entry? (front ++ [name]) with
    | none => rfl
    | some entry =>
      obtain ⟨old, rfl⟩ := hfree entry hentry
      rfl
  refine Ends.get_bind ?_
  rw [hfile]
  exact ends_set rfl

/-! ## Other paths -/

namespace FileTree

theorem locateFrom_ne_null {purpose : Purpose} {links : Nat} {start pending : List Text} :
    tree.locateFrom purpose links start pending ≠ .error .nullCharacter := by
  fun_induction locateFrom tree purpose links start pending <;> simp_all

theorem locate_ne_null (tree : FileTree) (purpose : Purpose) (hp : p.hasNull = false) :
    tree.locate purpose p ≠ .error .nullCharacter := by
  unfold locate
  rw [hp, if_neg Bool.false_ne_true]
  split
  · nofun
  · exact locateFrom_ne_null

theorem hasNull_parent (hp : p.hasNull = false) : p.parent.hasNull = false := by
  unfold Path.hasNull Path.parent at *
  rw [List.any_eq_false] at hp ⊢
  exact fun name hname => hp name (List.dropLast_subset _ hname)

theorem length_parent_lt (hp : p.names ≠ []) : p.parent.names.length < p.names.length := by
  have hlength := List.length_pos_iff.2 hp
  rw [Path.parent, List.length_dropLast]
  omega

theorem directoryPlace_ne_null (tree : FileTree) (hp : p.hasNull = false) :
    tree.directoryPlace p ≠ .error .nullCharacter := by
  have hparent := locate_ne_null tree .target (hasNull_parent hp)
  have hentry := locate_ne_null tree .entry hp
  unfold directoryPlace
  split
  · split <;> simp_all
  · split <;> simp_all

theorem filePlace_ne_null (hp : p.hasNull = false) : tree.filePlace p ≠ .error .nullCharacter := by
  have hfile := locate_ne_null tree .newFile hp
  unfold filePlace
  split <;> simp_all

end FileTree

theorem makeDirectory_fails (hp : p.hasNull = false) (tree : FileTree) :
    Ends (makeDirectory p) tree (fun _ _ => True) fun problem _ => problem ≠ .nullCharacter := by
  have hplace := directoryPlace_ne_null tree hp
  have hrun := makeDirectory_run p tree
  rcases hresult : tree.directoryPlace p with problem | names <;> rw [hresult] at hrun
  · refine ends_of_error hrun ?_
    rintro rfl
    exact hplace hresult
  · exact ends_of_ok hrun trivial

theorem unlessDirectory_fails {problem : FileProblem} (hproblem : problem ≠ .nullCharacter) (p : Path)
    (tree : FileTree) :
    Ends (unlessDirectory p problem) tree (fun _ _ => True) fun problem _ => problem ≠ .nullCharacter := by
  refine Ends.get_bind ?_
  split
  · exact ends_pure trivial
  · exact ends_throw nofun
  · exact ends_throw hproblem

/-- **Making directories** never fails as a path that is none. -/
theorem makeDirectories_fails (p : Path) (hp : p.hasNull = false) (tree : FileTree) :
    Ends (makeDirectories p) tree (fun _ _ => True) fun problem _ => problem ≠ .nullCharacter := by
  rw [makeDirectories]
  refine (makeDirectory_fails hp tree).tryCatch fun problem t hproblem => ?_
  split
  · split
    · exact ends_throw hproblem
    · rename_i hnames
      have hshorter := length_parent_lt hnames
      refine (makeDirectories_fails p.parent (hasNull_parent hp) t).bind fun _ u _ => ?_
      refine (makeDirectory_fails hp u).tryCatch fun problem u hproblem => ?_
      split
      · exact ends_throw hproblem
      · exact unlessDirectory_fails hproblem p u
  · exact unlessDirectory_fails hproblem p t
termination_by p.names.length

theorem writeFile_fails (hp : p.hasNull = false) (bytes : List UInt8) (tree : FileTree) :
    Ends (writeFile p bytes) tree (fun _ _ => True) fun problem _ => problem ≠ .nullCharacter := by
  refine Ends.get_bind ?_
  cases hresult : tree.filePlace p with
  | ok names => exact ends_set trivial
  | error problem =>
    refine ends_throw ?_
    rintro rfl
    exact filePlace_ne_null hp hresult

end TrapStub
