import TrapStub.Proofs.FileTree.Changes
import TrapStub.Proofs.FileTree.Leads

/-!
# What saving a file changes

A file is saved by making the directories above it and writing it. Each directory is made in a free place that a
front part of the path leads to, and goes on to lead to. On an ordinary path only the first step that is possible
can fail: behind a directory that has just been made every name is free.

* `makeDirectories_keeps`, `writeFile_keeps`: what every change on the way keeps.
* `FileTree.Grown`, `FileTree.Saved`: new directories above a path, and a file at it.
* `saving_ends`: **a file is saved, or at most directories above it are new.**
* `saving_whole`: **on an ordinary path nothing is new if it fails.**
-/

namespace TrapStub

open FileTree

variable {tree t u : FileTree} {output p : Path} {names other front : List Text} {name : Text} {entry : FileEntry}
  {bytes : List UInt8}

namespace FileTree

/-- Nothing is different. -/
structure Same (tree t : FileTree) : Prop where
  entries : ∀ names, t.entry? names = tree.entry? names
  here : t.here = tree.here
  scratch : t.scratch = tree.scratch

/-- Where nothing was is a directory, and a path that is above `output` leads to it. -/
structure IsNewAbove (output : Path) (tree t : FileTree) (names : List Text) : Prop where
  before : tree.entry? names = none
  after : t.entry? names = some .directory
  leads : ∃ front, front <+: output.parent.names ∧
    t.locate .target { output with names := front } = .ok (.occupied names .directory)

/-- Nothing is different but for new directories above `output`. -/
structure Grown (output : Path) (tree t : FileTree) : Prop where
  entries : ∀ names, t.entry? names = tree.entry? names ∨ IsNewAbove output tree t names
  here : t.here = tree.here
  scratch : t.scratch = tree.scratch

/-- The path leads to a file with these bytes. Nothing else is different but for new directories above it. -/
structure Saved (output : Path) (bytes : List UInt8) (tree t : FileTree) : Prop where
  file : ∃ names, t.locate .target output = .ok (.occupied names (.file bytes)) ∧
    (tree.entry? names = none ∨ ∃ old, tree.entry? names = some (.file old)) ∧
    ∀ other, other ≠ names → t.entry? other = tree.entry? other ∨ IsNewAbove output tree t other
  here : t.here = tree.here
  scratch : t.scratch = tree.scratch

theorem Same.refl (tree : FileTree) : tree.Same tree := ⟨fun _ => rfl, rfl, rfl⟩

theorem Same.trans (h : tree.Same t) (h' : t.Same u) : tree.Same u :=
  ⟨fun names => (h'.entries names).trans (h.entries names), h'.here.trans h.here, h'.scratch.trans h.scratch⟩

theorem Same.grown (h : tree.Same t) : Grown output tree t := ⟨fun names => .inl (h.entries names), h.here, h.scratch⟩

/-- A tree with the same entries may stand in for the one before. -/
theorem IsNewAbove.of_same (h : IsNewAbove output t u names) (hsame : tree.Same t) : IsNewAbove output tree u names :=
  ⟨(hsame.entries names).symm.trans h.before, h.after, h.leads⟩

theorem Grown.of_same (h : Grown output t u) (hsame : tree.Same t) : Grown output tree u :=
  ⟨fun names => (h.entries names).imp (·.trans (hsame.entries names)) (·.of_same hsame),
    h.here.trans hsame.here, h.scratch.trans hsame.scratch⟩

theorem Saved.of_same (h : Saved output bytes t u) (hsame : tree.Same t) : Saved output bytes tree u := by
  obtain ⟨names, hfile, hplace, hothers⟩ := h.file
  refine ⟨⟨names, hfile, ?_, fun other hother => ?_⟩, h.here.trans hsame.here, h.scratch.trans hsame.scratch⟩
  · rwa [← hsame.entries]
  · exact (hothers other hother).imp (·.trans (hsame.entries other)) (·.of_same hsame)

/-! ## Places -/

theorem directoryPlace_eq_ok (h : tree.directoryPlace p = .ok names) : tree.locate .entry p = .ok (.vacant names) := by
  unfold directoryPlace at h
  split at h
  · split at h <;> cases h
  · split at h
    · cases h
    · rename_i hlocate
      cases h
      exact hlocate
    · cases h

theorem filePlace_eq_ok (h : tree.filePlace p = .ok names) : ∃ place, tree.locate .newFile p = .ok place ∧
    place.names = names ∧ (place = .vacant names ∨ ∃ old, place = .occupied names (.file old)) := by
  unfold filePlace at h
  split at h
  · rename_i hlocate
    cases h
    exact ⟨_, hlocate, rfl, .inr ⟨_, rfl⟩⟩
  · cases h
  · cases h
  · rename_i hlocate
    cases h
    exact ⟨_, hlocate, rfl, .inl rfl⟩
  · cases h

/-- A free place is below a directory. -/
theorem entry?_of_vacant {purpose : Purpose} (h : tree.locate purpose p = .ok (.vacant names)) :
    tree.entry? names = none ∧ ∃ front name, names = front ++ [name] ∧ tree.entry? front = some .directory :=
  (locate_eq_ok.1 h).2.entry?_vacant

theorem entry?_of_occupied {purpose : Purpose} (h : tree.locate purpose p = .ok (.occupied names entry)) :
    tree.entry? names = some entry :=
  (locate_eq_ok.1 h).2.entry?_occupied

theorem ne_nil_of_ne_directory (h : tree.entry? names ≠ some .directory) : names ≠ [] := by
  rintro rfl
  exact h rfl

/-- What a file is written over is not a directory or a link. -/
theorem entry?_of_filePlace (h : tree.filePlace p = .ok names) :
    tree.entry? names = none ∨ ∃ old, tree.entry? names = some (.file old) := by
  obtain ⟨place, hlocate, -, rfl | ⟨old, rfl⟩⟩ := filePlace_eq_ok h
  · exact .inl (entry?_of_vacant hlocate).1
  · exact .inr ⟨old, entry?_of_occupied hlocate⟩

/-- A change where there is no directory or link keeps those there are. -/
theorem keeps_put (h : tree.entry? names = none ∨ ∃ old, tree.entry? names = some (.file old)) (entry : FileEntry) :
    tree.Keeps (tree.put names entry) := by
  have hne : names ≠ [] := ne_nil_of_ne_directory fun hdirectory => by
    rcases h with h | ⟨old, h⟩ <;> rw [h] at hdirectory <;> cases hdirectory
  refine ⟨fun {other} hother => ?_, fun {other target} hother => ?_, put_here _⟩
  · rw [put_entry_of_ne hne, hother]
    rintro rfl
    rcases h with h | ⟨old, h⟩ <;> rw [h] at hother <;> cases hother
  · rw [put_entry_of_ne hne, hother]
    rintro rfl
    rcases h with h | ⟨old, h⟩ <;> rw [h] at hother <;> cases hother

/-- A new directory above the path stays one. -/
theorem IsNewAbove.keeps (h : IsNewAbove output tree t other) (hkeeps : t.Keeps u) :
    IsNewAbove output tree u other := by
  obtain ⟨front, hfront, hleads⟩ := h.leads
  have hafter := hkeeps.directory h.after
  exact ⟨h.before, hafter, front, hfront, locate_persists hleads hkeeps hafter nofun nofun⟩

/-- **One more directory** where a path above leads to a free place. -/
theorem Grown.put (h : Grown output tree t) (hfront : front <+: output.parent.names)
    (hplace : t.directoryPlace { output with names := front } = .ok names) :
    Grown output tree (t.put names .directory) := by
  have hvacant := directoryPlace_eq_ok hplace
  have hnone := (entry?_of_vacant hvacant).1
  have hne : names ≠ [] := ne_nil_of_ne_directory (by rw [hnone]; nofun)
  have hkeeps : t.Keeps (t.put names .directory) := keeps_put (.inl hnone) _
  have hself : FileTree.entry? (t.put names .directory) names = some .directory := put_entry_self hne _
  refine ⟨fun other => ?_, (put_here _).trans h.here, (put_scratch _).trans h.scratch⟩
  by_cases hother : other = names
  · subst hother
    refine .inr ⟨?_, hself, front, hfront, locate_persists hvacant hkeeps hself nofun nofun⟩
    rcases h.entries other with heq | hnew
    · rw [← heq, hnone]
    · exact hnew.before
  · rw [put_entry_of_ne hne _ hother]
    exact (h.entries other).imp_right (·.keeps hkeeps)

end FileTree

/-! ## What every change keeps -/

theorem makeDirectory_keeps {I : FileTree → Prop}
    (hput : ∀ names, tree.directoryPlace p = .ok names → I (tree.put names .directory)) :
    Ends (makeDirectory p) tree (fun _ t => I t) fun problem t =>
      t = tree ∧ tree.directoryPlace p = .error problem := by
  have hrun := makeDirectory_run p tree
  rcases hplace : tree.directoryPlace p with problem | names <;> rw [hplace] at hrun
  · exact ends_of_error hrun ⟨rfl, rfl⟩
  · exact ends_of_ok hrun (hput names hplace)

theorem unlessDirectory_run (p : Path) (problem : FileProblem) (tree : FileTree) :
    Ends (unlessDirectory p problem) tree
      (fun _ t => t = tree ∧ ∃ names, tree.locate .target p = .ok (.occupied names .directory))
      fun _ t => t = tree := by
  refine Ends.get_bind ?_
  split
  · rename_i names hlocate
    exact ends_pure ⟨rfl, names, hlocate⟩
  · exact ends_throw rfl
  · exact ends_throw rfl

/-- **Making directories keeps** what each new directory keeps: one is made where a front part of the path leads. -/
theorem makeDirectories_keeps {I : FileTree → Prop} (p : Path) (tree : FileTree) (hI : I tree)
    (hput : ∀ front, front <+: p.names → ∀ t names, I t → t.directoryPlace { p with names := front } = .ok names →
      I (t.put names .directory)) :
    Ends (makeDirectories p) tree (fun _ t => I t) fun _ t => I t := by
  have hself : ∀ t, I t → ∀ names, t.directoryPlace p = .ok names → I (t.put names .directory) :=
    fun t ht names hplace => hput p.names List.prefix_rfl t names ht hplace
  have hunless : ∀ problem t, I t → Ends (unlessDirectory p problem) t (fun _ u => I u) fun _ u => I u :=
    fun problem t ht => (unlessDirectory_run p problem t).imp (fun _ _ hu => hu.1 ▸ ht) fun _ _ hu => hu ▸ ht
  rw [makeDirectories]
  refine (makeDirectory_keeps (hself tree hI)).tryCatch fun problem t hfailed => ?_
  obtain ⟨rfl, -⟩ := hfailed
  split
  · split
    · exact ends_throw hI
    · rename_i hnames
      have hshorter := length_parent_lt hnames
      have hparent := makeDirectories_keeps p.parent _ hI fun front hfront =>
        hput front (hfront.trans (List.dropLast_prefix p.names))
      refine hparent.bind fun _ u hu => ?_
      refine (makeDirectory_keeps (hself u hu)).tryCatch fun problem v hfailed => ?_
      obtain ⟨rfl, -⟩ := hfailed
      split
      · exact ends_throw hu
      · exact hunless problem _ hu
  · exact hunless problem _ hI
termination_by p.names.length

/-- **Writing a file** changes its place only, and nothing if it fails. -/
theorem writeFile_keeps (p : Path) (bytes : List UInt8) (tree : FileTree) :
    Ends (writeFile p bytes) tree
      (fun _ t => ∃ names, tree.filePlace p = .ok names ∧ t = tree.put names (.file bytes)) fun _ t => t = tree := by
  refine Ends.get_bind ?_
  cases hplace : tree.filePlace p with
  | ok names => exact ends_set ⟨names, rfl, rfl⟩
  | error problem => exact ends_throw rfl

/-! ## Saving -/

namespace FileTree

theorem Grown.saved (h : Grown output tree t) (hplace : t.filePlace output = .ok names) :
    Saved output bytes tree (t.put names (.file bytes)) := by
  have hentry := entry?_of_filePlace hplace
  have hkeeps : t.Keeps (t.put names (.file bytes)) := keeps_put hentry _
  have hne : names ≠ [] := ne_nil_of_ne_directory fun hdirectory => by
    rcases hentry with hentry | ⟨old, hentry⟩ <;> rw [hentry] at hdirectory <;> cases hdirectory
  have hself : FileTree.entry? (t.put names (.file bytes)) names = some (.file bytes) := put_entry_self hne _
  obtain ⟨place, hlocate, hnames, hcases⟩ := filePlace_eq_ok hplace
  have hnone : ∀ other target, place ≠ .occupied other (.link target) := by
    rcases hcases with rfl | ⟨old, rfl⟩ <;> nofun
  refine ⟨⟨names, ?_, ?_, fun other hother => ?_⟩, (put_here _).trans h.here, (put_scratch _).trans h.scratch⟩
  · subst hnames
    exact locate_persists hlocate hkeeps hself nofun hnone
  · rcases h.entries names with heq | hnew
    · rwa [← heq]
    · exact .inl hnew.before
  · rw [put_entry_of_ne hne _ hother]
    exact (h.entries other).imp_right (·.keeps hkeeps)

end FileTree

/-- **A file is saved**, or nothing but directories above it is new. -/
theorem saving_ends (output : Path) (bytes : List UInt8) (tree : FileTree) :
    Ends (do
      makeDirectories output.parent
      writeFile output bytes) tree (fun _ t => Saved output bytes tree t) fun _ t => Grown output tree t := by
  have hmade : Ends (makeDirectories output.parent) tree (fun _ t => Grown output tree t)
      fun _ t => Grown output tree t :=
    makeDirectories_keeps output.parent tree (Same.refl tree).grown
      fun front hfront t names ht hplace => ht.put hfront hplace
  refine hmade.bind fun _ t ht => (writeFile_keeps output bytes t).imp (fun _ u hu => ?_) fun _ u hu => hu ▸ ht
  obtain ⟨names, hplace, rfl⟩ := hu
  exact ht.saved hplace

/-! ## Ordinary paths -/

namespace FileTree

/-- The system follows the path, and every name of it is looked up where it stands. -/
structure IsOrdinary (p : Path) : Prop extends IsPassable p where
  plain : ∀ name ∈ p.names, IsPlainName name

theorem Grounded.put (h : tree.Grounded) (hnone : tree.entry? (front ++ [name]) = none)
    (hfront : tree.entry? front = some .directory) : (tree.put (front ++ [name]) .directory).Grounded := by
  have hne : front ++ [name] ≠ [] := by simp
  intro names other entry hentry
  rw [put_entry hne] at hentry
  split at hentry
  · rename_i heq
    obtain rfl := (List.append_inj' heq rfl).1
    rw [put_entry_of_ne hne _ (by simp)]
    exact hfront
  · have hdirectory := h names other entry hentry
    rw [put_entry_of_ne hne _ fun heq => ?_]
    · exact hdirectory
    · rw [heq, hnone] at hdirectory
      cases hdirectory

theorem locate_below_vacant (purpose : Purpose) (hp : IsPassable p) (hnames : p.names = front ++ [name])
    (hname : IsPlainName name) (h : tree.locate .target p.parent = .ok (.occupied names .directory))
    (hnone : tree.entry? (names ++ [name]) = none) : tree.locate purpose p = .ok (.vacant (names ++ [name])) :=
  locate_below hp hnames hname h fun _ => .vacant (entry?_of_occupied h) hname hnone

theorem locate_below_occupied (hp : IsPassable p) (hnames : p.names = front ++ [name])
    (hname : IsPlainName name) (h : tree.locate .target p.parent = .ok (.occupied names .directory))
    (hentry : tree.entry? (names ++ [name]) = some entry) :
    tree.locate .entry p = .ok (.occupied (names ++ [name]) entry) := by
  refine locate_below hp hnames hname h fun _ => ?_
  have hstart := entry?_of_occupied h
  cases entry with
  | directory => exact .enter hstart hname nofun hentry (.done hentry)
  | file bytes => exact .file hstart hname hentry
  | link target => exact .link rfl hstart hname hentry

theorem directoryPlace_below (hnames : p.names = front ++ [name]) (hname : IsPlainName name) :
    tree.directoryPlace p = match tree.locate .entry p with
      | .ok (.occupied _ _) => .error .alreadyExists
      | .ok (.vacant names) => .ok names
      | .error problem => .error problem := by
  have hlast : p.name = name := by rw [Path.name, hnames, List.getLast?_concat, Option.getD_some]
  have hempty : p.names.isEmpty = false := by simp [hnames]
  unfold directoryPlace
  rw [hlast, hempty, Bool.or_false, decide_eq_false hname.ne_up]
  exact if_neg Bool.false_ne_true

/-- The path leads to a directory. If anything is new, this directory is, and nothing is in it. -/
def Opened (p : Path) (tree t : FileTree) : Prop :=
  ∃ names, t.locate .target p = .ok (.occupied names .directory) ∧
    (t = tree ∨ p.names ≠ [] ∧ t.Grounded ∧ ∀ name, t.entry? (names ++ [name]) = none)

/-- A directory that has just been made is empty. -/
theorem Grounded.opened (h : t.Grounded) (hplace : t.directoryPlace p = .ok names) :
    Opened p tree (t.put names .directory) := by
  have hvacant := directoryPlace_eq_ok hplace
  obtain ⟨hnone, front, name, rfl, hfront⟩ := entry?_of_vacant hvacant
  have hself : FileTree.entry? (t.put (front ++ [name]) .directory) (front ++ [name]) = some .directory :=
    put_entry_self (by simp) _
  refine ⟨front ++ [name], locate_persists hvacant (keeps_put (.inl hnone) _) hself nofun nofun, .inr ⟨?_, ?_, ?_⟩⟩
  · rintro hempty
    unfold directoryPlace at hplace
    rw [hempty] at hplace
    split at hplace
    · split at hplace <;> cases hplace
    · rename_i hcheck
      exact hcheck (by simp)
  · exact h.put hnone hfront
  · intro other
    rw [put_entry_of_ne (by simp) _ (by simp)]
    exact h.below hnone other

end FileTree

/-- **On an ordinary path directories are made, or nothing is.** -/
theorem makeDirectories_opens (p : Path) (tree : FileTree) (hplain : ∀ name ∈ p.names, IsPlainName name)
    (h : tree.Grounded) :
    Ends (makeDirectories p) tree (fun _ t => Opened p tree t) fun _ t => t = tree := by
  have hmake : ∀ t : FileTree, t.Grounded → Ends (makeDirectory p) t (fun _ u => Opened p tree u) fun problem u =>
      u = t ∧ t.directoryPlace p = .error problem :=
    fun t ht => makeDirectory_keeps fun names hplace => ht.opened hplace
  have hunless : ∀ problem, Ends (unlessDirectory p problem) tree (fun _ u => Opened p tree u) fun _ u => u = tree := by
    refine fun problem => (unlessDirectory_run p problem tree).imp (fun _ t hthere => ?_) fun _ _ => id
    obtain ⟨rfl, names, hlocate⟩ := hthere
    exact ⟨names, hlocate, .inl rfl⟩
  rw [makeDirectories]
  refine (hmake tree h).tryCatch fun problem t hfailed => ?_
  obtain ⟨rfl, hplace⟩ := hfailed
  split
  · rename_i hmissing
    subst hmissing
    split
    · exact ends_throw rfl
    · rename_i hne
      have hshorter := length_parent_lt hne
      obtain ⟨front, name, hnames⟩ := (List.eq_nil_or_concat' p.names).resolve_left hne
      have hname : IsPlainName name := hplain name (by rw [hnames]; simp)
      rw [directoryPlace_below hnames hname] at hplace
      have hlocate : t.locate .entry p = .error .missing := by
        split at hplace
        · cases hplace
        · cases hplace
        · rename_i hlocate
          cases hplace
          exact hlocate
      have hpassable := isPassable_of_missing hlocate
      refine (makeDirectories_opens p.parent t (fun n hn => hplain n (List.dropLast_subset _ hn)) h).bind
        fun _ u hopened => ?_
      obtain ⟨names, hparent, rfl | ⟨-, hgrounded, hempty⟩⟩ := hopened
      · -- a directory above would have told where the last name is
        exfalso
        cases hentry : u.entry? (names ++ [name]) with
        | none => rw [locate_below_vacant .entry hpassable hnames hname hparent hentry] at hlocate; cases hlocate
        | some entry => rw [locate_below_occupied hpassable hnames hname hparent hentry] at hlocate; cases hlocate
      · refine (hmake u hgrounded).tryCatch fun problem v hfailed => ?_
        have hplace := hfailed.2
        rw [directoryPlace_below hnames hname, locate_below_vacant .entry hpassable hnames hname hparent (hempty name)]
          at hplace
        cases hplace
  · exact hunless problem
termination_by p.names.length

/-- **On an ordinary path a file is saved, or nothing is new.** -/
theorem saving_whole (h : tree.Grounded) (houtput : IsOrdinary output) (bytes : List UInt8) :
    Ends (do
      makeDirectories output.parent
      writeFile output bytes) tree (fun _ _ => True) fun _ t => t = tree := by
  have hparent := makeDirectories_opens output.parent tree
    (fun n hn => houtput.plain n (List.dropLast_subset _ hn)) h
  refine hparent.bind fun _ t hopened => ?_
  obtain ⟨names, hlocate, rfl | ⟨hne, -, hempty⟩⟩ := hopened
  · exact (writeFile_keeps output bytes t).imp (fun _ _ _ => trivial) fun _ _ => id
  · -- behind a new directory the name of the file is free
    obtain ⟨front, name, hnames⟩ := (List.eq_nil_or_concat' output.names).resolve_left fun hnil =>
      hne (by rw [Path.parent, hnil]; rfl)
    have hname : IsPlainName name := houtput.plain name (by rw [hnames]; simp)
    have hvacant := locate_below_vacant .newFile houtput.toIsPassable hnames hname hlocate (hempty name)
    have hplace : t.filePlace output = .ok (names ++ [name]) := by rw [filePlace, hvacant]
    refine Ends.get_bind ?_
    rw [hplace]
    exact ends_set trivial

end TrapStub
