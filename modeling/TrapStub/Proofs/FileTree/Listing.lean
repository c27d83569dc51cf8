import Mathlib.Data.List.Nodup
import TrapStub.Proofs.FileTree.Growth

/-!
# The order of entries

A tree lists its entries in some order. Names have at most one entry, so what stands under them does not depend on
that order, and neither does where a path leads. Only the names in a directory come in another order. Steps on files
therefore end alike on two listings of a tree, and leave two listings of one tree.

* `FileTree.Relisted`, `FileTree.Relisted.same`: another listing of a tree, with the same entry under all names.
* `FileTree.Same.locate`: a path leads to the same place.
* `FileTree.children_eq`, `FileTree.mem_children`: the names in a directory.
* `EndsAlike`: two steps that end alike, with a rule for each way to put steps together.
* `makeDirectories_alike`, `writeFile_alike`: **steps on files do not depend on the listing.**
-/

namespace TrapStub

open FileTree

variable {tree t u v : FileTree} {purpose : Purpose} {links : Nat} {start pending names : List Text} {name : Text}
  {p : Path} {entry : FileEntry}

namespace FileTree

/-- No names have two entries. -/
def IsUnique (tree : FileTree) : Prop := (tree.entries.map (·.1)).Nodup

instance (tree : FileTree) : Decidable tree.IsUnique :=
  inferInstanceAs (Decidable (tree.entries.map (·.1)).Nodup)

/-- Another listing of the tree: its entries in any order. -/
structure Relisted (tree t : FileTree) : Prop where
  unique : tree.IsUnique
  entries : t.entries.Perm tree.entries
  here : t.here = tree.here
  scratch : t.scratch = tree.scratch

theorem Relisted.refl (h : tree.IsUnique) : tree.Relisted tree := ⟨h, .refl _, rfl, rfl⟩

theorem Relisted.unique_right (h : tree.Relisted t) : t.IsUnique := by
  have hkeys := h.entries.map Prod.fst
  exact hkeys.nodup_iff.2 h.unique

theorem lookup_eq_some_of_nodup {entries : List (List Text × FileEntry)} (h : (entries.map (·.1)).Nodup) :
    entries.lookup names = some entry ↔ (names, entry) ∈ entries := by
  induction entries with
  | nil => simp
  | cons first entries ih =>
    obtain ⟨n, e⟩ := first
    rw [List.map_cons, List.nodup_cons] at h
    rw [List.lookup_cons, List.mem_cons]
    by_cases hn : names = n
    · subst hn
      have habsent : (names, entry) ∉ entries := fun hmem => h.1 (List.mem_map.2 ⟨_, hmem, rfl⟩)
      simp [habsent, eq_comm]
    · have hne : (names == n) = false := by simpa using hn
      simp [hne, hn, ih h.2]

/-- **The same entry stands under all names.** -/
theorem Relisted.same (h : tree.Relisted t) : tree.Same t := by
  refine ⟨fun names => ?_, h.here, h.scratch⟩
  unfold entry?
  split
  · rfl
  · refine Option.ext fun entry => ?_
    rw [lookup_eq_some_of_nodup h.unique_right, lookup_eq_some_of_nodup h.unique, h.entries.mem_iff]

/-! ## Looking -/

theorem Same.locateFrom (h : tree.Same t) (links : Nat) (start pending : List Text) :
    t.locateFrom purpose links start pending = tree.locateFrom purpose links start pending := by
  cases pending with
  | nil => rw [FileTree.locateFrom, FileTree.locateFrom, h.entries]
  | cons name rest =>
    have hrest := fun start => Same.locateFrom h links start rest
    rw [FileTree.locateFrom, FileTree.locateFrom]
    cases links with
    | zero => simp only [h.entries, hrest]
    | succ links =>
      have hlink := fun start pending => Same.locateFrom h links start pending
      simp only [h.entries, hrest, hlink]
termination_by (links, pending.length)

theorem Same.locate (h : tree.Same t) (purpose : Purpose) (p : Path) : t.locate purpose p = tree.locate purpose p := by
  unfold FileTree.locate
  rw [h.here, h.locateFrom linkLimit]

theorem Same.isDirectory (h : tree.Same t) (p : Path) : t.isDirectory p = tree.isDirectory p := by
  unfold FileTree.isDirectory
  rw [h.locate]

theorem Same.isPresent (h : tree.Same t) (p : Path) : t.isPresent p = tree.isPresent p := by
  unfold FileTree.isPresent
  rw [h.locate]

theorem Same.read (h : tree.Same t) (p : Path) : t.read p = tree.read p := by
  unfold FileTree.read
  rw [h.locate]

theorem Same.hasDirectory (h : tree.Same t) (p : Path) (name : Text) :
    t.hasDirectory p name = tree.hasDirectory p name := by
  unfold FileTree.hasDirectory
  rw [h.locate, h.isDirectory]
  simp only [h.entries]

theorem Same.directoryPlace (h : tree.Same t) (p : Path) : t.directoryPlace p = tree.directoryPlace p := by
  unfold FileTree.directoryPlace
  rw [h.locate, h.locate]

theorem Same.filePlace (h : tree.Same t) (p : Path) : t.filePlace p = tree.filePlace p := by
  unfold FileTree.filePlace
  rw [h.locate]

/-! ## The names in a directory -/

/-- The last of some names behind a directory. -/
def lastBelow (directory names : List Text) : Option Text :=
  if names.dropLast = directory then names.getLast? else none

theorem lastBelow_eq_some {directory : List Text} :
    lastBelow directory names = some name ↔ names = directory ++ [name] := by
  unfold lastBelow
  constructor
  · intro h
    split at h
    · rename_i hdirectory
      rw [← hdirectory, List.dropLast_append_getLast? name h]
    · cases h
  · rintro rfl
    rw [List.dropLast_concat, if_pos rfl, List.getLast?_concat]

/-- The names in a directory are those that entries have there. -/
theorem children_eq (h : tree.locate .target p = .ok (.occupied names .directory)) :
    tree.children p = (tree.entries.map (·.1)).filterMap (lastBelow names) := by
  unfold children
  rw [h, List.filterMap_map]
  rfl

theorem isSome_iff_mem (hnames : names ≠ []) : (tree.entry? names).isSome ↔ names ∈ tree.entries.map (·.1) := by
  have hempty : names.isEmpty = false := by simpa using hnames
  unfold entry?
  rw [hempty, if_neg Bool.false_ne_true, Option.isSome_iff_ne_none, ne_eq, List.lookup_eq_none_iff, List.mem_map]
  simp only [bne_iff_ne, not_forall, not_not, exists_prop, ne_eq]
  exact exists_congr fun e => and_congr_right fun _ => eq_comm

/-- **The names in a directory** are those that something stands under. -/
theorem mem_children : name ∈ tree.children p ↔ ∃ names, tree.locate .target p = .ok (.occupied names .directory) ∧
    (tree.entry? (names ++ [name])).isSome := by
  constructor
  · intro h
    have hdirectory : tree.isDirectory p = true := by
      unfold children at h
      split at h
      · rename_i names hlocate
        exact isDirectory_eq_true.2 ⟨names, hlocate⟩
      · cases h
    obtain ⟨names, hlocate⟩ := isDirectory_eq_true.1 hdirectory
    rw [children_eq hlocate] at h
    obtain ⟨n, hn, hlast⟩ := List.mem_filterMap.1 h
    rw [lastBelow_eq_some] at hlast
    subst hlast
    exact ⟨names, hlocate, (isSome_iff_mem (by simp)).2 hn⟩
  · rintro ⟨names, hlocate, hentry⟩
    rw [children_eq hlocate]
    exact List.mem_filterMap.2 ⟨_, (isSome_iff_mem (by simp)).1 hentry, lastBelow_eq_some.2 rfl⟩

theorem mem_children_of_hasDirectory (h : tree.hasDirectory p name = true) : name ∈ tree.children p := by
  cases hlocate : tree.locate .target p with
  | error problem => simp [hasDirectory, hlocate] at h
  | ok place =>
    cases place with
    | vacant names => simp [hasDirectory, hlocate] at h
    | occupied names entry =>
      cases entry with
      | file bytes => simp [hasDirectory, hlocate] at h
      | link target => simp [hasDirectory, hlocate] at h
      | directory =>
        refine mem_children.2 ⟨names, hlocate, ?_⟩
        rcases (hasDirectory_of_locate hlocate).1 h with hentry | ⟨⟨target, hentry⟩, -⟩ <;> rw [hentry] <;> rfl

theorem children_nodup (h : tree.IsUnique) (p : Path) : (tree.children p).Nodup := by
  cases hdirectory : tree.isDirectory p with
  | true =>
    obtain ⟨names, hlocate⟩ := isDirectory_eq_true.1 hdirectory
    rw [children_eq hlocate]
    refine List.Nodup.filterMap (fun a b name ha hb => ?_) h
    rw [lastBelow_eq_some.1 ha, lastBelow_eq_some.1 hb]
  | false =>
    have hnil : tree.children p = [] := List.eq_nil_iff_forall_not_mem.2 fun name hname => by
      obtain ⟨names, hlocate, -⟩ := mem_children.1 hname
      rw [isDirectory_eq_true.2 ⟨names, hlocate⟩] at hdirectory
      cases hdirectory
    rw [hnil]
    exact List.nodup_nil

theorem Relisted.children (h : tree.Relisted t) (p : Path) : (t.children p).Perm (tree.children p) := by
  refine (List.perm_ext_iff_of_nodup (children_nodup h.unique_right p) (children_nodup h.unique p)).2 fun name => ?_
  rw [mem_children, mem_children]
  simp only [h.same.locate, h.same.entries]

/-! ## Changing -/

theorem keys_put (hentry : (tree.entry? names).isSome) :
    (tree.put names entry).entries.map (·.1) = tree.entries.map (·.1) := by
  unfold put
  rw [if_pos hentry, List.map_map]
  rfl

theorem IsUnique.put (h : tree.IsUnique) (hnames : names ≠ []) : (tree.put names entry).IsUnique := by
  unfold IsUnique
  by_cases hentry : (tree.entry? names).isSome
  · rw [keys_put hentry]
    exact h
  · have hnew := fun hmem => hentry ((isSome_iff_mem hnames).2 hmem)
    unfold FileTree.put
    rw [if_neg hentry, List.map_append, List.nodup_append]
    refine ⟨h, List.nodup_cons.2 ⟨List.not_mem_nil, List.nodup_nil⟩, fun a ha b hb => ?_⟩
    rw [List.map_singleton, List.mem_singleton] at hb
    rintro rfl
    rw [hb] at ha
    exact hnew ha

theorem Relisted.put (h : tree.Relisted t) (hnames : names ≠ []) (entry : FileEntry) :
    (tree.put names entry).Relisted (t.put names entry) := by
  refine ⟨h.unique.put hnames, ?_, (put_here _).trans (h.here.trans (put_here _).symm),
    (put_scratch _).trans (h.scratch.trans (put_scratch _).symm)⟩
  unfold FileTree.put
  rw [h.same.entries]
  split
  · exact h.entries.map _
  · exact h.entries.append_right _

end FileTree

/-! ## Steps that end alike -/

section Steps

variable {ε α β : Type} {fault : ε} {a : α}

/-- From two listings the steps have the same answer or fault, and leave two listings of one tree. -/
def EndsAlike (x y : ExceptT ε (StateM FileTree) α) (tree t : FileTree) : Prop :=
  (y t).1 = (x tree).1 ∧ (x tree).2.Relisted (y t).2

theorem endsAlike_pure (h : tree.Relisted t) (a : α) :
    EndsAlike (pure a : ExceptT ε (StateM FileTree) α) (pure a) tree t :=
  ⟨rfl, h⟩

theorem endsAlike_throw (h : tree.Relisted t) (fault : ε) :
    EndsAlike (throw fault : ExceptT ε (StateM FileTree) α) (throw fault) tree t :=
  ⟨rfl, h⟩

theorem endsAlike_set (h : u.Relisted v) :
    EndsAlike (set u : ExceptT ε (StateM FileTree) PUnit) (set v) tree t :=
  ⟨rfl, h⟩

theorem EndsAlike.bind {x y : ExceptT ε (StateM FileTree) α} {f g : α → ExceptT ε (StateM FileTree) β}
    (h : EndsAlike x y tree t) (hrest : ∀ a u v, u.Relisted v → EndsAlike (f a) (g a) u v) :
    EndsAlike (x >>= f) (y >>= g) tree t := by
  obtain ⟨hanswer, hstate⟩ := h
  unfold EndsAlike
  rw [bind_run, bind_run]
  rcases hx : x tree with ⟨a | a, u⟩ <;> rcases hy : y t with ⟨b | b, v⟩ <;> rw [hx, hy] at hanswer hstate <;>
    cases hanswer
  · exact ⟨rfl, hstate⟩
  · exact hrest a u v hstate

/-- Steps that look at the tree first. -/
theorem EndsAlike.get_bind {f g : FileTree → ExceptT ε (StateM FileTree) β} (h : EndsAlike (f tree) (g t) tree t) :
    EndsAlike (get >>= f) (get >>= g) tree t := h

theorem EndsAlike.tryCatch {x y : ExceptT ε (StateM FileTree) α} {f g : ε → ExceptT ε (StateM FileTree) α}
    (h : EndsAlike x y tree t) (hrest : ∀ fault u v, u.Relisted v → EndsAlike (f fault) (g fault) u v) :
    EndsAlike (tryCatch x f) (tryCatch y g) tree t := by
  obtain ⟨hanswer, hstate⟩ := h
  unfold EndsAlike
  rw [tryCatch_run, tryCatch_run]
  rcases hx : x tree with ⟨a | a, u⟩ <;> rcases hy : y t with ⟨b | b, v⟩ <;> rw [hx, hy] at hanswer hstate <;>
    cases hanswer
  · exact hrest a u v hstate
  · exact ⟨rfl, hstate⟩

theorem EndsAlike.mapM {f : α → ExceptT ε (StateM FileTree) β}
    (h : ∀ a u v, u.Relisted v → EndsAlike (f a) (f a) u v) (l : List α) (hstart : tree.Relisted t) :
    EndsAlike (l.mapM f) (l.mapM f) tree t := by
  induction l generalizing tree t with
  | nil => exact endsAlike_pure hstart []
  | cons a l ih =>
    rw [List.mapM_cons]
    exact (h a tree t hstart).bind fun b u v huv => (ih huv).bind fun bs u v huv => endsAlike_pure huv (b :: bs)

theorem EndsAlike.forM {f : α → ExceptT ε (StateM FileTree) Unit}
    (h : ∀ a u v, u.Relisted v → EndsAlike (f a) (f a) u v) (l : List α) (hstart : tree.Relisted t) :
    EndsAlike (l.forM f) (l.forM f) tree t := by
  induction l generalizing tree t with
  | nil => exact endsAlike_pure hstart ()
  | cons a l ih =>
    rw [List.forM_eq_forM, List.forM_cons]
    exact (h a tree t hstart).bind fun _ u v huv => ih huv

end Steps

theorem makeDirectory_alike (h : tree.Relisted t) (p : Path) :
    EndsAlike (makeDirectory p) (makeDirectory p) tree t := by
  unfold makeDirectory
  refine EndsAlike.get_bind ?_
  rw [h.same.directoryPlace]
  cases hplace : tree.directoryPlace p with
  | error problem => exact endsAlike_throw h problem
  | ok names =>
    have hnone := (entry?_of_vacant (directoryPlace_eq_ok hplace)).1
    exact endsAlike_set (h.put (ne_nil_of_ne_directory (by rw [hnone]; nofun)) _)

theorem unlessDirectory_alike (h : tree.Relisted t) (p : Path) (problem : FileProblem) :
    EndsAlike (unlessDirectory p problem) (unlessDirectory p problem) tree t := by
  unfold unlessDirectory
  refine EndsAlike.get_bind ?_
  rw [h.same.locate]
  split
  · exact endsAlike_pure h ()
  · exact endsAlike_throw h _
  · exact endsAlike_throw h _

/-- **Making directories does not depend on the listing.** -/
theorem makeDirectories_alike {tree t : FileTree} (h : tree.Relisted t) (p : Path) :
    EndsAlike (makeDirectories p) (makeDirectories p) tree t := by
  rw [makeDirectories]
  refine (makeDirectory_alike h p).tryCatch fun problem u v huv => ?_
  split
  · split
    · exact endsAlike_throw huv problem
    · rename_i hnames
      have hshorter := length_parent_lt hnames
      refine (makeDirectories_alike huv p.parent).bind fun _ u v huv => ?_
      refine (makeDirectory_alike huv p).tryCatch fun problem u v huv => ?_
      split
      · exact endsAlike_throw huv problem
      · exact unlessDirectory_alike huv p problem
  · exact unlessDirectory_alike huv p problem
termination_by p.names.length

/-- **Writing a file does not depend on the listing.** -/
theorem writeFile_alike (h : tree.Relisted t) (p : Path) (bytes : List UInt8) :
    EndsAlike (writeFile p bytes) (writeFile p bytes) tree t := by
  unfold writeFile
  refine EndsAlike.get_bind ?_
  rw [h.same.filePlace]
  cases hplace : tree.filePlace p with
  | error problem => exact endsAlike_throw h problem
  | ok names =>
    have hother : tree.entry? names ≠ some .directory := by
      rcases entry?_of_filePlace hplace with hnone | ⟨old, hold⟩
      · rw [hnone]
        nofun
      · rw [hold]
        nofun
    exact endsAlike_set (h.put (ne_nil_of_ne_directory hother) _)

end TrapStub
