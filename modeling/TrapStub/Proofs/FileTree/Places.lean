import Mathlib.Data.List.Infix
import Mathlib.Tactic.ByContra
import TrapStub.Corpus.Staging
import TrapStub.Proofs.FileTree.Leads

/-!
# Where names lead

The names of a file from the root lead to it when directories stand under all of its front parts. No link is
followed on such a way, and no name on it is special.

* `FileTree.isName`: what the name of an entry can be.
* `FileTree.Through`, `FileTree.Clear`: directories all the way, or as far as there is anything.
* `FileTree.Grounded`: what stands in a tree stands in a directory.
* `FileTree.put_entry`: what stands under names after a change.
* `FileTree.locate_place`, `FileTree.locate_through`, `FileTree.locate_missing`: where such a way leads.
-/

namespace TrapStub

open FileTree

variable {tree : FileTree} {purpose : Purpose} {links : Nat} {start names front rest : List Text} {name : Text}

namespace FileTree

/-- A name that an entry can have: a text that the system takes, and that means no other place. It need not be
UTF-8. -/
def isName (name : Text) : Bool :=
  !name.isEmpty && name != Path.here && name != Path.up &&
    name.all (fun g => !g.is '/' && g.code != 0) && (Utf8.encode name).length ≤ nameLimit

/-- The names are those of an entry and of the directories above it. -/
def AreNames (names : List Text) : Prop := ∀ name ∈ names, isName name = true

instance (names : List Text) : Decidable (AreNames names) :=
  inferInstanceAs (Decidable (∀ name ∈ names, isName name = true))

/-- Directories stand all the way under the names. -/
def Through (tree : FileTree) (names : List Text) : Prop :=
  ∀ front, front <+: names → tree.entry? front = some .directory

/-- Nothing but directories stands on the way. -/
def Clear (tree : FileTree) (names : List Text) : Prop :=
  ∀ front, front <+: names → tree.entry? front = some .directory ∨ tree.entry? front = none

theorem AreNames.append (h : AreNames front) (h' : AreNames rest) : AreNames (front ++ rest) := fun n hn =>
  (List.mem_append.1 hn).elim (h n) (h' n)

theorem areNames_singleton (h : isName name = true) : AreNames [name] := fun n hn => by rwa [List.mem_singleton.1 hn]

theorem isName_fields (h : isName name = true) : name ≠ [] ∧ name ≠ Path.here ∧ name ≠ Path.up ∧
    (∀ g ∈ name, g.is '/' = false ∧ g.code ≠ 0) ∧ (Utf8.encode name).length ≤ nameLimit := by
  simp only [isName, Bool.and_eq_true, decide_eq_true_eq, bne_iff_ne, List.all_eq_true, Bool.not_eq_true',
    List.isEmpty_eq_false_iff] at h
  obtain ⟨⟨⟨⟨hempty, hhere⟩, hup⟩, hglyphs⟩, hshort⟩ := h
  exact ⟨hempty, hhere, hup, hglyphs, hshort⟩

theorem isName_plain (h : isName name = true) : IsPlainName name :=
  ⟨(isName_fields h).1, (isName_fields h).2.1, (isName_fields h).2.2.1, (isName_fields h).2.2.2.2⟩

theorem Through.of_isPrefix (h : tree.Through names) (hfront : front <+: names) : tree.Through front :=
  fun part hpart => h part (hpart.trans hfront)

theorem Clear.of_isPrefix (h : tree.Clear names) (hfront : front <+: names) : tree.Clear front :=
  fun part hpart => h part (hpart.trans hfront)

theorem through_nil (tree : FileTree) : tree.Through [] := by
  intro front hfront
  rw [List.prefix_nil.1 hfront]
  rfl

/-- One more directory at the end of the way. -/
theorem Through.concat (h : tree.Through names) (hlast : tree.entry? (names ++ [name]) = some .directory) :
    tree.Through (names ++ [name]) := by
  intro front hfront
  rcases List.prefix_concat_iff.1 hfront with rfl | hfront
  · exact hlast
  · exact h front hfront

/-! ## Directories above -/

/-- What stands in the tree stands in a directory. -/
def Grounded (tree : FileTree) : Prop :=
  ∀ names name entry, tree.entry? (names ++ [name]) = some entry → tree.entry? names = some .directory

theorem Grounded.below (h : tree.Grounded) (hnone : tree.entry? names = none) (name : Text) :
    tree.entry? (names ++ [name]) = none := by
  by_contra hentry
  obtain ⟨entry, hentry⟩ := Option.ne_none_iff_exists'.1 hentry
  rw [h names name entry hentry] at hnone
  cases hnone

theorem Grounded.all_below (h : tree.Grounded) (hnone : tree.entry? names = none) (rest : List Text) :
    tree.entry? (names ++ rest) = none := by
  induction rest using List.reverseRecOn with
  | nil => rwa [List.append_nil]
  | append_singleton rest name ih =>
    rw [← List.append_assoc]
    exact h.below ih name

theorem Grounded.through (h : tree.Grounded) (hnames : tree.entry? names = some .directory) :
    tree.Through names := by
  induction names using List.reverseRecOn with
  | nil => exact through_nil tree
  | append_singleton front name ih => exact (ih (h front name _ hnames)).concat hnames

theorem grounded_of_entries (h : ∀ e ∈ tree.entries, tree.entry? e.1.dropLast = some .directory) : tree.Grounded := by
  intro names name entry hentry
  have hempty : (names ++ [name]).isEmpty = false := by simp
  unfold entry? at hentry
  rw [hempty, if_neg Bool.false_ne_true] at hentry
  obtain ⟨front, rest, hentries, -⟩ := List.lookup_eq_some_iff.1 hentry
  have hdirectory := h (names ++ [name], entry) (by rw [hentries]; exact List.mem_append_right _ List.mem_cons_self)
  rwa [List.dropLast_concat] at hdirectory

/-! ## Entries after a change -/

theorem lookup_map_replace (entries : List (List Text × FileEntry)) (entry : FileEntry) (other : List Text) :
    (entries.map fun (n, e) => (n, if n = names then entry else e)).lookup other =
      (entries.lookup other).map fun e => if other = names then entry else e := by
  induction entries with
  | nil => rfl
  | cons first entries ih =>
    obtain ⟨n, e⟩ := first
    rw [List.map_cons, List.lookup_cons, List.lookup_cons]
    by_cases hn : other = n
    · subst hn
      simp
    · have hne : (other == n) = false := by simpa using hn
      simp [hne, ih]

theorem lookup_concat (entries : List (List Text × FileEntry)) (entry : FileEntry) (other : List Text) :
    (entries ++ [(names, entry)]).lookup other =
      (entries.lookup other).or (if other = names then some entry else none) := by
  induction entries with
  | nil =>
    rw [List.nil_append, List.lookup_cons]
    by_cases hn : other = names
    · simp [hn]
    · have hne : (other == names) = false := by simpa using hn
      simp [hne, hn]
  | cons first entries ih =>
    obtain ⟨n, e⟩ := first
    rw [List.cons_append, List.lookup_cons, List.lookup_cons, ih]
    cases other == n <;> rfl

/-- **After a change** the entry stands under its names, and nothing else is different. -/
theorem put_entry (hnames : names ≠ []) (entry : FileEntry) (other : List Text) :
    FileTree.entry? (tree.put names entry) other = if other = names then some entry else tree.entry? other := by
  have hempty : names.isEmpty = false := by simpa using hnames
  unfold put
  split
  · rename_i hpresent
    unfold entry? at hpresent ⊢
    rw [hempty, if_neg Bool.false_ne_true] at hpresent
    obtain ⟨old, hold⟩ := Option.isSome_iff_exists.1 hpresent
    by_cases hn : other = names
    · subst hn
      simp [hempty, lookup_map_replace, hold]
    · cases other with
      | nil => simp [hn]
      | cons n other => simp [lookup_map_replace, hn]
  · rename_i habsent
    unfold entry? at habsent ⊢
    rw [hempty, if_neg Bool.false_ne_true, Bool.not_eq_true, Option.isSome_eq_false_iff, Option.isNone_iff_eq_none]
      at habsent
    by_cases hn : other = names
    · subst hn
      simp [hempty, lookup_concat, habsent]
    · cases other with
      | nil => simp [hn]
      | cons n other => simp [lookup_concat, hn]

theorem put_entry_self (hnames : names ≠ []) (entry : FileEntry) :
    FileTree.entry? (tree.put names entry) names = some entry := by
  rw [put_entry hnames, if_pos rfl]

theorem put_entry_of_ne (hnames : names ≠ []) (entry : FileEntry) {other : List Text} (h : other ≠ names) :
    FileTree.entry? (tree.put names entry) other = tree.entry? other := by
  rw [put_entry hnames, if_neg h]

/-! ## Ways of directories -/

/-- One step on the way: there is a directory under the next name. -/
theorem locateFrom_directory (hname : isName name = true) (hrest : AreNames rest)
    (hstart : tree.entry? start = some .directory) (hnext : tree.entry? (start ++ [name]) = some .directory) :
    tree.locateFrom purpose links start (name :: rest) = tree.locateFrom purpose links (start ++ [name]) rest := by
  obtain ⟨hne, hhere, hup, -, hshort⟩ := isName_fields hname
  have hslash : rest ≠ [[]] := by
    rintro rfl
    exact (isName_fields (hrest [] (List.mem_singleton_self _))).1 rfl
  rw [locateFrom]
  simp [hstart, hne, hhere, hup, hslash, Nat.not_lt.2 hshort, hnext]

/-- The last step: what is there is where the way leads. -/
theorem locateFrom_last (hname : isName name = true) (hstart : tree.entry? start = some .directory)
    (hlink : ∀ target, tree.entry? (start ++ [name]) ≠ some (.link target)) :
    tree.locateFrom purpose links start [name] = .ok (match tree.entry? (start ++ [name]) with
      | some entry => .occupied (start ++ [name]) entry
      | none => .vacant (start ++ [name])) := by
  obtain ⟨hne, hhere, hup, -, hshort⟩ := isName_fields hname
  rw [locateFrom]
  cases hnext : tree.entry? (start ++ [name]) with
  | none => simp [hstart, hne, hhere, hup, Nat.not_lt.2 hshort]
  | some entry =>
    cases entry with
    | link target => exact absurd hnext (hlink target)
    | directory => simp [hstart, hne, hhere, hup, Nat.not_lt.2 hshort, hnext, locateFrom]
    | file bytes => simp [hstart, hne, hhere, hup, Nat.not_lt.2 hshort, hnext, locateFrom]

/-- A way that breaks off before its last name. -/
theorem locateFrom_missing (hname : isName name = true) (hrest : rest ≠ []) (hslash : rest ≠ [[]])
    (hstart : tree.entry? start = some .directory) (hnext : tree.entry? (start ++ [name]) = none) :
    tree.locateFrom purpose links start (name :: rest) = .error .missing := by
  obtain ⟨hne, hhere, hup, -, hshort⟩ := isName_fields hname
  rw [locateFrom]
  simp [hstart, hne, hhere, hup, hslash, Nat.not_lt.2 hshort, hnext, hrest]

theorem locateFrom_through (hall : AreNames (front ++ rest))
    (h : ∀ part, part <+: front → tree.entry? (start ++ part) = some .directory) :
    tree.locateFrom purpose links start (front ++ rest) = tree.locateFrom purpose links (start ++ front) rest := by
  induction front generalizing start with
  | nil => rw [List.nil_append, List.append_nil]
  | cons name front ih =>
    have hstart := h [] (List.nil_prefix)
    rw [List.append_nil] at hstart
    have hnext := h [name] ⟨front, rfl⟩
    have hrest : AreNames (front ++ rest) := fun n hn => hall n (List.mem_cons_of_mem _ hn)
    rw [List.cons_append, locateFrom_directory (hall name List.mem_cons_self) hrest hstart hnext,
      ih hrest fun part hpart => ?_]
    · rw [List.append_assoc, List.singleton_append]
    · have hlonger := h (name :: part) ((List.prefix_cons_inj name).2 hpart)
      rwa [List.append_assoc, List.singleton_append]

/-- Where the directories end before the last name. -/
theorem locateFrom_breaks (hall : AreNames (front ++ [name])) (hstart : tree.entry? start = some .directory)
    (h : ∀ part, part <+: front →
      tree.entry? (start ++ part) = some .directory ∨ tree.entry? (start ++ part) = none)
    (hbreak : ∃ part, part <+: front ∧ tree.entry? (start ++ part) = none) :
    tree.locateFrom purpose links start (front ++ [name]) = .error .missing := by
  induction front generalizing start with
  | nil =>
    obtain ⟨part, hpart, hnone⟩ := hbreak
    rw [List.prefix_nil.1 hpart, List.append_nil, hstart] at hnone
    cases hnone
  | cons first front ih =>
    have hfirst := hall first List.mem_cons_self
    have hrest : AreNames (front ++ [name]) := fun n hn => hall n (List.mem_cons_of_mem _ hn)
    rw [List.cons_append]
    rcases h [first] ⟨front, rfl⟩ with hnext | hnext
    · rw [locateFrom_directory hfirst hrest hstart hnext]
      refine ih hrest hnext (fun part hpart => ?_) ?_
      · have hlonger := h (first :: part) ((List.prefix_cons_inj first).2 hpart)
        rwa [List.append_assoc, List.singleton_append]
      · obtain ⟨part, hpart, hnone⟩ := hbreak
        cases part with
        | nil =>
          rw [List.append_nil, hstart] at hnone
          cases hnone
        | cons n part =>
          obtain ⟨rfl, hinner⟩ := List.cons_prefix_cons.1 hpart
          exact ⟨part, hinner, by rwa [List.append_assoc, List.singleton_append]⟩
    · refine locateFrom_missing hfirst ?_ ?_ hstart hnext
      · exact List.append_ne_nil_of_right_ne_nil _ (List.cons_ne_nil _ _)
      · intro hslash
        rw [hslash] at hrest
        exact (isName_fields (hrest [] (List.mem_singleton_self _))).1 rfl

/-! ## Absolute paths -/

/-- The names from the root make a path that is not too long. -/
def Fits (names : List Text) : Prop := (Utf8.encode (Staged.absolute names).text).length ≤ pathLimit

instance (names : List Text) : Decidable (Fits names) :=
  inferInstanceAs (Decidable ((Utf8.encode (Staged.absolute names).text).length ≤ pathLimit))

theorem join_append (separator : Text) (front rest : List Text) :
    Text.join separator front <+: Text.join separator (front ++ rest) := by
  induction front with
  | nil => exact List.nil_prefix
  | cons part front ih =>
    cases front with
    | nil =>
      cases rest with
      | nil => exact List.prefix_rfl
      | cons next rest =>
        exact ⟨separator ++ Text.join separator (next :: rest), (List.append_assoc _ _ _).symm⟩
    | cons next front =>
      change part ++ separator ++ Text.join separator (next :: front) <+:
        part ++ separator ++ Text.join separator (next :: front ++ rest)
      exact (List.prefix_append_right_inj _).2 ih

theorem encode_append (t u : Text) : Utf8.encode (t ++ u) = Utf8.encode t ++ Utf8.encode u := List.flatMap_append

theorem Fits.of_isPrefix (h : Fits names) (hfront : front <+: names) : Fits front := by
  obtain ⟨rest, rfl⟩ := hfront
  refine Nat.le_trans ?_ h
  obtain ⟨more, hmore⟩ := join_append "/" front rest
  have htext : ∀ names, (Staged.absolute names).text = "/" ++ Text.join "/" names := fun _ => rfl
  rw [htext, htext, ← hmore, ← List.append_assoc]
  rw [encode_append _ more, List.length_append]
  exact Nat.le_add_right _ _

theorem locate_absolute (hnames : AreNames names) (hfits : Fits names) :
    tree.locate purpose (Staged.absolute names) = tree.locateFrom purpose linkLimit [] names := by
  have hnull : (Staged.absolute names).hasNull = false := by
    refine List.any_eq_false.2 fun name hname => ?_
    rw [Bool.not_eq_true]
    refine List.any_eq_false.2 fun g hg => ?_
    simpa using ((isName_fields (hnames name hname)).2.2.2.1 g hg).2
  unfold locate
  rw [hnull, if_neg Bool.false_ne_true, if_neg (Nat.not_lt.2 hfits)]
  rfl

/-- **Directories all the way** lead to the last of them. -/
theorem locate_through (purpose : Purpose) (hnames : AreNames names) (hfits : Fits names)
    (h : tree.Through names) : tree.locate purpose (Staged.absolute names) = .ok (.occupied names .directory) := by
  have hall : AreNames (names ++ []) := by rwa [List.append_nil]
  have hway : tree.locateFrom purpose linkLimit [] (names ++ []) =
      tree.locateFrom purpose linkLimit ([] ++ names) [] := locateFrom_through hall h
  rw [List.append_nil, List.nil_append] at hway
  rw [locate_absolute hnames hfits, hway, locateFrom, h names List.prefix_rfl]

/-- **Below directories** stands what the tree has there, or nothing yet. -/
theorem locate_place (purpose : Purpose) (hnames : AreNames (front ++ [name])) (hfits : Fits (front ++ [name]))
    (h : tree.Through front) (hlink : ∀ target, tree.entry? (front ++ [name]) ≠ some (.link target)) :
    tree.locate purpose (Staged.absolute (front ++ [name])) = .ok (match tree.entry? (front ++ [name]) with
      | some entry => .occupied (front ++ [name]) entry
      | none => .vacant (front ++ [name])) := by
  have hway : tree.locateFrom purpose linkLimit [] (front ++ [name]) =
      tree.locateFrom purpose linkLimit ([] ++ front) [name] := locateFrom_through hnames h
  rw [List.nil_append] at hway
  rw [locate_absolute hnames hfits, hway]
  have hlast : isName name = true := hnames name (List.mem_append_right _ (List.mem_singleton_self _))
  exact locateFrom_last hlast (h front List.prefix_rfl) hlink

/-- **Where a directory is missing** the way leads nowhere. -/
theorem locate_missing (purpose : Purpose) (hnames : AreNames (front ++ [name])) (hfits : Fits (front ++ [name]))
    (h : tree.Clear front) (hbreak : ¬ tree.Through front) :
    tree.locate purpose (Staged.absolute (front ++ [name])) = .error .missing := by
  rw [locate_absolute hnames hfits]
  refine locateFrom_breaks hnames rfl h ?_
  by_contra hnone
  refine hbreak fun part hpart => (h part hpart).resolve_right fun hpartNone => hnone ⟨part, hpart, hpartNone⟩

end FileTree

end TrapStub
