import TrapStub.Proofs.Corpus.Staging
import TrapStub.Proofs.FileTree.Depth
import TrapStub.Proofs.Text.Order

/-!
# All headers, in one order

The headers are searched directory by directory and then sorted by their paths. A path passes through few links, and
between two of them every directory is an entry of its own, so the search goes deep enough for all of them. Each path
is met once, since no directory lists a name twice, and the order of the paths leaves the order of listing no part.

* `Discovery.IsBelow`: a file below a directory, also through linked directories.
* `Discovery.mem_headersBelow_iff`: the search meets the files below the directory, and no others.
* `stage_alike`: staging does not depend on the listing.
* `Discovery.headers_canonical`: **all headers, each once, in the order of their paths, for every listing.**
-/

namespace TrapStub

open FileTree Staged

variable {tree t : FileTree} {directory : Path} {depth : Nat} {exclude : List Text} {front below names : List Text}
  {name : Text} {settings : Settings}

/-- A tree as a system keeps it: names that the system takes, a directory above everything, and one entry under each
list of names. -/
structure FileTree.IsOrderly (tree : FileTree) : Prop where
  proper : tree.Proper
  grounded : tree.Grounded
  unique : tree.IsUnique

/-! ## The search -/

namespace Discovery

/-- Behind the names `front`, which lead from the directory to one, through links as well, stands a file with this
name, or a link that leads to no directory. -/
structure IsBelow (tree : FileTree) (directory : Path) (front : List Text) (name : Text) : Prop where
  plain : ∀ n ∈ front, IsPlainName n
  file : ∃ names, tree.locate .target (directory.append ⟨[], front⟩) = .ok (.occupied names .directory) ∧
    ((∃ bytes, tree.entry? (names ++ [name]) = some (.file bytes)) ∨
      (∃ target, tree.entry? (names ++ [name]) = some (.link target)) ∧
        tree.isDirectory (directory.append ⟨[], front ++ [name]⟩) = false)

theorem isWanted_iff : isWanted exclude name = true ↔ Text.endsWith name ".h" = true ∧ name ∉ exclude := by
  unfold isWanted
  rw [Bool.and_eq_true, Bool.not_eq_true', List.contains_eq_mem, decide_eq_false_iff_not]

theorem isBelow_iff : IsBelow tree directory front name ↔ (∀ n ∈ front, IsPlainName n) ∧
    name ∈ tree.children (directory.append ⟨[], front⟩) ∧
    tree.hasDirectory (directory.append ⟨[], front⟩) name = false := by
  have hno : ∀ names, tree.locate .target (directory.append ⟨[], front⟩) = .ok (.occupied names .directory) →
      (tree.hasDirectory (directory.append ⟨[], front⟩) name = false ↔
        tree.entry? (names ++ [name]) ≠ some .directory ∧
          ∀ target, tree.entry? (names ++ [name]) = some (.link target) →
            tree.isDirectory (directory.append ⟨[], front ++ [name]⟩) = false) := by
    intro names hlocate
    rw [Bool.eq_false_iff, ne_eq, hasDirectory_of_locate hlocate, Path.append_append]
    simp only [not_or, not_and, forall_exists_index, Bool.not_eq_true, ne_eq]
  constructor
  · rintro ⟨hplain, names, hlocate, hfile⟩
    refine ⟨hplain, mem_children.2 ⟨names, hlocate, ?_⟩, (hno names hlocate).2 ?_⟩
    · rcases hfile with ⟨bytes, hentry⟩ | ⟨⟨target, hentry⟩, -⟩ <;> rw [hentry] <;> rfl
    · rcases hfile with ⟨bytes, hentry⟩ | ⟨⟨target, hentry⟩, hnone⟩
      · rw [hentry]
        exact ⟨nofun, nofun⟩
      · rw [hentry]
        exact ⟨nofun, fun _ _ => hnone⟩
  · rintro ⟨hplain, hchild, hnone⟩
    obtain ⟨names, hlocate, hsome⟩ := mem_children.1 hchild
    obtain ⟨entry, hentry⟩ := Option.isSome_iff_exists.1 hsome
    obtain ⟨hdirectory, hlink⟩ := (hno names hlocate).1 hnone
    refine ⟨hplain, names, hlocate, ?_⟩
    cases entry with
    | directory => exact absurd hentry hdirectory
    | file bytes => exact .inl ⟨bytes, hentry⟩
    | link target => exact .inr ⟨⟨target, hentry⟩, hlink target hentry⟩

theorem IsBelow.isDirectory (h : IsBelow tree directory front name) :
    tree.isDirectory (directory.append ⟨[], front⟩) = true := by
  obtain ⟨names, hlocate, -⟩ := h.file
  exact isDirectory_eq_true.2 ⟨names, hlocate⟩

theorem IsBelow.isName (h : IsBelow tree directory front name) (hproper : tree.Proper) : isName name = true :=
  isName_of_mem_children hproper (isBelow_iff.1 h).2.1

/-- **The search is deep enough** for every file below the directory. -/
theorem IsBelow.shallow (h : IsBelow tree directory front name) (hgrounded : tree.Grounded) :
    front.length < depthLimit tree := by
  obtain ⟨names, hlocate, -⟩ := h.file
  have hway : Leads tree .target linkLimit (if directory.isAbsolute then [] else tree.here) (directory.names ++ front)
      (.occupied names .directory) := (locate_eq_ok.1 hlocate).2
  have hshort := (hway.length_le hgrounded h.plain).1
  unfold depthLimit
  rw [Nat.succ_mul]
  unfold wayLimit at hshort
  omega

/-- What is wanted below the directory is met. -/
theorem IsBelow.mem_headersBelow (h : IsBelow tree directory (below ++ front) name)
    (hwanted : isWanted exclude name = true) (hdepth : front.length < depth) :
    below ++ front ++ [name] ∈ headersBelow tree exclude directory depth below := by
  induction depth generalizing below front with
  | zero => cases hdepth
  | succ depth ih =>
    rw [headersBelow]
    refine List.mem_flatMap.2 ?_
    cases front with
    | nil =>
      rw [List.append_nil] at h ⊢
      obtain ⟨-, hchild, hfile⟩ := isBelow_iff.1 h
      refine ⟨name, hchild, ?_⟩
      dsimp only
      rw [hfile, if_neg Bool.false_ne_true, if_pos hwanted]
      exact List.mem_singleton_self _
    | cons first front =>
      -- the first name is that of a directory, and the rest is met below it
      have hfirst := hasDirectory_before h.isDirectory (h.plain first (by simp))
      refine ⟨first, mem_children_of_hasDirectory hfirst, ?_⟩
      dsimp only
      rw [if_pos hfirst]
      have hassoc : below ++ first :: front = below ++ [first] ++ front := by simp
      rw [hassoc] at h ⊢
      exact ih h (Nat.lt_of_succ_lt_succ hdepth)

/-- What is met is wanted and below the directory. -/
theorem exists_isBelow (hproper : tree.Proper) (hbelow : ∀ n ∈ below, IsPlainName n)
    (h : names ∈ headersBelow tree exclude directory depth below) :
    ∃ front name, names = front ++ [name] ∧ IsBelow tree directory front name ∧ isWanted exclude name = true := by
  induction depth generalizing below with
  | zero => cases h
  | succ depth ih =>
    rw [headersBelow] at h
    obtain ⟨name, hname, h⟩ := List.mem_flatMap.1 h
    dsimp only at h
    split at h
    · refine ih (fun n hn => ?_) h
      rcases List.mem_append.1 hn with hn | hn
      · exact hbelow n hn
      · rw [List.mem_singleton.1 hn]
        exact isName_plain (isName_of_mem_children hproper hname)
    · rename_i hfile
      split at h
      · rename_i hwanted
        rw [List.mem_singleton] at h
        exact ⟨below, name, h, isBelow_iff.2 ⟨hbelow, hname, by simpa using hfile⟩, hwanted⟩
      · cases h

/-- **The search meets the files below the directory that are wanted**, and no others. -/
theorem mem_headersBelow_iff (h : tree.IsOrderly) : names ∈ headersBelow tree exclude directory (depthLimit tree) [] ↔
    ∃ front name, names = front ++ [name] ∧ IsBelow tree directory front name ∧ isWanted exclude name = true := by
  refine ⟨exists_isBelow h.proper (List.forall_mem_nil _), ?_⟩
  rintro ⟨front, name, rfl, hbelow, hwanted⟩
  have hroot : IsBelow tree directory ([] ++ front) name := hbelow
  exact hroot.mem_headersBelow hwanted (hbelow.shallow h.grounded)

/-- **Each header is met once.** -/
theorem headersBelow_nodup (hproper : tree.Proper) (hunique : tree.IsUnique) :
    (headersBelow tree exclude directory depth below).Nodup := by
  induction depth generalizing below with
  | zero => exact List.nodup_nil
  | succ depth ih =>
    -- what is met under a name goes on behind it
    have hbehind : ∀ name names, names ∈ (if tree.hasDirectory (directory.append ⟨[], below⟩) name then
          headersBelow tree exclude directory depth (below ++ [name])
        else if isWanted exclude name then [below ++ [name]] else []) → below ++ [name] <+: names := by
      intro name names h
      split at h
      · exact (mem_headersBelow hproper h).longer.1
      · split at h
        · rw [List.mem_singleton.1 h]
        · cases h
    rw [headersBelow]
    refine List.nodup_flatMap.2 ⟨fun name _ => ?_, (children_nodup hunique _).imp fun {a b} hne names ha hb => hne ?_⟩
    · dsimp only
      split
      · exact ih
      · split
        · exact List.nodup_singleton _
        · exact List.nodup_nil
    · have hlength : (below ++ [a]).length = (below ++ [b]).length := by simp
      have hfront := List.prefix_of_prefix_length_le (hbehind a names ha) (hbehind b names hb) hlength.le
      have heq := hfront.eq_of_length hlength
      exact (List.cons.inj (List.append_cancel_left heq)).1

/-- On another listing the search meets the same, in another order. -/
theorem headersBelow_relisted (h : tree.Relisted t) :
    (headersBelow t exclude directory depth below).Perm (headersBelow tree exclude directory depth below) := by
  induction depth generalizing below with
  | zero => exact .refl _
  | succ depth ih =>
    rw [headersBelow, headersBelow]
    refine (h.children _).flatMap fun name _ => ?_
    dsimp only
    rw [h.same.hasDirectory]
    split
    · exact ih
    · exact .refl _

/-! ## The order -/

theorem pairwise_sorted (l : List Text) : (l.mergeSort Text.le).Pairwise fun a b => Text.le a b = true := by
  have htrans : ∀ a b c : Text, Text.le a b = true → Text.le b c = true → Text.le a c = true :=
    fun _ _ _ => Text.le_trans
  have htotal : ∀ a b : Text, (Text.le a b || Text.le b a) = true := fun a b => by
    rw [Bool.or_eq_true]
    exact Text.le_total a b
  exact List.pairwise_mergeSort htrans htotal l

/-- Sorting forgets the order. -/
theorem mergeSort_eq_of_perm {l m : List Text} (h : l.Perm m) : l.mergeSort Text.le = m.mergeSort Text.le :=
  List.Perm.eq_of_pairwise (fun _ _ _ _ => Text.le_antisymm) (pairwise_sorted l) (pairwise_sorted m)
    ((List.mergeSort_perm l _).trans (h.trans (List.mergeSort_perm m _).symm))

theorem headers_relisted (h : tree.Relisted t) : headers t directory exclude = headers tree directory exclude := by
  unfold headers depthLimit
  rw [h.same.locate, h.entries.length_eq, mergeSort_eq_of_perm ((headersBelow_relisted h).map relativeText)]

theorem headers_eq (h : tree.isDirectory directory = true) : headers tree directory exclude =
    .ok (((headersBelow tree exclude directory (depthLimit tree) []).map relativeText).mergeSort Text.le) := by
  obtain ⟨names, hlocate⟩ := isDirectory_eq_true.1 h
  unfold headers
  rw [hlocate]

/-- The texts of the headers are as different as their names. -/
theorem relative_nodup (h : tree.IsOrderly) :
    ((headersBelow tree exclude directory depth []).map relativeText).Nodup := by
  have hread : ∀ names ∈ headersBelow tree exclude directory depth [], Path.namesOf (relativeText names) = names := by
    intro names hnames
    have hfound := mem_headersBelow h.proper hnames
    exact Path.namesOf_relativeText hfound.longer.2.symm (hfound.areNames (List.forall_mem_nil _))
  refine List.Nodup.map_on (fun a ha b hb heq => ?_) (headersBelow_nodup h.proper h.unique)
  rw [← hread a ha, ← hread b hb, heq]

end Discovery

/-! ## Staging -/

theorem EndsAlike.ofExcept {α : Type} (h : tree.Relisted t) (x : Except Fault α) :
    EndsAlike (Action.ofExcept x) (Action.ofExcept x) tree t := by
  cases x with
  | ok a => exact endsAlike_pure h a
  | error fault => exact endsAlike_throw h fault

theorem EndsAlike.ofFile {α : Type} {x y : FileAction α} (h : EndsAlike x y tree t) (fault : FileProblem → Fault) :
    EndsAlike (Action.ofFile fault x) (Action.ofFile fault y) tree t := by
  obtain ⟨hanswer, hstate⟩ := h
  unfold EndsAlike Action.ofFile
  rcases hx : x tree with ⟨a | a, u⟩ <;> rcases hy : y t with ⟨b | b, v⟩ <;> rw [hx, hy] at hanswer hstate <;>
    cases hanswer
  · exact ⟨rfl, hstate⟩
  · exact ⟨rfl, hstate⟩

theorem stageHeader_alike (h : tree.Relisted t) (root : List Text) (header : Text) :
    EndsAlike (stageHeader settings directory root header) (stageHeader settings directory root header) tree t := by
  unfold stageHeader
  refine EndsAlike.get_bind ?_
  have hread : ∀ p, readHeader t p = readHeader tree p := fun p => by
    unfold readHeader
    rw [h.same.read]
  rw [hread]
  split
  · exact endsAlike_throw h _
  · refine (EndsAlike.ofExcept h _).bind fun _ u v huv => (EndsAlike.ofExcept huv _).bind fun _ u v huv => ?_
    refine EndsAlike.bind (EndsAlike.ofFile ?_ _) fun _ u v huv => endsAlike_pure huv _
    exact (makeDirectories_alike huv _).bind fun _ u v huv => writeFile_alike huv _ _

theorem stageEmpty_alike (h : tree.Relisted t) (root : List Text) (value : Value) :
    EndsAlike (stageEmpty root value) (stageEmpty root value) tree t := by
  unfold stageEmpty
  refine (EndsAlike.ofExcept h _).bind fun text u v huv => EndsAlike.get_bind ?_
  rw [huv.same.isPresent]
  split
  · exact endsAlike_pure huv ()
  · exact (writeFile_alike huv _ _).ofFile _

theorem writeIncluder_alike (h : tree.Relisted t) (copy : Staged) :
    EndsAlike (writeIncluder copy) (writeIncluder copy) tree t := by
  unfold writeIncluder
  split
  · exact (writeFile_alike h _ _).ofFile _
  · exact ((writeFile_alike h _ _).ofFile _).bind fun _ u v huv => endsAlike_throw huv _

/-- **Staging does not depend on the listing**: the copy is the same, or the fault. -/
theorem stage_alike (h : tree.Relisted t) :
    EndsAlike (stage settings directory) (stage settings directory) tree t := by
  unfold stage
  refine EndsAlike.get_bind ?_
  rw [h.scratch]
  refine ((makeDirectories_alike h _).ofFile _).bind fun _ u v huv => EndsAlike.get_bind ?_
  rw [Discovery.headers_relisted huv]
  refine (EndsAlike.ofExcept huv _).bind fun found u v huv => ?_
  refine (EndsAlike.mapM (fun header _ _ h => stageHeader_alike h _ header) found huv).bind fun staged u v huv => ?_
  refine (EndsAlike.forM (fun value _ _ h => stageEmpty_alike h _ value) _ huv).bind fun _ u v huv => ?_
  exact (writeIncluder_alike huv _).bind fun _ u v huv => endsAlike_pure huv _

/-- **The staged headers are those that are found**, in the same order. -/
theorem stage_names {staged : Staged} (h : (stage settings directory tree).1 = .ok staged) :
    Discovery.headers tree.prepared directory (settings.exclude.filterMap Value.text?) = .ok staged.names := by
  have hstage : Ends (stage settings directory) tree (fun staged _ =>
      Discovery.headers tree.prepared directory (settings.exclude.filterMap Value.text?) = .ok staged.names)
      fun _ _ => True := by
    unfold stage
    refine Ends.get_bind ?_
    have hmade : Ends (makeDirectories (absolute (tree.scratch ++ [corpusName]))) tree (fun _ t => tree.prepared = t)
        fun _ _ => True := by
      refine (ends_anyhow _ tree).and_run.imp (fun _ t hrun => ?_) fun _ _ _ => trivial
      unfold FileTree.prepared
      rw [hrun.2]
    refine (Ends.ofFile hmade fun _ _ _ => trivial).bind fun _ t ht => Ends.get_bind ?_
    refine Ends.ofExcept_bind (fun found hfound => ?_) fun _ _ => trivial
    refine (Ends.mapM_map (stageHeader_name _) found t).bind fun staged u hu => ?_
    refine (ends_anyhow _ u).bind fun _ u _ => (ends_anyhow _ u).bind fun _ _ _ => ends_pure ?_
    rw [ht, hfound, ← hu]
    simp only [Staged.names, List.map_map]
    rfl
  rcases hrun : stage settings directory tree with ⟨fault | made, after⟩ <;> rw [hrun] at h <;> cases h
  exact hstage.answer hrun

namespace Discovery

/-- **All headers, each once, in the order of their paths.** The headers are the files below the directory whose
names end in `.h` and are not excluded. Their paths ascend, and are the same for every listing of the tree. So is the
copy of the headers, with what it includes and the directories it is searched in: its headers are those that are found
once the directory for temporary files is made. -/
theorem headers_canonical (h : tree.IsOrderly) (hdirectory : tree.isDirectory directory = true) (exclude : List Text) :
    ∃ found, headers tree directory exclude = .ok found ∧ found.Pairwise (fun a b => Text.le b a = false) ∧
      (∀ header, header ∈ found ↔ ∃ front name, IsBelow tree directory front name ∧ Text.endsWith name ".h" = true ∧
        name ∉ exclude ∧ header = relativeText (front ++ [name])) ∧
      ∀ t, tree.Relisted t → headers t directory exclude = .ok found ∧
        ∀ settings, (stage settings directory t).1 = (stage settings directory tree).1 ∧
          ∀ staged, (stage settings directory tree).1 = .ok staged →
            headers tree.prepared directory (settings.exclude.filterMap Value.text?) = .ok staged.names := by
  have hfound : headers tree directory exclude = .ok _ := headers_eq hdirectory
  have hnodup : ((headersBelow tree exclude directory (depthLimit tree) []).map relativeText).Nodup := relative_nodup h
  refine ⟨_, hfound, ?_, fun header => ?_, fun t ht => ⟨(headers_relisted ht).trans hfound, fun settings =>
    ⟨(stage_alike ht).1, fun staged => stage_names⟩⟩⟩
  · -- no path comes twice, so the order is strict
    have hdiffer := (List.mergeSort_perm _ Text.le).nodup_iff.2 hnodup
    refine ((pairwise_sorted _).and hdiffer).imp fun {a b} hab => ?_
    rw [Bool.eq_false_iff]
    exact fun hba => hab.2 (Text.le_antisymm hab.1 hba)
  · rw [List.mem_mergeSort, List.mem_map]
    constructor
    · rintro ⟨names, hnames, rfl⟩
      obtain ⟨front, name, rfl, hbelow, hwanted⟩ := (mem_headersBelow_iff h).1 hnames
      obtain ⟨hend, hexclude⟩ := isWanted_iff.1 hwanted
      exact ⟨front, name, hbelow, hend, hexclude, rfl⟩
    · rintro ⟨front, name, hbelow, hend, hexclude, rfl⟩
      exact ⟨_, (mem_headersBelow_iff h).2 ⟨front, name, rfl, hbelow, isWanted_iff.2 ⟨hend, hexclude⟩⟩, rfl⟩

/-- A directory `h` with a header inside another directory, one beside it, one behind a link, and one to exclude. -/
def mixedTree : FileTree :=
  { entries := [(["w"], .directory), (["w", "x"], .directory), (["w", "x", "c.h"], .file []), (["w", "h"], .directory),
      (["w", "h", "skip.h"], .file []), (["w", "h", "a"], .directory), (["w", "h", "a", "b.h"], .file []),
      (["w", "h", "far"], .link "../x"), (["w", "h", "a-b.h"], .file []), (["w", "h", "note"], .file [])]
    here := ["w"]
    scratch := ["t"] }

theorem mixedTree_orderly : mixedTree.IsOrderly :=
  ⟨proper_of_entries (by decide), grounded_of_entries (by decide), by decide⟩

theorem mixedTree_isDirectory : mixedTree.isDirectory (.ofText "h") = true := by cbv

/-- The header beside the directory comes first, though the search meets it last. -/
theorem mixedTree_headers : headers mixedTree (.ofText "h") ["skip.h"] = .ok ["a-b.h", "a/b.h", "far/c.h"] := by cbv

theorem mixedTree_canonical : mixedTree.IsOrderly ∧ mixedTree.isDirectory (.ofText "h") = true ∧
    ∀ t, mixedTree.Relisted t → headers t (.ofText "h") ["skip.h"] = .ok ["a-b.h", "a/b.h", "far/c.h"] := by
  refine ⟨mixedTree_orderly, mixedTree_isDirectory, ?_⟩
  obtain ⟨found, hfound, -, -, hlistings⟩ := headers_canonical mixedTree_orderly mixedTree_isDirectory ["skip.h"]
  rw [mixedTree_headers] at hfound
  cases hfound
  exact fun t ht => (hlistings t ht).1

end Discovery

end TrapStub
