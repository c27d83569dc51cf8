import TrapStub.Proofs.FileTree.Places
import TrapStub.Proofs.Text.Splitting

/-!
# The headers that are found

A header is found as a list of names: directories stand under all of its front parts, and no directory stands
under the whole. So no header is on the way to another one. Written as a text, its names are read back.

* `Path.names_relativeText`: the names of a relative path are read back.
* `Discovery.FoundBelow`: what is known of the names of a header.
* `Discovery.headers_ok`: **all headers are found that way**, and `Discovery.eq_of_isPrefix`: **none is on the
  way to another.**
-/

namespace TrapStub

open FileTree

namespace Path

variable {names : List Text}

theorem namesOf_relativeText (hne : names ≠ []) (h : AreNames names) :
    namesOf (Discovery.relativeText names) = names := by
  have hsplit : Text.splitOn (.char '/') (Text.join "/" names) = names :=
    Text.splitOn_join hne fun part hpart g hg => by
      have hslash := ((isName_fields (h part hpart)).2.2.2.1 g hg).1
      simpa [Glyph.is] using hslash
  unfold namesOf Discovery.relativeText
  rw [hsplit]
  refine List.filter_eq_self.2 fun name hname => ?_
  have hfields := isName_fields (h name hname)
  simp [hfields.1, hfields.2.1]

theorem rootOf_relativeText (hne : names ≠ []) (h : AreNames names) :
    rootOf (Discovery.relativeText names) = [] := by
  obtain ⟨first, rest, rfl⟩ := List.exists_cons_of_ne_nil hne
  have hfields := isName_fields (h first List.mem_cons_self)
  obtain ⟨g, more, rfl⟩ := List.exists_cons_of_ne_nil hfields.1
  obtain ⟨tail, htail⟩ := join_append "/" [g :: more] rest
  have hslash : g.is '/' = false := (hfields.2.2.2.1 g List.mem_cons_self).1
  have hrelative : Discovery.relativeText ((g :: more) :: rest) = g :: (more ++ tail) := htail.symm
  unfold rootOf
  rw [hrelative, List.takeWhile_cons_of_neg (by rw [hslash]; exact Bool.false_ne_true)]
  rfl

/-- **The names of a relative path are read back.** -/
theorem names_relativeText (hne : names ≠ []) (h : AreNames names) :
    ofText (Discovery.relativeText names) = ⟨[], names⟩ := by
  unfold ofText
  rw [namesOf_relativeText hne h, rootOf_relativeText hne h]

end Path

/-- What stands in the tree has names that the system takes. -/
def FileTree.Proper (tree : FileTree) : Prop := ∀ names entry, tree.entry? names = some entry → AreNames names

theorem FileTree.proper_of_entries {tree : FileTree} (h : ∀ e ∈ tree.entries, AreNames e.1) : tree.Proper := by
  intro names entry hentry
  unfold FileTree.entry? at hentry
  split at hentry
  · rename_i hempty
    rw [List.isEmpty_iff.1 hempty]
    exact List.forall_mem_nil _
  · obtain ⟨front, rest, hentries, -⟩ := List.lookup_eq_some_iff.1 hentry
    exact h (names, entry) (by rw [hentries]; exact List.mem_append_right _ List.mem_cons_self)

namespace Discovery

variable {tree : FileTree} {exclude : List Text} {directory : Path} {below names : List Text}

/-- What is known of the names of a header that is found below some names. -/
structure FoundBelow (tree : FileTree) (directory : Path) (below names : List Text) : Prop where
  longer : below <+: names ∧ below ≠ names
  areNames : AreNames below → AreNames names
  inside : ∀ front, below <+: front → front <+: names → front ≠ below → front ≠ names →
    tree.isDirectory (directory.append ⟨[], front⟩) = true
  file : tree.isDirectory (directory.append ⟨[], names⟩) = false

theorem entry?_of_mem {e : List Text × FileEntry} (h : e ∈ tree.entries) :
    ∃ entry, tree.entry? e.1 = some entry := by
  unfold FileTree.entry?
  split
  · exact ⟨_, rfl⟩
  · cases hlookup : tree.entries.lookup e.1 with
    | some entry => exact ⟨entry, rfl⟩
    | none => simpa using List.lookup_eq_none_iff.1 hlookup e h

theorem isName_of_mem_children (hproper : tree.Proper) {p : Path} {name : Text} (h : name ∈ tree.children p) :
    isName name = true := by
  unfold FileTree.children at h
  split at h
  · obtain ⟨⟨n, e⟩, hmem, hname⟩ := List.mem_filterMap.1 h
    dsimp only at hname
    split at hname
    · obtain ⟨entry, hentry⟩ := entry?_of_mem hmem
      exact hproper n entry hentry name (List.mem_of_getLast? hname)
    · cases hname
  · cases h

theorem isDirectory_of_mem_children {p : Path} {name : Text} (h : name ∈ tree.children p) :
    tree.isDirectory p = true := by
  unfold FileTree.children at h
  split at h
  · rename_i names hlocate
    exact isDirectory_eq_true.2 ⟨names, hlocate⟩
  · cases h

/-- Headers are found below directories only. -/
theorem isDirectory_of_mem_headersBelow {depth : Nat} (h : names ∈ headersBelow tree exclude directory depth below) :
    tree.isDirectory (directory.append ⟨[], below⟩) = true := by
  cases depth with
  | zero => cases h
  | succ depth =>
    rw [headersBelow] at h
    obtain ⟨name, hname, -⟩ := List.mem_flatMap.1 h
    exact isDirectory_of_mem_children hname

theorem mem_headersBelow (hproper : tree.Proper) {depth : Nat}
    (h : names ∈ headersBelow tree exclude directory depth below) : FoundBelow tree directory below names := by
  induction depth generalizing below with
  | zero => cases h
  | succ depth ih =>
    rw [headersBelow] at h
    obtain ⟨name, hname, h⟩ := List.mem_flatMap.1 h
    have hplain := isName_of_mem_children hproper hname
    have hconcat : below <+: below ++ [name] ∧ below ≠ below ++ [name] :=
      ⟨List.prefix_append _ _, by simp⟩
    have hnames : AreNames below → AreNames (below ++ [name]) := fun hbelow => hbelow.append (areNames_singleton hplain)
    dsimp only at h
    split at h
    · -- the header is found below a directory
      have hdirectory := isDirectory_of_mem_headersBelow h
      have hfound := ih h
      refine ⟨⟨hconcat.1.trans hfound.longer.1, ?_⟩, fun hbelow => hfound.areNames (hnames hbelow),
        fun front hfront hnames hne hne' => ?_, hfound.file⟩
      · rintro rfl
        have hlength := hfound.longer.1.length_le
        rw [List.length_append, List.length_singleton] at hlength
        omega
      · rcases List.prefix_or_prefix_of_prefix hnames hfound.longer.1 with hshort | hlong
        · rcases List.prefix_concat_iff.1 hshort with rfl | hshort
          · exact hdirectory
          · exact absurd (hfront.eq_of_length_le hshort.length_le).symm hne
        · by_cases heq : front = below ++ [name]
          · rw [heq]
            exact hdirectory
          · exact hfound.inside front hlong hnames heq hne'
    · rename_i hdirectory
      split at h
      · rw [List.mem_singleton] at h
        subst h
        refine ⟨hconcat, hnames, fun front hfront hnames hne hne' => ?_, ?_⟩
        · -- nothing is between the directory and the header
          rcases List.prefix_concat_iff.1 hnames with rfl | hshort
          · exact absurd rfl hne'
          · exact absurd (hfront.eq_of_length_le hshort.length_le).symm hne
        · rw [← Path.append_append, Bool.eq_false_iff]
          exact fun hfile => hdirectory
            (hasDirectory_of_isDirectory (isDirectory_of_mem_children hname) (isName_plain hplain) hfile)
      · cases h

/-- **No header is on the way to another one.** -/
theorem eq_of_isPrefix {a b : List Text} (ha : FoundBelow tree directory [] a) (hb : FoundBelow tree directory [] b)
    (h : a <+: b) : a = b := by
  by_contra hne
  have hdirectory := hb.inside a List.nil_prefix h ha.longer.2.symm hne
  rw [ha.file] at hdirectory
  cases hdirectory

/-- **The headers are found below the directory**, which is one. -/
theorem headers_ok {found : List Text} (hproper : tree.Proper) (h : headers tree directory exclude = .ok found) :
    directory.hasNull = false ∧ ∀ header ∈ found, Path.ofText header = ⟨[], Path.namesOf header⟩ ∧
      AreNames (Path.namesOf header) ∧ FoundBelow tree directory [] (Path.namesOf header) := by
  unfold headers at h
  split at h
  · rename_i hlocate
    cases h
    constructor
    · unfold FileTree.locate at hlocate
      split at hlocate
      · cases hlocate
      · rename_i hnull
        simpa using hnull
    · intro header hheader
      obtain ⟨names, hnames, rfl⟩ := List.mem_map.1 (List.mem_mergeSort.1 hheader)
      have hfound := mem_headersBelow hproper hnames
      have hareNames := hfound.areNames (List.forall_mem_nil _)
      rw [Path.names_relativeText hfound.longer.2.symm hareNames,
        Path.namesOf_relativeText hfound.longer.2.symm hareNames]
      exact ⟨rfl, hareNames, hfound⟩
  · cases h
  · cases h

end Discovery

end TrapStub
