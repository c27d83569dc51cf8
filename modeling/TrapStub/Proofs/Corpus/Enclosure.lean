import TrapStub.Proofs.Corpus.Discovery
import TrapStub.Proofs.FileTree.Growth

/-!
# Staging changes its directory only

The copy is made below the directory for temporary files. No link is there, so a path into it leads to what it
settles to, and stays inside if it does not step out. The names of a header never step out; those of an empty
header may, if the settings say so.

* `Path.Stays`: the path does not step out of a directory.
* `FileTree.Enclosed`: nothing is different outside of a directory.
* `stage_encloses`: **staging changes its directory only.**
* `FileTree.Enclosed.removeAll`: nothing is different when that directory is removed.
-/

namespace TrapStub

open FileTree Staged

variable {tree t : FileTree} {root names front rest start : List Text} {name text : Text} {entry : FileEntry}
  {settings : Settings} {directory : Path}

namespace Path

theorem settle_append (start front rest : List Text) :
    settle start (front ++ rest) = settle (settle start front) rest := by
  induction front generalizing start with
  | nil => rfl
  | cons name front ih => exact ih _

/-- Names without steps up settle behind where they start. -/
theorem settle_plain (start : List Text) (h : ∀ name ∈ names, name ≠ up) : settle start names = start ++ names := by
  induction names generalizing start with
  | nil => exact (List.append_nil start).symm
  | cons name names ih =>
    rw [settle, if_neg (h name List.mem_cons_self), ih _ fun n hn => h n (List.mem_cons_of_mem _ hn), List.append_assoc,
      List.singleton_append]

/-- On the way along the names from `start` every place is below `root`. -/
def Stays (root start names : List Text) : Prop := ∀ front, front <+: names → root <+: settle start front

instance (root start names : List Text) : Decidable (Stays root start names) :=
  decidable_of_iff (∀ front ∈ names.inits, root <+: settle start front) (by simp [Stays])

theorem Stays.of_isPrefix (h : Stays root start names) (hfront : front <+: names) : Stays root start front :=
  fun part hpart => h part (hpart.trans hfront)

/-- Without steps up the names stay below where they start. -/
theorem stays_plain (h : ∀ name ∈ names, name ≠ up) : Stays root root names := fun front hfront => by
  rw [settle_plain root fun n hn => h n (hfront.subset hn)]
  exact List.prefix_append _ _

theorem namesOf_plain (text : Text) : ∀ name ∈ namesOf text, name ≠ [] ∧ name ≠ here := by
  intro name hname
  have hcheck := (List.mem_filter.1 hname).2
  rw [Bool.and_eq_true, Bool.not_eq_true', List.isEmpty_eq_false_iff, bne_iff_ne] at hcheck
  exact hcheck

end Path

theorem FileTree.AreNames.plain (h : AreNames names) : ∀ name ∈ names, name ≠ [] ∧ name ≠ Path.here := fun name hname =>
  ⟨(isName_fields (h name hname)).1, (isName_fields (h name hname)).2.1⟩

theorem FileTree.AreNames.ne_up (h : AreNames names) : ∀ name ∈ names, name ≠ Path.up := fun name hname =>
  (isName_fields (h name hname)).2.2.1

namespace FileTree

/-- Below the names nothing is a link, and outside of them nothing is different. -/
structure Enclosed (root : List Text) (tree t : FileTree) : Prop where
  outside : ∀ names, ¬ root <+: names → t.entry? names = tree.entry? names
  links : ∀ names target, root <+: names → t.entry? names ≠ some (.link target)
  here : t.here = tree.here
  scratch : t.scratch = tree.scratch

/-- The directory for temporary files: its place is free, and a directory is above it. -/
structure IsFree (tree : FileTree) (root : List Text) : Prop where
  areNames : AreNames root
  above : tree.Through root.dropLast
  fresh : ∀ names, root <+: names → tree.entry? names = none

theorem IsFree.ne_nil (h : tree.IsFree root) : root ≠ [] := by
  rintro rfl
  have hroot := h.fresh [] List.prefix_rfl
  cases hroot

theorem IsFree.enclosed (h : tree.IsFree root) : Enclosed root tree tree :=
  ⟨fun _ _ => rfl, fun names target hnames => by rw [h.fresh names hnames]; nofun, rfl, rfl⟩

theorem Enclosed.put (h : Enclosed root tree t) (hroot : root ≠ []) (hnames : root <+: names)
    (hentry : ∀ target, entry ≠ .link target) : Enclosed root tree (t.put names entry) := by
  have hne : names ≠ [] := by
    rintro rfl
    exact hroot (List.prefix_nil.1 hnames)
  refine ⟨fun other hother => ?_, fun other target hother => ?_, (put_here _).trans h.here,
    (put_scratch _).trans h.scratch⟩
  · rw [put_entry_of_ne hne, h.outside other hother]
    rintro rfl
    exact hother hnames
  · rw [put_entry hne]
    split
    · exact fun heq => hentry target (Option.some.inj heq)
    · exact h.links other target hother

/-- A front part of names that go on below the root is above the root or goes on below it. -/
theorem isPrefix_below_cases (hroot : root ≠ []) (h : front <+: root ++ rest) :
    front <+: root.dropLast ∨ ∃ more, more <+: rest ∧ front = root ++ more := by
  rcases List.prefix_or_prefix_of_prefix h (List.prefix_append root rest) with hfront | ⟨more, rfl⟩
  · obtain ⟨above, name, rfl⟩ := (List.eq_nil_or_concat' root).resolve_left hroot
    rcases List.prefix_concat_iff.1 hfront with rfl | hfront
    · exact .inr ⟨[], List.nil_prefix, (List.append_nil _).symm⟩
    · rw [List.dropLast_concat]
      exact .inl hfront
  · exact .inr ⟨more, (List.prefix_append_right_inj root).1 h, rfl⟩

variable {purpose : Purpose} {place : Place}

/-- **A path below the root leads to what it settles to.** -/
theorem Enclosed.settled (h : Enclosed root tree t) (hfree : tree.IsFree root)
    (hnames : ∀ name ∈ rest, name ≠ [] ∧ name ≠ Path.here) (hstays : Path.Stays root root rest)
    (hfront : front <+: root ++ rest) (hplace : t.locate purpose (absolute front) = .ok place) :
    place.names = Path.settle [] front := by
  have hsettle : ∀ more, Path.settle [] (root ++ more) = Path.settle root more := fun more => by
    rw [Path.settle_append, Path.settle_plain [] hfree.areNames.ne_up, List.nil_append]
  have hway : Leads t purpose linkLimit [] front place := (locate_eq_ok.1 hplace).2
  refine hway.settled (fun name hname => ?_) fun part hpart target hlink => ?_
  · rcases List.mem_append.1 (hfront.subset hname) with hname | hname
    · exact hfree.areNames.plain name hname
    · exact hnames name hname
  · rcases isPrefix_below_cases hfree.ne_nil (hpart.trans hfront) with habove | ⟨more, hmore, rfl⟩
    · -- above the root stand the directories that were there before
      have hnames : ∀ name ∈ part, name ≠ Path.up := fun n hn =>
        hfree.areNames.ne_up n (List.dropLast_subset _ (habove.subset hn))
      rw [Path.settle_plain [] hnames, List.nil_append, h.outside _ ?_, hfree.above part habove] at hlink
      · cases hlink
      · intro hbelow
        have hlength := (hbelow.trans habove).length_le
        have hpos := List.length_pos_iff.2 hfree.ne_nil
        rw [List.length_dropLast] at hlength
        omega
    · rw [hsettle] at hlink
      exact h.links _ target (hstays more hmore) hlink

/-- A path below the root is followed to a free place below it. -/
theorem Enclosed.vacant (h : Enclosed root tree t) (hfree : tree.IsFree root)
    (hnames : ∀ name ∈ rest, name ≠ [] ∧ name ≠ Path.here) (hstays : Path.Stays root root rest)
    (hfront : front <+: root ++ rest) (hplace : t.locate purpose (absolute front) = .ok (.vacant names)) :
    names = Path.settle [] front ∧ root <+: names := by
  have hsettled : names = Path.settle [] front := h.settled hfree hnames hstays hfront hplace
  refine ⟨hsettled, ?_⟩
  rcases isPrefix_below_cases hfree.ne_nil hfront with habove | ⟨more, hmore, rfl⟩
  · have hup : ∀ name ∈ front, name ≠ Path.up := fun n hn =>
      hfree.areNames.ne_up n (List.dropLast_subset _ (habove.subset hn))
    rw [Path.settle_plain [] hup, List.nil_append] at hsettled
    by_contra hout
    have hnone := (entry?_of_vacant hplace).1
    rw [h.outside names hout, hsettled, hfree.above front habove] at hnone
    cases hnone
  · rw [hsettled, Path.settle_append, Path.settle_plain [] hfree.areNames.ne_up, List.nil_append]
    exact hstays more hmore

theorem Enclosed.filePlace (h : Enclosed root tree t) (hfree : tree.IsFree root)
    (hnames : ∀ name ∈ rest, name ≠ [] ∧ name ≠ Path.here) (hstays : Path.Stays root root rest)
    (hplace : t.filePlace (absolute (root ++ rest)) = .ok names) : root <+: names := by
  obtain ⟨place, hlocate, rfl, -⟩ := filePlace_eq_ok hplace
  rw [h.settled hfree hnames hstays List.prefix_rfl hlocate, Path.settle_append,
    Path.settle_plain [] hfree.areNames.ne_up, List.nil_append]
  exact hstays rest List.prefix_rfl

/-- **Directories below the root** change nothing outside. -/
theorem Enclosed.makeDirectories (h : Enclosed root tree t) (hfree : tree.IsFree root)
    (hnames : ∀ name ∈ rest, name ≠ [] ∧ name ≠ Path.here) (hstays : Path.Stays root root rest) :
    Ends (makeDirectories (absolute (root ++ rest))) t (fun _ u => Enclosed root tree u)
      fun _ u => Enclosed root tree u :=
  makeDirectories_keeps _ t h fun _ hfront _ _ hu hplace =>
    hu.put hfree.ne_nil (hu.vacant hfree hnames hstays hfront (directoryPlace_eq_ok hplace)).2 nofun

/-- **A file below the root** changes nothing outside. -/
theorem Enclosed.writeFile (h : Enclosed root tree t) (hfree : tree.IsFree root)
    (hnames : ∀ name ∈ rest, name ≠ [] ∧ name ≠ Path.here) (hstays : Path.Stays root root rest) (bytes : List UInt8) :
    Ends (writeFile (absolute (root ++ rest)) bytes) t (fun _ u => Enclosed root tree u)
      fun _ u => Enclosed root tree u := by
  refine (writeFile_keeps _ bytes t).imp (fun _ u hu => ?_) fun _ u hu => hu ▸ h
  obtain ⟨names, hplace, rfl⟩ := hu
  exact h.put hfree.ne_nil (h.filePlace hfree hnames hstays hplace) nofun

/-- **Nothing is different** when the directory is removed. -/
theorem Enclosed.removeAll (h : Enclosed root tree t) (hfree : tree.IsFree root) : tree.Same (t.removeAll root) := by
  refine ⟨fun names => ?_, h.here, h.scratch⟩
  have hlookup : ∀ entries : List (List Text × FileEntry),
      (entries.filter fun e => !root.isPrefixOf e.1).lookup names =
        if root <+: names then none else entries.lookup names := by
    intro entries
    induction entries with
    | nil => simp
    | cons e entries ih =>
      obtain ⟨n, e⟩ := e
      rw [List.filter_cons, List.lookup_cons]
      by_cases hn : names = n
      · subst hn
        by_cases hbelow : root <+: names
        · have hcheck : root.isPrefixOf names = true := List.isPrefixOf_iff_prefix.2 hbelow
          rw [if_neg (by simp [hcheck]), ih, if_pos hbelow, if_pos hbelow]
        · have hcheck : root.isPrefixOf names = false := by
            rwa [Bool.eq_false_iff, ne_eq, List.isPrefixOf_iff_prefix]
          rw [if_pos (by simp [hcheck]), List.lookup_cons, if_neg hbelow, beq_self_eq_true]
      · have hne : (names == n) = false := by simpa using hn
        rw [hne]
        split
        · rw [List.lookup_cons, hne, ih]
        · exact ih
  cases names with
  | nil => rfl
  | cons name names =>
    change ((t.entries.filter fun e => !root.isPrefixOf e.1).lookup (name :: names)) = _
    rw [hlookup]
    split
    · rename_i hbelow
      exact (hfree.fresh _ hbelow).symm
    · rename_i hout
      exact h.outside _ hout

theorem Proper.put (h : t.Proper) (hnames : AreNames names) (hne : names ≠ []) : (t.put names entry).Proper := by
  intro other found hfound
  rw [put_entry hne] at hfound
  split at hfound
  · rename_i heq
    exact heq ▸ hnames
  · exact h other found hfound

end FileTree

/-! ## Staging -/

/-- The empty header is no way out of the directory for temporary files. -/
structure StaysInside (root : List Text) (text : Text) : Prop where
  relative : (Path.ofText text).isAbsolute = false
  stays : Path.Stays root root (corpusName :: Path.namesOf text)

instance (root : List Text) (text : Text) : Decidable (StaysInside root text) :=
  decidable_of_iff ((Path.ofText text).isAbsolute = false ∧ Path.Stays root root (corpusName :: Path.namesOf text))
    ⟨fun h => ⟨h.1, h.2⟩, fun h => ⟨h.relative, h.stays⟩⟩

theorem corpus_plain (h : ∀ name ∈ names, name ≠ [] ∧ name ≠ Path.here) :
    ∀ name ∈ corpusName :: names, name ≠ [] ∧ name ≠ Path.here :=
  List.forall_mem_cons.2 ⟨by decide, h⟩

/-- A header is put below the root. -/
theorem stageHeader_encloses (h : Enclosed root tree t) (hfree : tree.IsFree root) {header : Text}
    (hpath : Path.ofText header = ⟨[], names⟩) (hnames : AreNames names) (hne : names ≠ []) :
    Ends (stageHeader settings directory root header) t (fun _ u => Enclosed root tree u)
      fun _ u => Enclosed root tree u := by
  have htarget : (absolute (root ++ [corpusName])).append (Path.ofText header) =
      absolute (root ++ corpusName :: names) := by
    rw [hpath]
    exact congrArg (Path.mk _) (List.append_assoc _ _ _)
  have hparent : (absolute (root ++ corpusName :: names)).parent = absolute (root ++ corpusName :: names.dropLast) := by
    obtain ⟨front, name, rfl⟩ := (List.eq_nil_or_concat' names).resolve_left hne
    rw [Path.parent, absolute, List.dropLast_concat, ← List.cons_append, ← List.append_assoc, List.dropLast_concat]
    rfl
  have hup : ∀ name ∈ corpusName :: names, name ≠ Path.up := List.forall_mem_cons.2 ⟨by decide, hnames.ne_up⟩
  have hfront : corpusName :: names.dropLast <+: corpusName :: names :=
    (List.prefix_cons_inj _).2 (List.dropLast_prefix names)
  unfold stageHeader
  refine Ends.get_bind ?_
  cases readHeader t (directory.append ⟨[], (Path.ofText header).names⟩) with
  | error problem => exact ends_throw h
  | ok text =>
    refine Ends.ofExcept_bind (fun _ _ => ?_) fun _ _ => h
    refine Ends.ofExcept_bind (fun replaced _ => ?_) fun _ _ => h
    dsimp only
    rw [htarget, hparent]
    have hplain := corpus_plain hnames.plain
    have hmade := h.makeDirectories hfree (fun n hn => hplain n (hfront.subset hn))
      ((Path.stays_plain hup).of_isPrefix hfront)
    exact (Ends.ofFile (hmade.bind fun _ u hu => hu.writeFile hfree hplain (Path.stays_plain hup) _) fun _ _ => id).bind
      fun _ _ hu => ends_pure hu

/-- An empty header that is no way out is put below the root. -/
theorem stageEmpty_encloses (h : Enclosed root tree t) (hfree : tree.IsFree root) {value : Value}
    (hinside : ∀ text, value = .text text → StaysInside root text) :
    Ends (stageEmpty root value) t (fun _ u => Enclosed root tree u) fun _ u => Enclosed root tree u := by
  unfold stageEmpty
  refine Ends.ofExcept_bind (fun text htext => ?_) fun _ _ => h
  have hvalue : value = .text text := by
    cases value with
    | text found => rw [Except.ok.inj htext]
    | dropped => cases htext
  obtain ⟨hrelative, hstays⟩ := hinside text hvalue
  have htarget : (absolute (root ++ [corpusName])).append (Path.ofText text) =
      absolute (root ++ corpusName :: Path.namesOf text) := by
    unfold Path.append
    rw [hrelative]
    exact congrArg (Path.mk _) (List.append_assoc _ _ _)
  refine Ends.get_bind ?_
  rw [htarget]
  split
  · exact ends_pure h
  · exact Ends.ofFile (h.writeFile hfree (corpus_plain (Path.namesOf_plain text)) hstays _) fun _ _ => id

/-- The file that includes the headers is put below the root. -/
theorem writeIncluder_encloses {copy : Staged} (h : Enclosed copy.root tree t) (hfree : tree.IsFree copy.root) :
    Ends (writeIncluder copy) t (fun _ u => Enclosed copy.root tree u) fun _ u => Enclosed copy.root tree u := by
  have hincluder : AreNames [includerName] := by decide
  have hwrite := h.writeFile hfree hincluder.plain (Path.stays_plain hincluder.ne_up)
  unfold writeIncluder
  split
  · exact Ends.ofFile (hwrite _) fun _ _ => id
  · exact (Ends.ofFile (hwrite _) fun _ _ => id).bind fun _ u hu => ends_throw hu

/-- **Staging changes its directory only**, whether it ends well or not. -/
theorem stage_encloses (hproper : tree.Proper) (hfree : tree.IsFree tree.scratch)
    (hinside : ∀ text, .text text ∈ settings.emptyHeaders → StaysInside tree.scratch text) :
    Ends (stage settings directory) tree (fun _ u => Enclosed tree.scratch tree u)
      fun _ u => Enclosed tree.scratch tree u := by
  have hcorpus : AreNames [corpusName] := by decide
  have hmade : Ends (makeDirectories (absolute (tree.scratch ++ [corpusName]))) tree
      (fun _ t => Enclosed tree.scratch tree t ∧ t.Proper) fun _ t => Enclosed tree.scratch tree t ∧ t.Proper := by
    refine makeDirectories_keeps _ tree ⟨hfree.enclosed, hproper⟩ fun front hfront t names ht hplace => ?_
    have hplace := directoryPlace_eq_ok hplace
    obtain ⟨hsettled, hbelow⟩ := ht.1.vacant hfree hcorpus.plain (Path.stays_plain hcorpus.ne_up) hfront hplace
    have hnames : AreNames front := fun n hn => (hfree.areNames.append hcorpus) n (hfront.subset hn)
    rw [Path.settle_plain [] hnames.ne_up, List.nil_append] at hsettled
    refine ⟨ht.1.put hfree.ne_nil hbelow nofun, ht.2.put (hsettled ▸ hnames) ?_⟩
    rintro rfl
    exact hfree.ne_nil (List.prefix_nil.1 hbelow)
  unfold stage
  refine Ends.get_bind ?_
  refine (Ends.ofFile hmade fun _ _ ht => ht.1).bind fun _ t ⟨ht, htproper⟩ => ?_
  refine Ends.get_bind ?_
  refine Ends.ofExcept_bind (fun found hfound => ?_) fun _ _ => ht
  obtain ⟨-, hheaders⟩ := Discovery.headers_ok htproper hfound
  have hstaged : Ends (found.mapM (stageHeader settings directory tree.scratch)) t
      (fun _ u => Enclosed tree.scratch tree u) fun _ u => Enclosed tree.scratch tree u := by
    refine Ends.mapM (I := fun _ u => Enclosed tree.scratch tree u) found ht fun done header rest hsplit u hu => ?_
    obtain ⟨hpath, hnames, hbelow⟩ := hheaders header (hsplit ▸ List.mem_append_right _ List.mem_cons_self)
    exact stageHeader_encloses hu hfree hpath hnames hbelow.longer.2.symm
  refine hstaged.bind fun staged u hu => ?_
  have hempties : Ends (settings.emptyHeaders.forM (stageEmpty tree.scratch)) u
      (fun _ v => Enclosed tree.scratch tree v) fun _ v => Enclosed tree.scratch tree v :=
    Ends.forM (I := Enclosed tree.scratch tree) _ hu fun value hvalue v hv =>
      stageEmpty_encloses hv hfree fun text htext => hinside text (htext ▸ hvalue)
  refine hempties.bind fun _ v hv => ?_
  exact (writeIncluder_encloses hv hfree).bind fun _ _ hw => ends_pure hw

end TrapStub
