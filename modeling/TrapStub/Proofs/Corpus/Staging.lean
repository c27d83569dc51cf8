import TrapStub.Proofs.FileTree.Changes
import TrapStub.Proofs.Corpus.Discovery
import TrapStub.Proofs.Mark.Spans
import TrapStub.Proofs.Survey.Failures

/-!
# Staging ends well, or with a report

The staged copy is made in a directory where nothing was before. No header is on the way to another one, so
each has its place in the copy, and so has an empty header whose directory is that of a header. The file that
includes them can be written if their names are UTF-8. What is left to go wrong is reported: the directory is not
there, a header cannot be read, or an annotation in it is incomplete.

* `Stageable`: what the copy needs of the settings and of the file tree.
* `Copied`, `Copied.store`: what is in the copy after some headers, and that there is room for one more.
* `Filled`, `stageEmpty_ends`: the same for empty headers.
* `Staged.isPlain_includer`, `writeIncluder_ends`: the file that includes the headers.
* `stage_ends`: **staging answers, or fails with a report.**
-/

namespace TrapStub

open FileTree Staged

variable {settings : Settings} {directory : Path} {tree t : FileTree} {root names front rest : List Text}
  {done found : List (List Text)} {name header : Text}

/-- A front part of joined names is one of the first names, or goes on behind them. -/
theorem isPrefix_append_cases {a b : List Text} (h : front <+: a ++ b) :
    front <+: a ∨ ∃ rest, rest ≠ [] ∧ front = a ++ rest ∧ rest <+: b := by
  rcases List.prefix_or_prefix_of_prefix h (List.prefix_append a b) with hfront | ⟨rest, rfl⟩
  · exact Or.inl hfront
  · cases rest with
    | nil => exact Or.inl (by rw [List.append_nil])
    | cons name rest => exact Or.inr ⟨name :: rest, List.cons_ne_nil _ _, rfl, (List.prefix_append_right_inj a).1 h⟩

/-- The file that includes the headers is not in the copy. -/
theorem includer_ne (root rest : List Text) : root ++ [includerName] ≠ root ++ [corpusName] ++ rest := by
  rw [List.append_assoc]
  intro h
  have hhead := List.append_cancel_left h
  rw [List.singleton_append] at hhead
  exact absurd (List.cons.inj hhead).1 (by decide)

/-- The copy holds the headers so far, and else nothing but the directories they are in. -/
structure Copied (root : List Text) (done : List (List Text)) (tree : FileTree) : Prop where
  base : tree.Through (root ++ [corpusName])
  above : ∀ names ∈ done, tree.Through (root ++ [corpusName] ++ names.dropLast)
  inner : ∀ rest entry, rest ≠ [] → tree.entry? (root ++ [corpusName] ++ rest) = some entry →
    (entry = .directory ∧ ∃ names ∈ done, rest <+: names ∧ rest ≠ names) ∨
      ((∃ bytes, entry = .file bytes) ∧ rest ∈ done)
  includer : tree.entry? (root ++ [includerName]) = none

namespace Copied

/-- The way to a header is clear when no header in the copy is on it. -/
theorem clear (h : Copied root done tree)
    (hapart : ∀ other ∈ done, other <+: front ++ [name] → other = front ++ [name]) :
    tree.Clear (root ++ [corpusName] ++ front) := by
  intro part hpart
  rcases isPrefix_append_cases hpart with hpart | ⟨rest, hne, rfl, hrest⟩
  · exact Or.inl (h.base part hpart)
  · cases hentry : tree.entry? (root ++ [corpusName] ++ rest) with
    | none => exact Or.inr rfl
    | some entry =>
      rcases h.inner rest entry hne hentry with ⟨rfl, -⟩ | ⟨-, hdone⟩
      · exact Or.inl rfl
      · -- a header on the way would be the whole
        have hwhole := hapart rest hdone (hrest.trans (List.prefix_append _ _))
        rw [hwhole] at hrest
        exact absurd hrest not_concat_isPrefix

/-- What stands in the place of a header that is apart from the others is a file at most. -/
theorem file_place (h : Copied root done tree)
    (hapart : ∀ other ∈ done, front ++ [name] <+: other → other = front ++ [name]) :
    ∀ entry, tree.entry? (root ++ [corpusName] ++ (front ++ [name])) = some entry →
      ∃ bytes, entry = .file bytes := by
  intro entry hentry
  rcases h.inner _ entry (by simp) hentry with ⟨-, other, hother, hprefixed, hdiffer⟩ | ⟨hbytes, -⟩
  · exact absurd (hapart other hother hprefixed).symm hdiffer
  · exact hbytes

/-- The copy with the directories above one more header, and with its file. -/
theorem concat (h : Copied root done tree) (ht : tree.Made (root ++ [corpusName] ++ front) t)
    (hfree : t.entry? (root ++ [corpusName] ++ (front ++ [name])) ≠ some .directory) (bytes : List UInt8) :
    Copied root (done ++ [front ++ [name]]) (t.put (root ++ [corpusName] ++ (front ++ [name])) (.file bytes)) := by
  have hne : root ++ [corpusName] ++ (front ++ [name]) ≠ [] := by simp
  have hbase : t.Through (root ++ [corpusName]) := ht.through_of h.base
  refine ⟨hbase.put hne hfree _, fun other hother => ?_, fun rest entry hrest hentry => ?_, ?_⟩
  · rcases List.mem_append.1 hother with hother | hother
    · exact (ht.through_of (h.above other hother)).put hne hfree _
    · rw [List.mem_singleton.1 hother, List.dropLast_concat]
      exact ht.through.put hne hfree _
  · rw [put_entry hne] at hentry
    split at hentry
    · rename_i heq
      cases hentry
      exact Or.inr ⟨⟨bytes, rfl⟩, List.mem_append_right _ (List.mem_singleton.2 (List.append_cancel_left heq))⟩
    · by_cases hway : rest <+: front
      · -- one of the directories above the header
        rw [ht.through _ ((List.prefix_append_right_inj _).2 hway)] at hentry
        cases hentry
        refine Or.inl ⟨rfl, front ++ [name], List.mem_append_right _ (List.mem_singleton_self _),
          hway.trans (List.prefix_append _ _), ?_⟩
        rintro rfl
        exact not_concat_isPrefix hway
      · rw [ht.others _ fun h => hway ((List.prefix_append_right_inj _).1 h)] at hentry
        rcases h.inner rest entry hrest hentry with ⟨rfl, other, hother, hprefixed⟩ | ⟨hbytes, hdone⟩
        · exact Or.inl ⟨rfl, other, List.mem_append_left _ hother, hprefixed⟩
        · exact Or.inr ⟨hbytes, List.mem_append_left _ hdone⟩
  · rw [put_entry_of_ne hne _ (includer_ne root _), ht.others _ ?_]
    · exact h.includer
    · intro hway
      rcases isPrefix_append_cases (a := root ++ [corpusName]) hway with hway | ⟨rest, -, heq, -⟩
      · refine includer_ne root [] ?_
        rw [List.append_nil]
        exact hway.eq_of_length_le (by simp)
      · exact includer_ne root rest heq

/-- **There is room for one more header** that is not on the way to another, and no other on its way. -/
theorem store (h : Copied root done tree) (hnames : AreNames (root ++ [corpusName] ++ (front ++ [name])))
    (hfits : Fits (root ++ [corpusName] ++ (front ++ [name])))
    (hapart : ∀ other ∈ done, (other <+: front ++ [name] → other = front ++ [name]) ∧
      (front ++ [name] <+: other → other = front ++ [name])) (bytes : List UInt8) :
    Ends (do
      makeDirectories (absolute (root ++ [corpusName] ++ (front ++ [name]))).parent
      writeFile (absolute (root ++ [corpusName] ++ (front ++ [name]))) bytes) tree
      (fun _ t => Copied root (done ++ [front ++ [name]]) t) fun _ _ => False := by
  have hconcat : root ++ [corpusName] ++ (front ++ [name]) = root ++ [corpusName] ++ front ++ [name] :=
    (List.append_assoc _ _ _).symm
  have hparent : (absolute (root ++ [corpusName] ++ (front ++ [name]))).parent =
      absolute (root ++ [corpusName] ++ front) := by
    unfold Path.parent absolute
    rw [hconcat, List.dropLast_concat]
  have hdirectory : AreNames (root ++ [corpusName] ++ front) := fun n hn =>
    hnames n (hconcat ▸ List.mem_append_left _ hn)
  have hdirectoryFits := hfits.of_isPrefix (hconcat ▸ List.prefix_append (root ++ [corpusName] ++ front) [name])
  rw [hparent]
  refine (makeDirectories_ends hdirectory hdirectoryFits (h.clear fun other hother => (hapart other hother).1)).bind
    fun _ t ht => ?_
  have hfile := h.file_place fun other hother => (hapart other hother).2
  rw [← ht.others _ (hconcat ▸ not_concat_isPrefix)] at hfile
  have hfree : t.entry? (root ++ [corpusName] ++ (front ++ [name])) ≠ some .directory := by
    intro hentry
    obtain ⟨bytes, hbytes⟩ := hfile _ hentry
    cases hbytes
  have hwrite := writeFile_ends (hconcat ▸ hnames) (hconcat ▸ hfits) ht.through (hconcat ▸ hfile) bytes
  rw [← hconcat] at hwrite
  refine hwrite.imp (fun _ u hu => ?_) fun _ _ => id
  rw [hu]
  exact h.concat ht hfree bytes

end Copied

/-! ## Headers -/

/-- **A header is staged**, or reported: it is not readable, or an annotation in it is incomplete. -/
theorem stageHeader_ends {marker : Text} (hmarker : settings.marker = .text marker) (h : Copied root done tree)
    (hheader : Path.ofText header = ⟨[], names⟩) (hne : names ≠ [])
    (hnames : AreNames (root ++ [corpusName] ++ names))
    (hfits : Fits (root ++ [corpusName] ++ names))
    (hapart : ∀ other ∈ done, (other <+: names → other = names) ∧ (names <+: other → other = names)) :
    Ends (stageHeader settings directory root header) tree (fun _ t => Copied root (done ++ [names]) t)
      fun fault _ => fault.IsReport := by
  obtain ⟨front, name, rfl⟩ := (List.eq_nil_or_concat' names).resolve_left hne
  have htarget : (absolute (root ++ [corpusName])).append (Path.ofText header) =
      absolute (root ++ [corpusName] ++ (front ++ [name])) := by rw [hheader]; rfl
  have hrequire : requireText settings.marker = .ok marker := by rw [hmarker]; rfl
  unfold stageHeader
  refine Ends.get_bind ?_
  cases readHeader tree (directory.append ⟨[], (Path.ofText header).names⟩) with
  | error problem => exact ends_throw ⟨_, rfl⟩
  | ok text =>
    refine Ends.ofExcept_bind (fun m _ => ?_) fun fault hfault => ?_
    · refine Ends.ofExcept_bind (fun r _ => ?_) fun fault hfault => (Mark.replace_fault hfault).isReport
      rw [htarget]
      exact (Ends.ofFile (h.store hnames hfits hapart _) fun _ _ => False.elim).bind fun _ _ ht => ends_pure ht
    · rw [hrequire] at hfault
      cases hfault

/-- **The headers are staged** one after the other: none is on the way to another. -/
theorem stageHeaders_ends {marker : Text} (hmarker : settings.marker = .text marker)
    (hroot : AreNames (root ++ [corpusName])) {headers : List Text} (h : Copied root [] t)
    (hheaders : ∀ header ∈ headers, Path.ofText header = ⟨[], Path.namesOf header⟩ ∧
      AreNames (Path.namesOf header) ∧ Discovery.FoundBelow tree directory [] (Path.namesOf header))
    (hfits : ∀ header ∈ headers, Fits (root ++ [corpusName] ++ Path.namesOf header)) :
    Ends (headers.mapM (stageHeader settings directory root)) t
      (fun _ u => Copied root (headers.map Path.namesOf) u) fun fault _ => fault.IsReport := by
  refine Ends.mapM (I := fun done u => Copied root (done.map Path.namesOf) u) headers h
    fun done header rest hsplit u hu => ?_
  have hheader : header ∈ headers := hsplit ▸ List.mem_append_right _ List.mem_cons_self
  obtain ⟨hpath, hnames, hbelow⟩ := hheaders header hheader
  have hapart : ∀ other ∈ done.map Path.namesOf, (other <+: Path.namesOf header → other = Path.namesOf header) ∧
      (Path.namesOf header <+: other → other = Path.namesOf header) := by
    intro other hother
    obtain ⟨earlier, hearlier, rfl⟩ := List.mem_map.1 hother
    have hother := (hheaders earlier (hsplit ▸ List.mem_append_left _ hearlier)).2.2
    exact ⟨Discovery.eq_of_isPrefix hother hbelow, fun h => (Discovery.eq_of_isPrefix hbelow hother h).symm⟩
  rw [List.map_append, List.map_singleton]
  exact stageHeader_ends hmarker hu hpath hbelow.longer.2.symm (hroot.append hnames) (hfits header hheader) hapart

/-- A header is staged under its name. -/
theorem stageHeader_name (root : List Text) (header : Text) (tree : FileTree) :
    Ends (stageHeader settings directory root header) tree (fun staged _ => staged.1.1 = header) fun _ _ => True := by
  unfold stageHeader
  refine Ends.get_bind ?_
  split
  · exact ends_throw trivial
  · refine (ends_anyhow _ _).bind fun _ u _ => (ends_anyhow _ _).bind fun _ u _ => ?_
    exact (ends_anyhow _ _).bind fun _ _ _ => ends_pure rfl

/-! ## Empty headers -/

/-- The copy with all headers, and perhaps with empty ones. -/
structure Filled (root : List Text) (found : List (List Text)) (tree : FileTree) : Prop where
  base : tree.Through (root ++ [corpusName])
  above : ∀ names ∈ found, tree.Through (root ++ [corpusName] ++ names.dropLast)
  links : ∀ rest target, tree.entry? (root ++ [corpusName] ++ rest) ≠ some (.link target)
  includer : tree.entry? (root ++ [includerName]) = none

theorem Copied.filled (h : Copied root found tree) : Filled root found tree := by
  refine ⟨h.base, h.above, fun rest target hentry => ?_, h.includer⟩
  cases rest with
  | nil =>
    rw [List.append_nil, h.base _ List.prefix_rfl] at hentry
    cases hentry
  | cons name rest =>
    rcases h.inner _ _ (List.cons_ne_nil _ _) hentry with ⟨hlink, -⟩ | ⟨⟨bytes, hlink⟩, -⟩
    · cases hlink
    · cases hlink

theorem Filled.put (h : Filled root found tree) (hvacant : tree.entry? (root ++ [corpusName] ++ names) = none)
    (bytes : List UInt8) :
    Filled root found (tree.put (root ++ [corpusName] ++ names) (.file bytes)) := by
  have hne : root ++ [corpusName] ++ names ≠ [] := by simp
  have hfree : tree.entry? (root ++ [corpusName] ++ names) ≠ some .directory := by
    rw [hvacant]
    nofun
  refine ⟨h.base.put hne hfree _, fun other hother => (h.above other hother).put hne hfree _,
    fun rest target => ?_, ?_⟩
  · rw [put_entry hne]
    split
    · nofun
    · exact h.links rest target
  · rw [put_entry_of_ne hne _ (includer_ne root names)]
    exact h.includer

/-- What the copy needs of an empty header: it is no way out of the copy, and the directory that it is in is
that of a header. -/
def HasPlace (root : List Text) (found : List (List Text)) (value : Value) : Prop :=
  ∃ text, value = .text text ∧ (Path.ofText text).isAbsolute = false ∧ AreNames (Path.namesOf text) ∧
    Fits (root ++ [corpusName] ++ Path.namesOf text) ∧
    ((Path.namesOf text).dropLast = [] ∨ ∃ names ∈ found, (Path.namesOf text).dropLast <+: names.dropLast)

theorem FileTree.isPresent_of_occupied {p : Path} {entry : FileEntry}
    (h : tree.locate .target p = .ok (.occupied names entry)) : tree.isPresent p = true := by
  unfold isPresent
  rw [h]

theorem FileTree.isPresent_of_vacant {p : Path} (h : tree.locate .target p = .ok (.vacant names)) :
    tree.isPresent p = false := by
  unfold isPresent
  rw [h]

/-- **An empty header is put into the copy** unless something has its name. -/
theorem stageEmpty_ends {value : Value} (hroot : AreNames (root ++ [corpusName]))
    (hplace : HasPlace root found value)
    (h : Filled root found tree) :
    Ends (stageEmpty root value) tree (fun _ t => Filled root found t) fun _ _ => False := by
  obtain ⟨text, rfl, habsolute, hnames, hfits, hdirectory⟩ := hplace
  have htarget : (absolute (root ++ [corpusName])).append (Path.ofText text) =
      absolute (root ++ [corpusName] ++ Path.namesOf text) := by
    unfold Path.append
    rw [habsolute]
    rfl
  unfold stageEmpty
  refine Ends.ofExcept_bind (fun m hm => ?_) nofun
  cases hm
  refine Ends.get_bind ?_
  rw [htarget]
  rcases List.eq_nil_or_concat' (Path.namesOf text) with hnil | ⟨front, name, hconcat⟩
  · -- the copy itself
    have hlocate := locate_through .target hroot (by rwa [hnil, List.append_nil] at hfits) h.base
    rw [hnil, List.append_nil, if_pos (isPresent_of_occupied hlocate)]
    exact ends_pure h
  · have hway : tree.Through (root ++ [corpusName] ++ front) := by
      rw [hconcat, List.dropLast_concat] at hdirectory
      rcases hdirectory with rfl | ⟨other, hother, hprefixed⟩
      · rw [List.append_nil]
        exact h.base
      · exact (h.above other hother).of_isPrefix ((List.prefix_append_right_inj _).2 hprefixed)
    have hassoc : root ++ [corpusName] ++ Path.namesOf text = root ++ [corpusName] ++ front ++ [name] := by
      rw [hconcat, ← List.append_assoc]
    have hall : AreNames (root ++ [corpusName] ++ front ++ [name]) := hassoc ▸ hroot.append hnames
    have hlinks := h.links (Path.namesOf text)
    rw [hassoc] at hfits hlinks ⊢
    have hlocate := locate_place .target hall hfits hway hlinks
    cases hentry : tree.entry? (root ++ [corpusName] ++ front ++ [name]) with
    | some entry =>
      rw [hentry] at hlocate
      rw [if_pos (isPresent_of_occupied hlocate)]
      exact ends_pure h
    | none =>
      rw [hentry] at hlocate
      rw [isPresent_of_vacant hlocate, if_neg Bool.false_ne_true]
      have hwrite := writeFile_ends hall hfits hway (fun entry hfound => by rw [hentry] at hfound; cases hfound) []
      refine Ends.ofFile (hwrite.imp (fun _ u hu => ?_) fun _ _ => id) fun _ _ => False.elim
      rw [hu, ← hassoc]
      exact h.put (hassoc ▸ hentry) []

theorem stageEmpties_ends {values : List Value} (hroot : AreNames (root ++ [corpusName]))
    (hplace : ∀ value ∈ values, HasPlace root found value) (h : Filled root found t) :
    Ends (values.forM (stageEmpty root)) t (fun _ u => Filled root found u) fun _ _ => False :=
  Ends.forM (I := Filled root found) values h fun value hvalue _ hu => stageEmpty_ends hroot (hplace value hvalue) hu

/-! ## The file that includes the headers -/

/-- It is UTF-8 just if the names of the headers are. -/
theorem Staged.isPlain_includer {copy : Staged} :
    copy.includer.isPlain = true ↔ ∀ header ∈ copy.names, header.isPlain = true := by
  have hline : ∀ header : Text, Text.isPlain ("#include \"" ++ header ++ "\"\n") = header.isPlain := fun header => by
    have hfront : Text.isPlain "#include \"" = true := rfl
    have hback : Text.isPlain "\"\n" = true := rfl
    unfold Text.isPlain at hfront hback ⊢
    rw [List.all_append, List.all_append, hfront, hback, Bool.true_and, Bool.and_true]
  have hall : copy.includer.isPlain =
      copy.names.all fun header => Text.isPlain ("#include \"" ++ header ++ "\"\n") := List.all_flatMap
  rw [hall, List.all_eq_true]
  exact forall₂_congr fun header _ => by rw [hline]

theorem writeIncluder_ends {copy : Staged} (hnames : AreNames (copy.root ++ [includerName]))
    (hfits : Fits (copy.root ++ [includerName])) (hroot : tree.Through copy.root)
    (hfree : tree.entry? (copy.root ++ [includerName]) = none)
    (hplain : ∀ header ∈ copy.names, header.isPlain = true) :
    Ends (writeIncluder copy) tree (fun _ _ => True) fun _ _ => False := by
  have hwrite := writeFile_ends hnames hfits hroot fun entry hentry => by
    rw [hfree] at hentry
    cases hentry
  unfold writeIncluder
  rw [if_pos (isPlain_includer.2 hplain)]
  exact Ends.ofFile ((hwrite _).imp (fun _ _ _ => trivial) fun _ _ => id) fun _ _ => id

/-! ## The whole copy -/

namespace FileTree

/-- The place for temporary files: nothing is there yet, and nothing but directories on the way. -/
structure HasScratch (tree : FileTree) : Prop where
  areNames : AreNames tree.scratch
  clear : tree.Clear tree.scratch
  fresh : ∀ rest, tree.entry? (tree.scratch ++ rest) = none

/-- The tree once the directory for the copy is made. -/
def prepared (tree : FileTree) : FileTree := (makeDirectories (absolute (tree.scratch ++ [corpusName])) tree).2

end FileTree

/-- What staging needs: names as a system has them, a place for the copy, a text for a marker, paths that are
not too long, names of headers that are UTF-8, and for each empty header a place beside the headers. -/
structure Stageable (settings : Settings) (directory : Path) (tree : FileTree) : Prop where
  proper : tree.Proper
  scratch : tree.HasScratch
  marker : ∃ marker, settings.marker = .text marker
  reached : tree.prepared.locate .target directory ≠ .error .nameTooLong
  copy : Fits (tree.scratch ++ [corpusName]) ∧ Fits (tree.scratch ++ [includerName])
  headers : ∀ found, Discovery.headers tree.prepared directory (settings.exclude.filterMap Value.text?) = .ok found →
    (∀ header ∈ found, header.isPlain = true ∧ Fits (tree.scratch ++ [corpusName] ++ Path.namesOf header)) ∧
      ∀ value ∈ settings.emptyHeaders, HasPlace tree.scratch (found.map Path.namesOf) value

/-- The directory for the copy is made, and is empty. -/
theorem FileTree.HasScratch.made (h : tree.HasScratch) (ht : tree.Made (tree.scratch ++ [corpusName]) t) :
    Copied tree.scratch [] t := by
  refine ⟨ht.through, List.forall_mem_nil _, fun rest entry hne hentry => ?_, ?_⟩
  · rw [ht.others _ fun hway => hne ?_, List.append_assoc, h.fresh] at hentry
    · cases hentry
    · have hlength := hway.length_le
      rw [List.length_append] at hlength
      exact List.eq_nil_of_length_eq_zero (by omega)
  · rw [ht.others _ fun hway => ?_]
    · exact h.fresh _
    · refine includer_ne tree.scratch [] ?_
      rw [List.append_nil]
      exact hway.eq_of_length_le (by simp)

theorem FileTree.Proper.made (h : tree.Proper) (hnames : AreNames names) (ht : tree.Made names t) : t.Proper := by
  intro other entry hentry
  by_cases hway : other <+: names
  · exact fun n hn => hnames n (hway.subset hn)
  · rw [ht.others other hway] at hentry
    exact h other entry hentry

theorem Discovery.headers_fault {exclude : List Text} {fault : Fault}
    (hreached : tree.locate .target directory ≠ .error .nameTooLong)
    (h : Discovery.headers tree directory exclude = .error fault) : fault.IsReport := by
  unfold Discovery.headers at h
  split at h
  · cases h
  · rename_i hlong
    exact absurd hlong hreached
  · cases h
    exact ⟨_, rfl⟩

/-- **Staging answers, or fails with a report**; it answers for a directory only. -/
theorem stage_ends (h : Stageable settings directory tree) :
    Ends (stage settings directory) tree (fun _ _ => directory.hasNull = false) fun fault _ => fault.IsReport := by
  obtain ⟨marker, hmarker⟩ := h.marker
  have hbase : AreNames (tree.scratch ++ [corpusName]) := h.scratch.areNames.append (areNames_singleton (by decide))
  have hclear : tree.Clear (tree.scratch ++ [corpusName]) := by
    intro front hfront
    rcases List.prefix_concat_iff.1 hfront with rfl | hfront
    · exact Or.inr (h.scratch.fresh _)
    · exact h.scratch.clear front hfront
  unfold stage
  refine Ends.get_bind ?_
  refine (Ends.ofFile (makeDirectories_ends hbase h.copy.1 hclear).and_run fun _ _ h => h.1.elim).bind
    fun _ t ⟨ht, hrun⟩ => ?_
  have hprepared : tree.prepared = t := by
    unfold FileTree.prepared
    rw [hrun]
  refine Ends.get_bind ?_
  refine Ends.ofExcept_bind (fun found hfound => ?_) fun fault hfault =>
    Discovery.headers_fault (hprepared ▸ h.reached) hfault
  obtain ⟨hnull, hheaders⟩ := Discovery.headers_ok (h.proper.made hbase ht) hfound
  obtain ⟨hstageable, hempties⟩ := h.headers found (hprepared ▸ hfound)
  have hstaged := stageHeaders_ends hmarker hbase (h.scratch.made ht) hheaders fun header hh => (hstageable header hh).2
  have hnamed : Ends (found.mapM (stageHeader settings directory tree.scratch)) t
      (fun staged _ => staged.map (·.1.1) = found) fun _ _ => True := Ends.mapM_map (stageHeader_name _) found t
  refine ((hstaged.and hnamed).imp (fun _ _ => id) fun _ _ => And.left).bind fun staged u ⟨hu, hnames⟩ => ?_
  refine ((stageEmpties_ends hbase hempties hu.filled).imp (fun _ _ => id) fun _ _ => False.elim).bind fun _ u hu => ?_
  have hincluder : AreNames (tree.scratch ++ [includerName]) :=
    h.scratch.areNames.append (areNames_singleton (by decide))
  have hroot := hu.base.of_isPrefix (List.prefix_append tree.scratch [corpusName])
  refine ((writeIncluder_ends hincluder h.copy.2 hroot hu.includer fun header hheader => ?_).imp (fun _ _ => id)
    fun _ _ => False.elim).bind fun _ _ _ => ends_pure hnull
  obtain ⟨staging, hmem, rfl⟩ := List.mem_map.1 hheader
  obtain ⟨made, hmade, rfl⟩ := List.mem_map.1 hmem
  exact (hstageable _ (hnames ▸ List.mem_map_of_mem hmade)).1

end TrapStub
