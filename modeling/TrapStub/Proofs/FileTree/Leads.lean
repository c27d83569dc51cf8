import Mathlib.Data.List.Infix
import TrapStub.FileTree

/-!
# Following a path

A path that leads somewhere is followed name by name: directories are entered, links are replaced by the path they
hold, and the last name may be free. `Leads` has one rule for each of these moves, so what a path keeps is shown
move by move.

* `FileTree.Leads`, `FileTree.locateFrom_eq_ok`: the moves, and that they are those of `locateFrom`.
* `FileTree.Leads.before`: on the way there are directories.
* `FileTree.Leads.persists`: **a path still leads there** when directories and links stay.
* `FileTree.Leads.concat`: one more name behind a path to a directory.
* `FileTree.Leads.settled`: without links a path leads to what it settles to.
-/

namespace TrapStub

/-- Names behind a path, one part after the other. -/
theorem Path.append_append (p : Path) (front rest : List Text) :
    (p.append ⟨[], front⟩).append ⟨[], rest⟩ = p.append ⟨[], front ++ rest⟩ :=
  congrArg (Path.mk _) (List.append_assoc _ _ _)

/-- The names of a place. -/
def Place.names : Place → List Text
  | occupied names _ => names
  | vacant names => names

namespace FileTree

/-- The name is looked up in the directory that it stands in. -/
structure IsPlainName (name : Text) : Prop where
  ne_nil : name ≠ []
  ne_here : name ≠ Path.here
  ne_up : name ≠ Path.up
  short : (Utf8.encode name).length ≤ nameLimit

instance (name : Text) : Decidable (IsPlainName name) :=
  decidable_of_iff (name ≠ [] ∧ name ≠ Path.here ∧ name ≠ Path.up ∧ (Utf8.encode name).length ≤ nameLimit)
    ⟨fun h => ⟨h.1, h.2.1, h.2.2.1, h.2.2.2⟩, fun h => ⟨h.ne_nil, h.ne_here, h.ne_up, h.short⟩⟩

/-- The names in `pending` lead from the directory `start` to a place, through at most `links` links. -/
inductive Leads (tree : FileTree) (purpose : Purpose) : (links : Nat) → (start pending : List Text) → Place → Prop
  | done {links : Nat} {start : List Text} {entry : FileEntry} (h : tree.entry? start = some entry) :
    Leads tree purpose links start [] (.occupied start entry)
  | skip {links : Nat} {start rest : List Text} {name : Text} {place : Place}
    (hstart : tree.entry? start = some .directory) (hname : name = [] ∨ name = Path.here)
    (h : Leads tree purpose links start rest place) : Leads tree purpose links start (name :: rest) place
  | up {links : Nat} {start rest : List Text} {place : Place} (hstart : tree.entry? start = some .directory)
    (h : Leads tree purpose links start.dropLast rest place) :
    Leads tree purpose links start (Path.up :: rest) place
  | vacant {links : Nat} {start : List Text} {name : Text} (hstart : tree.entry? start = some .directory)
    (hname : IsPlainName name) (h : tree.entry? (start ++ [name]) = none) :
    Leads tree purpose links start [name] (.vacant (start ++ [name]))
  | file {links : Nat} {start : List Text} {name : Text} {bytes : List UInt8}
    (hstart : tree.entry? start = some .directory) (hname : IsPlainName name)
    (h : tree.entry? (start ++ [name]) = some (.file bytes)) :
    Leads tree purpose links start [name] (.occupied (start ++ [name]) (.file bytes))
  | link {links : Nat} {start : List Text} {name target : Text} (hpurpose : purpose = .entry)
    (hstart : tree.entry? start = some .directory) (hname : IsPlainName name)
    (h : tree.entry? (start ++ [name]) = some (.link target)) :
    Leads tree purpose links start [name] (.occupied (start ++ [name]) (.link target))
  | follow {links : Nat} {start rest : List Text} {name target : Text} {place : Place}
    (hstart : tree.entry? start = some .directory) (hname : IsPlainName name)
    (hpurpose : rest = [] → purpose ≠ .entry) (hslash : rest = [[]] → purpose ≠ .newFile)
    (hlink : tree.entry? (start ++ [name]) = some (.link target))
    (h : Leads tree purpose links (if (Path.ofText target).isAbsolute then [] else start)
      ((Path.ofText target).names ++ Path.endingOf target ++ rest) place) :
    Leads tree purpose (links + 1) start (name :: rest) place
  | enter {links : Nat} {start rest : List Text} {name : Text} {place : Place}
    (hstart : tree.entry? start = some .directory) (hname : IsPlainName name)
    (hslash : rest = [[]] → purpose ≠ .newFile) (hentry : tree.entry? (start ++ [name]) = some .directory)
    (h : Leads tree purpose links (start ++ [name]) rest place) : Leads tree purpose links start (name :: rest) place

variable {tree t u : FileTree} {purpose : Purpose} {links : Nat} {start names front rest pending : List Text}
  {name : Text} {place : Place} {entry : FileEntry}

theorem isPlainName_of_checks (hskip : ¬ (decide (name = []) || decide (name = Path.here)) = true)
    (hup : ¬ name = Path.up) (hshort : ¬ nameLimit < (Utf8.encode name).length) : IsPlainName name := by
  rw [Bool.or_eq_true, decide_eq_true_eq, decide_eq_true_eq, not_or] at hskip
  exact ⟨hskip.1, hskip.2, hup, Nat.not_lt.1 hshort⟩

theorem slash_of_check (h : ¬ (decide (purpose = .newFile) && decide (rest = [[]])) = true) :
    rest = [[]] → purpose ≠ .newFile := by
  rw [Bool.and_eq_true, decide_eq_true_eq, decide_eq_true_eq] at h
  exact fun hrest hpurpose => h ⟨hpurpose, hrest⟩

theorem check_of_slash (h : rest = [[]] → purpose ≠ .newFile) : ¬ (purpose = .newFile ∧ rest = [[]]) :=
  fun hboth => h hboth.2 hboth.1

/-- What is found by following names is found by the moves. -/
theorem leads_of_locateFrom (h : tree.locateFrom purpose links start pending = .ok place) :
    Leads tree purpose links start pending place := by
  fun_induction locateFrom tree purpose links start pending with
  | case1 links start entry hstart =>
    cases h
    exact .done hstart
  | case2 | case3 | case4 | case5 => cases h
  | case6 links start name rest hstart hskip ih =>
    rw [Bool.or_eq_true, decide_eq_true_eq, decide_eq_true_eq] at hskip
    exact .skip hstart hskip (ih h)
  | case7 links start rest hstart hskip ih => exact .up hstart (ih h)
  | case8 => cases h
  | case9 => cases h
  | case10 links start name rest hstart hskip hup hslash hshort hnone hrest =>
    cases h
    rw [List.isEmpty_iff.1 hrest]
    exact .vacant hstart (isPlainName_of_checks hskip hup hshort) hnone
  | case11 => cases h
  | case12 links start name rest hstart hskip hup hslash hshort target hlink hlast =>
    cases h
    rw [Bool.and_eq_true, decide_eq_true_eq] at hlast
    rw [List.isEmpty_iff.1 hlast.1]
    exact .link hlast.2 hstart (isPlainName_of_checks hskip hup hshort) hlink
  | case13 => cases h
  | case14 start name rest hstart hskip hup hslash hshort target hlink hlast links path ih =>
    rw [Bool.and_eq_true, decide_eq_true_eq] at hlast
    exact .follow hstart (isPlainName_of_checks hskip hup hshort)
      (fun hrest hpurpose => hlast ⟨List.isEmpty_iff.2 hrest, hpurpose⟩) (slash_of_check hslash) hlink (ih h)
  | case15 links start name rest hstart hskip hup hslash hshort hentry ih =>
    exact .enter hstart (isPlainName_of_checks hskip hup hshort) (slash_of_check hslash) hentry (ih h)
  | case16 links start name rest hstart hskip hup hslash hshort bytes hentry ih =>
    -- a file is the end of the way
    cases rest with
    | nil =>
      rw [locateFrom, hentry] at h
      cases h
      exact .file hstart (isPlainName_of_checks hskip hup hshort) hentry
    | cons next rest =>
      rw [locateFrom, hentry] at h
      cases h

/-- **The moves are those of following names.** -/
theorem locateFrom_eq_ok :
    tree.locateFrom purpose links start pending = .ok place ↔ Leads tree purpose links start pending place := by
  refine ⟨leads_of_locateFrom, fun h => ?_⟩
  induction h with
  | done h => rw [locateFrom, h]
  | skip hstart hname _ ih =>
    rw [locateFrom, hstart, ← ih]
    exact if_pos (by simpa using hname)
  | up hstart _ ih =>
    rw [locateFrom, hstart, ← ih]
    rfl
  | vacant hstart hname h =>
    rw [locateFrom, hstart]
    simp [hname.ne_nil, hname.ne_here, hname.ne_up, Nat.not_lt.2 hname.short, h]
  | file hstart hname h =>
    rw [locateFrom, hstart]
    simp [hname.ne_nil, hname.ne_here, hname.ne_up, Nat.not_lt.2 hname.short, h, locateFrom]
  | link hpurpose hstart hname h =>
    rw [locateFrom, hstart]
    simp [hname.ne_nil, hname.ne_here, hname.ne_up, Nat.not_lt.2 hname.short, h, hpurpose]
  | follow hstart hname hpurpose hslash hlink _ ih =>
    rw [locateFrom, hstart, ← ih]
    have hlast : ∀ rest : List Text, (rest = [] → purpose ≠ .entry) →
        (rest.isEmpty && decide (purpose = .entry)) = false :=
      fun rest h => by cases rest <;> simp_all
    simp [hname.ne_nil, hname.ne_here, hname.ne_up, Nat.not_lt.2 hname.short, check_of_slash hslash, hlink,
      hlast _ hpurpose]
  | enter hstart hname hslash hentry _ ih =>
    rw [locateFrom, hstart, ← ih]
    simp [hname.ne_nil, hname.ne_here, hname.ne_up, Nat.not_lt.2 hname.short, check_of_slash hslash, hentry]

/-! ## What a path leads to -/

theorem Leads.entry?_occupied (h : Leads tree purpose links start pending (.occupied names entry)) :
    tree.entry? names = some entry := by
  generalize hplace : Place.occupied names entry = place at h
  induction h with
  | done h => cases hplace; exact h
  | skip _ _ _ ih => exact ih hplace
  | up _ _ ih => exact ih hplace
  | vacant => cases hplace
  | file _ _ h => cases hplace; exact h
  | link _ _ _ h => cases hplace; exact h
  | follow _ _ _ _ _ _ ih => exact ih hplace
  | enter _ _ _ _ _ ih => exact ih hplace

/-- A free place is in a directory. -/
theorem Leads.entry?_vacant (h : Leads tree purpose links start pending (.vacant names)) :
    tree.entry? names = none ∧ ∃ front name, names = front ++ [name] ∧ tree.entry? front = some .directory := by
  generalize hplace : Place.vacant names = place at h
  induction h with
  | done => cases hplace
  | skip _ _ _ ih => exact ih hplace
  | up _ _ ih => exact ih hplace
  | vacant hstart _ h => cases hplace; exact ⟨h, _, _, rfl, hstart⟩
  | file => cases hplace
  | link => cases hplace
  | follow _ _ _ _ _ _ ih => exact ih hplace
  | enter _ _ _ _ _ ih => exact ih hplace

/-- Names lead to one place. -/
theorem Leads.unique (h : Leads tree purpose links start pending place) {other : Place}
    (h' : Leads tree purpose links start pending other) : place = other :=
  Except.ok.inj ((locateFrom_eq_ok.2 h).symm.trans (locateFrom_eq_ok.2 h'))

/-- **On the way there are directories.** -/
theorem Leads.before (h : Leads tree purpose links start (front ++ name :: rest) place) :
    ∃ names, Leads tree .target links start front (.occupied names .directory) := by
  generalize hpending : front ++ name :: rest = pending at h
  -- one name is behind no other
  have hone : ∀ {links : Nat} {start front : List Text} {last : Text}, tree.entry? start = some .directory →
      front ++ name :: rest = [last] → ∃ names, Leads tree .target links start front (.occupied names .directory) := by
    intro links start front last hstart hpending
    obtain rfl : front = [] := (List.append_eq_singleton_iff.1 hpending).elim (·.1) fun h => by cases h.2
    exact ⟨_, .done hstart⟩
  induction h generalizing front with
  | done => simp at hpending
  | vacant hstart => exact hone hstart hpending
  | file hstart => exact hone hstart hpending
  | link _ hstart => exact hone hstart hpending
  | skip hstart hname _ ih =>
    cases front with
    | nil => exact ⟨_, .done hstart⟩
    | cons first front =>
      cases hpending
      obtain ⟨names, hway⟩ := ih rfl
      exact ⟨names, .skip hstart hname hway⟩
  | up hstart _ ih =>
    cases front with
    | nil => exact ⟨_, .done hstart⟩
    | cons first front =>
      cases hpending
      obtain ⟨names, hway⟩ := ih rfl
      exact ⟨names, .up hstart hway⟩
  | follow hstart hname _ _ hlink _ ih =>
    cases front with
    | nil => exact ⟨_, .done hstart⟩
    | cons first front =>
      cases hpending
      obtain ⟨names, hway⟩ := ih (List.append_assoc _ _ _)
      exact ⟨names, .follow hstart hname nofun nofun hlink hway⟩
  | enter hstart hname _ hentry _ ih =>
    cases front with
    | nil => exact ⟨_, .done hstart⟩
    | cons first front =>
      cases hpending
      obtain ⟨names, hway⟩ := ih rfl
      exact ⟨names, .enter hstart hname nofun hentry hway⟩

/-- Directories and links have stayed. -/
structure Keeps (t u : FileTree) : Prop where
  directory : ∀ {names}, t.entry? names = some .directory → u.entry? names = some .directory
  link : ∀ {names target}, t.entry? names = some (.link target) → u.entry? names = some (.link target)
  here : u.here = t.here

/-- **A path still leads there** when directories and links stay, and to what is there then. -/
theorem Leads.persists (h : Leads t purpose links start pending place) (hkeeps : t.Keeps u)
    (hentry : u.entry? place.names = some entry) (hnone : ∀ target, entry ≠ .link target)
    (hplace : ∀ names target, place ≠ .occupied names (.link target)) :
    Leads u .target links start pending (.occupied place.names entry) := by
  -- the last name leads to an entry that is no link
  have hlast : ∀ {links : Nat} {start : List Text} {name : Text}, t.entry? start = some .directory →
      IsPlainName name → u.entry? (start ++ [name]) = some entry →
      Leads u .target links start [name] (.occupied (start ++ [name]) entry) := by
    intro links start name hstart hname hentry
    cases entry with
    | directory => exact .enter (hkeeps.directory hstart) hname nofun hentry (.done hentry)
    | file bytes => exact .file (hkeeps.directory hstart) hname hentry
    | link target => exact absurd rfl (hnone target)
  induction h with
  | done => exact .done hentry
  | skip hstart hname _ ih => exact .skip (hkeeps.directory hstart) hname (ih hentry hplace)
  | up hstart _ ih => exact .up (hkeeps.directory hstart) (ih hentry hplace)
  | vacant hstart hname => exact hlast hstart hname hentry
  | file hstart hname => exact hlast hstart hname hentry
  | link => exact absurd rfl (hplace _ _)
  | follow hstart hname _ _ hlink _ ih =>
    exact .follow (hkeeps.directory hstart) hname nofun nofun (hkeeps.link hlink) (ih hentry hplace)
  | enter hstart hname _ hdirectory _ ih =>
    exact .enter (hkeeps.directory hstart) hname nofun (hkeeps.directory hdirectory) (ih hentry hplace)

/-- **One more name** behind a path to a directory is looked up in it. -/
theorem Leads.concat (h : Leads tree .target links start front (.occupied names .directory))
    (hname : IsPlainName name) :
    ∃ more, ∀ {purpose place}, Leads tree purpose more names [name] place →
      Leads tree purpose links start (front ++ [name]) place := by
  have hne : ∀ rest : List Text, rest ++ [name] ≠ [] := fun rest => by simp
  have hslash : ∀ rest : List Text, rest ++ [name] ≠ [[]] := by
    intro rest h
    have hwhole : rest ++ [name] = [] ++ [[]] := h
    have hlast := (List.append_inj' hwhole rfl).2
    exact hname.ne_nil (List.cons.inj hlast).1
  generalize hplace : Place.occupied names .directory = place at h
  induction h with
  | done => cases hplace; exact ⟨_, id⟩
  | skip hstart hskip _ ih =>
    obtain ⟨more, hmore⟩ := ih hplace
    exact ⟨more, fun h => .skip hstart hskip (hmore h)⟩
  | up hstart _ ih =>
    obtain ⟨more, hmore⟩ := ih hplace
    exact ⟨more, fun h => .up hstart (hmore h)⟩
  | vacant => cases hplace
  | file => cases hplace
  | link hpurpose => cases hpurpose
  | follow hstart hplain _ _ hlink _ ih =>
    obtain ⟨more, hmore⟩ := ih hplace
    refine ⟨more, fun h => .follow hstart hplain (fun h => absurd h (hne _)) (fun h => absurd h (hslash _)) hlink ?_⟩
    have hway := hmore h
    rwa [List.append_assoc] at hway
  | enter hstart hplain _ hdirectory _ ih =>
    obtain ⟨more, hmore⟩ := ih hplace
    exact ⟨more, fun h => .enter hstart hplain (fun h => absurd h (hslash _)) hdirectory (hmore h)⟩

/-- **Without links a path leads to what it settles to.** -/
theorem Leads.settled (h : Leads tree purpose links start pending place)
    (hnames : ∀ name ∈ pending, name ≠ [] ∧ name ≠ Path.here)
    (hlinks : ∀ front, front <+: pending → ∀ target, tree.entry? (Path.settle start front) ≠ some (.link target)) :
    place.names = Path.settle start pending := by
  have hsettle : ∀ {start rest : List Text} {name : Text}, name ≠ Path.up →
      Path.settle start (name :: rest) = Path.settle (start ++ [name]) rest := fun h => by rw [Path.settle, if_neg h]
  have hup : ∀ start rest : List Text, Path.settle start (Path.up :: rest) = Path.settle start.dropLast rest :=
    fun start rest => by rw [Path.settle, if_pos rfl]
  induction h with
  | done => rfl
  | skip _ hskip =>
    obtain ⟨hne, hhere⟩ := hnames _ List.mem_cons_self
    exact absurd hskip (not_or.2 ⟨hne, hhere⟩)
  | up _ _ ih =>
    rw [hup]
    refine ih (fun n hn => hnames n (List.mem_cons_of_mem _ hn)) fun front hfront target => ?_
    rw [← hup]
    exact hlinks _ ((List.prefix_cons_inj _).2 hfront) target
  | vacant _ hname => rw [hsettle hname.ne_up]; rfl
  | file _ hname => rw [hsettle hname.ne_up]; rfl
  | link _ _ hname => rw [hsettle hname.ne_up]; rfl
  | @follow _ start rest name target _ _ hname _ _ hlink =>
    have hnone := hlinks [name] ⟨rest, rfl⟩ target
    rw [hsettle hname.ne_up] at hnone
    exact absurd hlink hnone
  | enter _ hname _ _ _ ih =>
    rw [hsettle hname.ne_up]
    refine ih (fun n hn => hnames n (List.mem_cons_of_mem _ hn)) fun front hfront target => ?_
    rw [← hsettle hname.ne_up]
    exact hlinks _ ((List.prefix_cons_inj _).2 hfront) target

/-! ## Paths -/

/-- The system follows the path: it holds no null character and is not too long. -/
structure IsPassable (p : Path) : Prop where
  null : p.hasNull = false
  short : (Utf8.encode p.text).length ≤ pathLimit

variable {p : Path}

/-- **Where a path leads.** -/
theorem locate_eq_ok : tree.locate purpose p = .ok place ↔
    IsPassable p ∧ Leads tree purpose linkLimit (if p.isAbsolute then [] else tree.here) p.names place := by
  unfold locate
  rw [← locateFrom_eq_ok]
  split
  · rename_i hnull
    exact ⟨nofun, fun h => by rw [h.1.null] at hnull; cases hnull⟩
  · rename_i hnull
    split
    · rename_i hlong
      exact ⟨nofun, fun h => absurd hlong (Nat.not_lt.2 h.1.short)⟩
    · rename_i hshort
      exact ⟨fun h => ⟨⟨by simpa using hnull, Nat.not_lt.1 hshort⟩, h⟩, fun h => h.2⟩

theorem isPassable_of_missing (h : tree.locate purpose p = .error .missing) : IsPassable p := by
  unfold locate at h
  split at h
  · cases h
  · rename_i hnull
    split at h
    · cases h
    · rename_i hshort
      exact ⟨by simpa using hnull, Nat.not_lt.1 hshort⟩

/-- A path still leads there when directories and links stay, and to what is there then. -/
theorem locate_persists (h : t.locate purpose p = .ok place) (hkeeps : t.Keeps u)
    (hentry : u.entry? place.names = some entry) (hnone : ∀ target, entry ≠ .link target)
    (hplace : ∀ names target, place ≠ .occupied names (.link target)) :
    u.locate .target p = .ok (.occupied place.names entry) := by
  rw [locate_eq_ok] at h ⊢
  rw [hkeeps.here]
  exact ⟨h.1, h.2.persists hkeeps hentry hnone hplace⟩

/-- **Below a path to a directory** the last name is looked up in it. -/
theorem locate_below {purpose : Purpose} {place : Place} (hp : IsPassable p) (hnames : p.names = front ++ [name])
    (hname : IsPlainName name) (h : tree.locate .target p.parent = .ok (.occupied names .directory))
    (hlast : ∀ more, Leads tree purpose more names [name] place) : tree.locate purpose p = .ok place := by
  have hparent : p.parent.names = front := by rw [Path.parent, hnames, List.dropLast_concat]
  obtain ⟨-, hway⟩ := locate_eq_ok.1 h
  rw [hparent] at hway
  obtain ⟨more, hmore⟩ := hway.concat hname
  exact locate_eq_ok.2 ⟨hp, hnames ▸ hmore (hlast more)⟩

theorem isDirectory_eq_true : tree.isDirectory p = true ↔
    ∃ names, tree.locate .target p = .ok (.occupied names .directory) := by
  unfold isDirectory
  split
  · rename_i names hlocate
    exact ⟨fun _ => ⟨names, hlocate⟩, fun _ => rfl⟩
  · rename_i hother
    exact ⟨nofun, fun ⟨names, hlocate⟩ => absurd hlocate (hother names)⟩

theorem hasDirectory_of_locate (h : tree.locate .target p = .ok (.occupied names .directory)) :
    tree.hasDirectory p name = true ↔ tree.entry? (names ++ [name]) = some .directory ∨
      (∃ target, tree.entry? (names ++ [name]) = some (.link target)) ∧
        tree.isDirectory (p.append ⟨[], [name]⟩) = true := by
  unfold hasDirectory
  rw [h]
  dsimp only
  split
  · rename_i hentry
    simp [hentry]
  · rename_i target hentry
    simp [hentry]
  · rename_i hdirectory hlink
    exact ⟨nofun, fun h => (h.elim hdirectory fun h => h.1.elim hlink).elim⟩

/-- **A name that leads to a directory** is that of one, or of a link to one. -/
theorem hasDirectory_of_isDirectory (h : tree.isDirectory p = true) (hname : IsPlainName name)
    (hdirectory : tree.isDirectory (p.append ⟨[], [name]⟩) = true) : tree.hasDirectory p name = true := by
  obtain ⟨names, hlocate⟩ := isDirectory_eq_true.1 h
  obtain ⟨inner, hinner⟩ := isDirectory_eq_true.1 hdirectory
  have hway : Leads tree .target linkLimit (if p.isAbsolute then [] else tree.here) (p.names ++ [name])
      (.occupied inner .directory) := (locate_eq_ok.1 hinner).2
  obtain ⟨more, hmore⟩ := (locate_eq_ok.1 hlocate).2.concat hname
  have hstart := (locate_eq_ok.1 hlocate).2.entry?_occupied
  rw [hasDirectory_of_locate hlocate]
  cases hentry : tree.entry? (names ++ [name]) with
  | none => cases hway.unique (hmore (.vacant hstart hname hentry))
  | some entry =>
    cases entry with
    | directory => exact .inl rfl
    | file bytes => cases hway.unique (hmore (.file hstart hname hentry))
    | link target => exact .inr ⟨⟨target, rfl⟩, hdirectory⟩

end FileTree

end TrapStub
