import Mathlib.Data.List.Perm.Subperm
import TrapStub.Proofs.FileTree.Listing

/-!
# How deep a path goes

Between two links on a path every directory is an entry of its own, below the one before. A path passes through few
links, so there is a bound on its names that only the number of entries tells.

* `FileTree.Grounded.length_le`: names of an entry are not more than there are entries.
* `FileTree.Leads.length_le`: **a path has few names.**
* `FileTree.hasDirectory_before`: every name on the way to a directory is that of a directory, or of a link to one.
-/

namespace TrapStub

namespace FileTree

variable {tree : FileTree} {p : Path} {purpose : Purpose} {links : Nat} {start lead front rest names : List Text}
  {name : Text} {entry : FileEntry}

/-- Every directory on the way is an entry of its own. -/
theorem Grounded.length_le (h : tree.Grounded) (hentry : tree.entry? names = some entry) :
    names.length ≤ tree.entries.length := by
  have hkeys : ∀ k ∈ List.range names.length, names.take (k + 1) ∈ tree.entries.map (·.1) := by
    intro k hk
    rw [List.mem_range] at hk
    have hne : names.take (k + 1) ≠ [] := by
      rw [ne_eq, List.take_eq_nil_iff]
      rintro (hk | rfl)
      · cases hk
      · cases hk
    rw [← isSome_iff_mem hne, Option.isSome_iff_ne_none]
    intro hnone
    have hbelow := h.all_below hnone (names.drop (k + 1))
    rw [List.take_append_drop, hentry] at hbelow
    cases hbelow
  have hnodup : ((List.range names.length).map fun k => names.take (k + 1)).Nodup := by
    refine List.Nodup.map_on (fun a ha b hb heq => ?_) List.nodup_range
    rw [List.mem_range] at ha hb
    have hlength := congrArg List.length heq
    rw [List.length_take_of_le ha, List.length_take_of_le hb] at hlength
    exact Nat.succ_injective hlength
  have hsubset : ((List.range names.length).map fun k => names.take (k + 1)) ⊆ tree.entries.map (·.1) := by
    intro front hfront
    obtain ⟨k, hk, rfl⟩ := List.mem_map.1 hfront
    exact hkeys k hk
  simpa using (hnodup.subperm hsubset).length_le

/-- How many names a path can have behind a directory, through some links. -/
def wayLimit (tree : FileTree) (links : Nat) : Nat := links * (tree.entries.length + 1) + tree.entries.length

theorem wayLimit_succ (tree : FileTree) (links : Nat) :
    tree.wayLimit (links + 1) = tree.wayLimit links + (tree.entries.length + 1) := by
  unfold wayLimit
  rw [Nat.succ_mul]
  omega

/-- **A path has few names**: each link starts a new way of directories, and none of these is longer than the tree has
entries. -/
theorem Leads.length_le (h : Leads tree purpose links start (lead ++ rest) (.occupied names entry))
    (hgrounded : tree.Grounded) (hrest : ∀ name ∈ rest, IsPlainName name) :
    rest.length ≤ tree.wayLimit links ∧ (lead = [] → start.length + rest.length ≤ tree.wayLimit links) := by
  have hentry : ∀ {names entry}, tree.entry? names = some entry → names.length ≤ tree.entries.length :=
    hgrounded.length_le
  have hlimit : ∀ links, tree.entries.length ≤ tree.wayLimit links := fun links => Nat.le_add_left _ _
  -- one name that leads to an entry
  have hone : ∀ {links start name entry} {lead rest : List Text}, tree.entry? (start ++ [name]) = some entry →
      lead ++ rest = [name] →
      rest.length ≤ tree.wayLimit links ∧ (lead = [] → start.length + rest.length ≤ tree.wayLimit links) := by
    intro links start name entry lead rest h hpending
    have hshort := hentry h
    have hsum := congrArg List.length hpending
    rw [List.length_append, List.length_singleton] at hshort hsum
    have := hlimit links
    exact ⟨by omega, fun _ => by omega⟩
  generalize hpending : lead ++ rest = pending at h
  generalize hplace : Place.occupied names entry = place at h
  induction h generalizing lead rest with
  | @done links start _ h =>
    obtain ⟨rfl, rfl⟩ := List.append_eq_nil_iff.1 hpending
    exact ⟨Nat.zero_le _, fun _ => (hentry h).trans (hlimit links)⟩
  | vacant => cases hplace
  | file _ _ h => exact hone h hpending
  | link _ _ _ h => exact hone h hpending
  | skip _ hname _ ih =>
    cases lead with
    | nil =>
      cases hpending
      have hplain := hrest _ List.mem_cons_self
      exact (hname.elim hplain.ne_nil hplain.ne_here).elim
    | cons first lead =>
      cases hpending
      exact ⟨(ih hrest rfl hplace).1, nofun⟩
  | up _ _ ih =>
    cases lead with
    | nil =>
      cases hpending
      exact ((hrest _ List.mem_cons_self).ne_up rfl).elim
    | cons first lead =>
      cases hpending
      exact ⟨(ih hrest rfl hplace).1, nofun⟩
  | @follow links start behind name target _ _ _ _ _ hlink _ ih =>
    have hstart := hentry hlink
    rw [List.length_append, List.length_singleton] at hstart
    rw [wayLimit_succ]
    cases lead with
    | nil =>
      cases hpending
      obtain ⟨hbehind, -⟩ := ih (fun n hn => hrest n (List.mem_cons_of_mem _ hn)) rfl hplace
      rw [List.length_cons]
      exact ⟨by omega, fun _ => by omega⟩
    | cons first lead =>
      cases hpending
      obtain ⟨hbehind, -⟩ := ih hrest (List.append_assoc _ _ _) hplace
      exact ⟨by omega, nofun⟩
  | @enter links start behind name _ _ _ _ hdirectory _ ih =>
    cases lead with
    | nil =>
      cases hpending
      obtain ⟨-, hbehind⟩ := ih (fun n hn => hrest n (List.mem_cons_of_mem _ hn)) (List.nil_append behind) hplace
      have hsum := hbehind rfl
      rw [List.length_append, List.length_singleton] at hsum
      rw [List.length_cons]
      exact ⟨by omega, fun _ => by omega⟩
    | cons first lead =>
      cases hpending
      exact ⟨(ih hrest rfl hplace).1, nofun⟩

/-! ## Paths behind a directory -/

theorem IsPassable.of_longer {root : Text} (h : IsPassable ⟨root, front ++ rest⟩) : IsPassable ⟨root, front⟩ := by
  constructor
  · have hnull := h.null
    rw [Path.hasNull, List.any_append, Bool.or_eq_false_iff] at hnull
    exact hnull.1
  · by_cases hempty : root = [] ∧ front = []
    · obtain ⟨rfl, rfl⟩ := hempty
      decide
    · have htext : ∀ more, Path.text ⟨root, front ++ more⟩ = root ++ Text.join "/" (front ++ more) := fun more => by
        unfold Path.text
        rw [if_neg]
        simp only [Bool.and_eq_true, List.isEmpty_iff, List.append_eq_nil_iff]
        exact fun h => hempty ⟨h.1, h.2.1⟩
      obtain ⟨more, hmore⟩ := join_append "/" front rest
      have hshort := h.short
      have hfront := htext []
      rw [List.append_nil] at hfront
      rw [htext, ← hmore, ← List.append_assoc, encode_append _ more, List.length_append] at hshort
      rw [hfront]
      exact (Nat.le_add_right _ _).trans hshort

/-- On the way to a directory there are directories. -/
theorem isDirectory_before (h : tree.isDirectory (p.append ⟨[], front ++ rest⟩) = true) :
    tree.isDirectory (p.append ⟨[], front⟩) = true := by
  cases rest with
  | nil => rwa [List.append_nil] at h
  | cons name rest =>
    obtain ⟨names, hlocate⟩ := isDirectory_eq_true.1 h
    obtain ⟨hpassable, hway⟩ := locate_eq_ok.1 hlocate
    have hnames : (p.append ⟨[], front ++ name :: rest⟩).names = (p.append ⟨[], front⟩).names ++ name :: rest :=
      (List.append_assoc _ _ _).symm
    rw [hnames] at hway
    obtain ⟨inner, hinner⟩ := hway.before
    have hshorter : IsPassable ⟨p.root, p.names ++ front ++ name :: rest⟩ := by
      rw [List.append_assoc]
      exact hpassable
    exact isDirectory_eq_true.2 ⟨inner, locate_eq_ok.2 ⟨hshorter.of_longer, hinner⟩⟩

/-- Every name on the way to a directory is that of a directory, or of a link to one. -/
theorem hasDirectory_before (h : tree.isDirectory (p.append ⟨[], front ++ name :: rest⟩) = true)
    (hname : IsPlainName name) : tree.hasDirectory (p.append ⟨[], front⟩) name = true := by
  have hassoc : front ++ name :: rest = front ++ [name] ++ rest := by simp
  refine hasDirectory_of_isDirectory (isDirectory_before h) hname ?_
  rw [hassoc] at h
  rw [Path.append_append]
  exact isDirectory_before h

end FileTree

end TrapStub
