import Mathlib.Data.List.Flatten
import TrapStub.Proofs.Header.HeaderDraft

/-!
# Where a header writes bodies

A body stands where its definition is written on its own, or where the key of its definition is spelled and has no
name.

* `TypeTable.sites`: the places where a header spells keys, each with the speller that does.
* `TypeTable.ownBodies`, `TypeTable.inlined`: the bodies of definitions on their own, and those in place of keys.
* `Header.Drafted.bodies`: **the bodies of a header are these.**
-/

namespace TrapStub

open Draft

/-- The bodies that are written, in reading order. -/
def Draft.bodies (d : Draft) : List Tagged := (notes d).filterMap Note.body?

namespace TypeTable

open Speller TypeSection

/-- The places where keys are spelled, each with its speller: in the definitions that are written, and in the
stubs. -/
def sites (table : TypeTable) (plans : List Plan) : List (Speller × List Text) :=
  ((((Speller.ofTable table).writing table.entries).filter fun w => w.2.isWritten (mentioned table plans)).map
    fun w => (w.1, w.2.mentions)) ++
  [(table.entries.foldl Speller.after (.ofTable table), plans.flatMap Plan.spelled)]

/-- The bodies that are written where their keys are spelled, through so many inside each other. -/
def inlined (table : TypeTable) (plans : List Plan) (limit : Nat) : List Tagged :=
  (table.sites plans).flatMap fun s => s.2.flatMap (s.1.bodiesWithin limit)

/-- The bodies that definitions write of their own. -/
def ownBodies (table : TypeTable) (plans : List Plan) : List Tagged :=
  (table.entries.filter fun d => d.isWritten (mentioned table plans)).filterMap Tagged.ofTypeDef?

variable {table : TypeTable} {plans : List Plan} {key : Text} {limit : Nat}

theorem mentioned_eq (table : TypeTable) (plans : List Plan) : mentioned table plans =
    table.entries.flatMap TypeDef.mentions ++ plans.flatMap fun plan =>
      plan.declaration.returnType.keys ++ plan.declaration.parameters.flatMap (·.type.keys) := by
  unfold mentioned
  congr 2
  funext d
  cases d <;> rfl

theorem writing_snd (speller : Speller) (definitions : List TypeDef) :
    (speller.writing definitions).map Prod.snd = definitions := by
  induction definitions generalizing speller with
  | nil => rfl
  | cons d rest ih => rw [writing, List.map_cons, ih]

/-- Every site has the speller that the definitions before it have left. -/
theorem sites_speller {s : Speller × List Text} (h : s ∈ table.sites plans) :
    ∃ before after, table.entries = before ++ after ∧ s.1 = before.foldl Speller.after (.ofTable table) := by
  rcases List.mem_append.1 h with h | h
  · obtain ⟨w, hw, rfl⟩ := List.mem_map.1 h
    obtain ⟨before, after, hsplit, hspeller⟩ := mem_writing_iff.1 (List.mem_filter.1 hw).1
    exact ⟨before, w.2 :: after, hsplit, hspeller⟩
  · rw [List.mem_singleton.1 h]
    exact ⟨table.entries, [], (List.append_nil _).symm, rfl⟩

theorem sites_table {s : Speller × List Text} (h : s ∈ table.sites plans) : s.1.table = table := by
  obtain ⟨before, after, -, hspeller⟩ := sites_speller h
  rw [hspeller, foldl_after_table]
  rfl

/-- What a site spells is mentioned. -/
theorem sites_mentioned {s : Speller × List Text} (h : s ∈ table.sites plans) (hkey : key ∈ s.2) :
    key ∈ mentioned table plans := by
  rw [mentioned_eq]
  rcases List.mem_append.1 h with h | h
  · obtain ⟨w, hw, rfl⟩ := List.mem_map.1 h
    exact List.mem_append_left _ (List.mem_flatMap.2 ⟨w.2, mem_of_mem_writing (List.mem_filter.1 hw).1, hkey⟩)
  · rw [List.mem_singleton.1 h] at hkey
    obtain ⟨plan, hplan, hkey⟩ := List.mem_flatMap.1 hkey
    refine List.mem_append_right _ (List.mem_flatMap.2 ⟨plan, hplan, ?_⟩)
    -- a stub spells its result more than once, but nothing else
    rcases List.mem_append.1 hkey with hkey | hkey
    · rcases List.mem_append.1 hkey with hkey | hkey
      · exact hkey
      · split at hkey
        · exact List.mem_append_left _ hkey
        · cases hkey
    · cases hr : plan.returns with
      | void => rw [hr] at hkey; cases hkey
      | storage => rw [hr] at hkey; cases hkey
      | register carriage => rw [hr] at hkey; exact List.mem_append_left _ hkey
      | registerPair image => rw [hr] at hkey; exact List.mem_append_left _ hkey

/-- What is written in place is an anonymous definition of the table. -/
theorem inlined_entry {d : Tagged} (h : d ∈ table.inlined plans limit) :
    d.toTypeDef ∈ table.entries ∧ d.toTypeDef.isAnonymous = true := by
  obtain ⟨s, hs, hd⟩ := List.mem_flatMap.1 h
  obtain ⟨key, -, hd⟩ := List.mem_flatMap.1 hd
  have hentry := (inlined?_entry (inlined?_of_mem hd)).2
  rwa [sites_table hs] at hentry

/-- The sites write what their spellers write, since the bound is that of the table. -/
theorem inlined_limit (table : TypeTable) (plans : List Plan) :
    table.inlined plans (table.entries.length + 1) = (table.sites plans).flatMap fun s => s.1.bodies s.2 := by
  refine List.flatMap_congr fun s hs => ?_
  rw [Speller.bodies, Speller.limit, sites_table hs]

theorem mem_ownBodies {d : Tagged} : d ∈ table.ownBodies plans ↔
    d.toTypeDef ∈ table.entries ∧ d.toTypeDef.isWritten (mentioned table plans) = true := by
  unfold ownBodies
  rw [List.mem_filterMap]
  constructor
  · rintro ⟨e, he, hd⟩
    rw [Tagged.ofTypeDef?_eq_some.1 hd]
    exact List.mem_filter.1 he
  · intro h
    exact ⟨_, List.mem_filter.2 h, Tagged.ofTypeDef?_eq_some.2 rfl⟩

/-- An anonymous definition that is written on its own is an enum, and mentions nothing. -/
theorem mentions_of_written {d : TypeDef} {keys : List Text} (hwritten : d.isWritten keys = true)
    (hanon : d.isAnonymous = true) : d.mentions = [] := by
  cases d with
  | record r =>
    have htag : r.anonymous = true := hanon
    simp [TypeDef.isWritten, htag] at hwritten
  | enumeration e => rfl
  | typedef a => cases hanon

/-- What is written is a definition of the table. -/
theorem bodies_entry {d : Tagged} (h : d ∈ table.ownBodies plans ++ table.inlined plans limit) :
    d.toTypeDef ∈ table.entries := by
  rcases List.mem_append.1 h with h | h
  · exact (mem_ownBodies.1 h).1
  · exact (inlined_entry h).1

end TypeTable

namespace Header

open TypeSection TypeTable

variable {corpus : Corpus} {plans : List Plan} {settings : Settings} {outputName written : Text} {header : Draft}

theorem entryNotes_bodies (keys : List Text) (speller : Speller) (d : TypeDef) :
    ((entryNotes keys speller d).filterMap Note.body?).Perm
      (if d.isWritten keys then speller.definitionBodies d else []) := by
  unfold entryNotes
  split
  · rw [Note.filterMap_wrap]
    exact speller.definitionDraft_bodies d
  · exact .nil

/-- **The bodies of a header** are those that its definitions write of their own, and those that are written in
place. -/
theorem Drafted.bodies (h : Drafted corpus plans written header) : header.bodies.Perm
    (corpus.table.ownBodies plans ++ corpus.table.inlined plans (corpus.table.entries.length + 1)) := by
  have hconstants : (corpus.constants.map fun c => Note.constant c.1).filterMap Note.body? = [] :=
    List.filterMap_eq_nil_iff.2 fun note hnote => by
      obtain ⟨c, -, rfl⟩ := List.mem_map.1 hnote
      rfl
  refine (h.notes.filterMap Note.body?).trans ?_
  rw [List.filterMap_append, List.filterMap_append, hconstants, List.nil_append, List.filterMap_flatMap,
    Note.filterMap_bodies]
  -- every definition writes its own body and those in place of its mentions
  have hentries : (((Speller.ofTable corpus.table).writing corpus.table.entries).flatMap fun w =>
      (entryNotes (mentioned corpus.table plans) w.1 w.2).filterMap Note.body?).Perm
      ((((Speller.ofTable corpus.table).writing corpus.table.entries).filter fun w =>
        w.2.isWritten (mentioned corpus.table plans)).flatMap fun w => w.1.definitionBodies w.2) := by
    generalize (Speller.ofTable corpus.table).writing corpus.table.entries = writing
    induction writing with
    | nil => exact .nil
    | cons w rest ih =>
      rw [List.flatMap_cons, List.filter_cons]
      have hw := entryNotes_bodies (mentioned corpus.table plans) w.1 w.2
      split
      · next hwritten =>
        rw [if_pos hwritten] at hw
        exact hw.append ih
      · next hskipped =>
        rw [if_neg hskipped] at hw
        exact (hw.append ih)
  refine (hentries.append_right _).trans ?_
  refine ((List.flatMap_append_perm _ _ _).symm.append_right _).trans ?_
  rw [List.append_assoc]
  refine List.Perm.of_eq (congr (congrArg _ ?_) ?_)
  · have hentries := writing_snd (.ofTable corpus.table) corpus.table.entries
    unfold ownBodies
    rw [← hentries, List.filter_map, List.filterMap_map, List.filterMap_eq_flatMap_toList]
    simp only [hentries]
    rfl
  · rw [inlined_limit, sites, List.flatMap_append, List.flatMap_map, List.flatMap_singleton]

end Header

end TrapStub
