import TrapStub.Proofs.Header.StubRegisters
import TrapStub.Header

/-!
# A header of a writable table is written

Each definition of the types section and each stub only fails as a type in it does, and the typedefs
that give names on the way leave the table as it is.

* `TypeSection.entriesFrom_ok`: the definitions are written.
* `Header.render_ok`: **the header is written.**
-/

namespace TrapStub

variable {speller next : Speller} {comments : Bool} {mentioned : List Text} {d : TypeDef}

/-- The definition of a record that has its members is written. -/
theorem Speller.body_ok (hw : speller.table.Writable) (depth : Nat) {r : Record} (hr : r.isComplete = true) :
    ∃ text, speller.body depth (.record r) = .ok text := by
  obtain ⟨members, hm⟩ := Option.isSome_iff_exists.1 hr
  exact Tagged.body_record_ok hm (fun m _ key _ => Speller.spell_ok hw (depth + 1) key) depth

namespace TypeSection

theorem entryOf_table {entry : Option TypeEntry} (h : entryOf comments mentioned speller d = .ok (entry, next)) :
    next.table = speller.table := by
  cases d with
  | record r =>
    rw [entryOf] at h
    split at h
    · cases h
      rfl
    · obtain ⟨text, -, h⟩ := bind_eq_ok.1 h
      cases h
      rfl
  | enumeration e =>
    rw [entryOf] at h
    split at h
    · cases h
      rfl
    · obtain ⟨text, -, h⟩ := bind_eq_ok.1 h
      cases h
      rfl
  | typedef a =>
    rw [entryOf] at h
    obtain ⟨text, -, h⟩ := bind_eq_ok.1 h
    split at h <;> cases h <;> rfl

theorem entryOf_ok (d : TypeDef) (hw : speller.table.Writable) :
    ∃ r, entryOf comments mentioned speller d = .ok r := by
  cases d with
  | record r =>
    rw [entryOf]
    split
    · exact ⟨_, rfl⟩
    · rename_i h
      have hcomplete : r.isComplete = true := by
        by_contra hr
        exact h (by simp [hr])
      obtain ⟨text, ht⟩ := Speller.body_ok hw 0 hcomplete
      exact ⟨_, by rw [ht]; rfl⟩
  | enumeration e =>
    rw [entryOf]
    split
    · exact ⟨_, rfl⟩
    · exact ⟨_, rfl⟩
  | typedef a =>
    obtain ⟨text, ht⟩ := Speller.declare_ok hw 0 a.target a.key
    rw [entryOf, ht, ok_bind]
    dsimp only
    split
    · exact ⟨_, rfl⟩
    · exact ⟨_, rfl⟩
    · exact ⟨_, rfl⟩

/-- **The definitions are written** one after the other, under the table they started with. -/
theorem entriesFrom_ok (hw : speller.table.Writable) (definitions : List TypeDef) :
    ∃ entries next, entriesFrom comments mentioned speller definitions = .ok (entries, next) ∧
      next.table = speller.table := by
  induction definitions generalizing speller with
  | nil => exact ⟨[], speller, rfl, rfl⟩
  | cons d rest ih =>
    obtain ⟨⟨entry, after⟩, hentry⟩ : ∃ r, entryOf comments mentioned speller d = .ok r := entryOf_ok d hw
    have htable := entryOf_table hentry
    obtain ⟨entries, next, hrest, hnext⟩ := ih (htable ▸ hw)
    have hall : entriesFrom comments mentioned speller (d :: rest) = .ok (entry.toList ++ entries, next) := by
      rw [entriesFrom, hentry, ok_bind]
      dsimp only
      rw [hrest]
      rfl
    exact ⟨_, next, hall, hnext.trans htable⟩

end TypeSection

namespace Header

theorem typeLines_ok (comments : Bool) {table : TypeTable} (hw : table.Writable) (plans : List Plan) :
    ∃ lines next, typeLines comments table plans = .ok (lines, next) ∧ next.table = table := by
  unfold typeLines
  split
  · exact ⟨[], _, rfl, rfl⟩
  · have hspeller : (Speller.ofTable table).table.Writable := hw
    obtain ⟨entries, next, hentries, hnext⟩ : ∃ entries next, TypeSection.entriesFrom comments
        (TypeSection.mentioned table plans) (.ofTable table) table.entries = .ok (entries, next) ∧
        next.table = table := TypeSection.entriesFrom_ok hspeller table.entries
    have hlines : TypeSection.lines comments table plans =
        .ok (TypeSection.forwards table ++ entries.flatMap TypeEntry.lines, next) := by
      unfold TypeSection.lines TypeSection.entries
      rw [hentries]
      rfl
    exact ⟨_, next, by rw [hlines]; rfl, hnext⟩

/-- **A header of a writable table is written**, whatever the plans and the settings. -/
theorem render_ok {corpus : Corpus} (hw : corpus.table.Writable) (plans : List Plan) (settings : Settings)
    (name : Text) :
    ∃ text, render corpus plans settings name = .ok text := by
  obtain ⟨types, next, htypes, hnext⟩ := typeLines_ok settings.comments hw plans
  have hstubs : ∀ plan ∈ plans, ∃ stub, Stub.ofPlan settings.comments next plan = .ok stub :=
    fun plan _ => Stub.ofPlan_ok settings.comments (hnext ▸ hw) plan
  obtain ⟨stubs, hstubs⟩ := mapM_ok hstubs
  unfold render
  rw [htypes, ok_bind]
  dsimp only
  rw [hstubs]
  exact ⟨_, rfl⟩

theorem render_ne_error {corpus : Corpus} (hw : corpus.table.Writable) {plans : List Plan} {settings : Settings}
    {name : Text}
    {fault : Fault} : render corpus plans settings name ≠ .error fault := by
  obtain ⟨text, htext⟩ := render_ok hw plans settings name
  rw [htext]
  nofun

end Header

end TrapStub
