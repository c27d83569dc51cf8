import TrapStub.Proofs.Header.SectionDraft

/-!
# Bodies and their packing

A packing holds for a whole definition. A record that is written inside another definition is read under the
packing of that one, which need not be its own.

* `Note.placed`: the bodies of a header, each with the innermost packing that is open where it stands.
* `TypeSection.mem_placed`: **a body stands under the packing of the definition that writes it.**
* `TypeTable.PackedAlike`: every record is written inside a definition of its own packing.
* `TypeSection.packed_bodies`: **the records stand under their packings exactly where that is so.**
-/

namespace TrapStub

open Draft

/-- The packing that a definition was laid out under, if it is a record that was. -/
def Tagged.pack : Tagged → Option Int
  | record r => r.pack
  | enumeration _ => none

namespace Note

/-- The bodies among some notes, each with the innermost packing that is open at it. -/
def placed (packings : List Int) : List Note → List (Tagged × Option Int)
  | [] => []
  | .body definition :: rest => (definition, packings.head?) :: placed packings rest
  | .push n :: rest => placed (n :: packings) rest
  | .pop :: rest => placed packings.tail rest
  | .constant _ :: rest => placed packings rest
  | .typedef _ :: rest => placed packings rest

/-- The note leaves the packing as it is. -/
def isFlat : Note → Bool
  | push _ => false
  | pop => false
  | _ => true

theorem placed_flat {packings : List Int} {inner : List Note} (h : ∀ note ∈ inner, note.isFlat = true)
    (rest : List Note) : placed packings (inner ++ rest) =
      (inner.filterMap body?).map (fun definition => (definition, packings.head?)) ++ placed packings rest := by
  induction inner with
  | nil => rfl
  | cons note inner ih =>
    have hrest := ih fun n hn => h n (List.mem_cons_of_mem note hn)
    have hnote := h note List.mem_cons_self
    cases note with
    | body definition => exact congrArg (_ :: ·) hrest
    | constant name => exact hrest
    | typedef a => exact hrest
    | push n => cases hnote
    | pop => cases hnote

/-- What stands inside a packing is placed under it, and what follows as if it were not there. -/
theorem placed_wrap {packing : Option Int} {inner : List Note} (h : ∀ note ∈ inner, note.isFlat = true)
    (rest : List Note) : placed [] (wrap packing inner ++ rest) =
      (inner.filterMap body?).map (fun definition => (definition, packing)) ++ placed [] rest := by
  cases packing with
  | none =>
    rw [show wrap none inner = inner from List.append_nil _]
    exact placed_flat h rest
  | some n =>
    have hwrap : wrap (some n) inner ++ rest = .push n :: (inner ++ .pop :: rest) := by simp [wrap]
    rw [hwrap, placed, placed_flat h]
    rfl

/-- Every record that was laid out under a packing stands under that packing. -/
def UnderOwnPacking (notes : List Note) : Prop :=
  ∀ p ∈ placed [] notes, p.1.pack.isSome = true → p.2 = p.1.pack

instance (notes : List Note) : Decidable (UnderOwnPacking notes) := inferInstanceAs (Decidable (∀ _ ∈ _, _))

end Note

theorem Speller.definitionDraft_flat (speller : Speller) (d : TypeDef) :
    ∀ note ∈ notes (speller.definitionDraft d), note.isFlat = true := by
  intro note hnote
  rcases List.mem_cons.1 ((definitionDraft_notes speller d).mem_iff.1 hnote) with rfl | hbody
  · cases d <;> rfl
  · obtain ⟨definition, -, rfl⟩ := List.mem_map.1 hbody
    rfl

namespace TypeSection

open Speller

variable {comments : Bool} {table : TypeTable} {plans : List Plan} {written : List Text} {last : Speller}
  {drafts : List Draft}

/-- **A body stands under the packing of the definition that writes it.** -/
theorem mem_placed (h : Drafted table plans written last drafts) {definition : Tagged} {packing : Option Int} :
    (definition, packing) ∈ Note.placed [] (drafts.flatMap notes) ↔
      ∃ w ∈ (Speller.ofTable table).writing table.entries, w.2.isWritten (mentioned table plans) = true ∧
        definition ∈ w.1.definitionBodies w.2 ∧ packing = w.1.packing w.2 := by
  rw [h.notes]
  generalize (Speller.ofTable table).writing table.entries = writing
  induction writing with
  | nil =>
    constructor
    · exact fun hmem => absurd hmem List.not_mem_nil
    · exact fun ⟨_, hw, _⟩ => absurd hw List.not_mem_nil
  | cons w rest ih =>
    rw [List.flatMap_cons, List.exists_mem_cons_iff, ← ih]
    unfold entryNotes
    split
    · next hwritten =>
      rw [Note.placed_wrap (w.1.definitionDraft_flat w.2), List.mem_append]
      refine or_congr_left ⟨fun hmem => ?_, ?_⟩
      · obtain ⟨d, hd, hpair⟩ := List.mem_map.1 hmem
        cases hpair
        exact ⟨hwritten, (definitionDraft_bodies w.1 w.2).mem_iff.1 hd, rfl⟩
      · rintro ⟨-, hd, rfl⟩
        exact List.mem_map.2 ⟨definition, (definitionDraft_bodies w.1 w.2).mem_iff.2 hd, rfl⟩
    · next hskipped =>
      rw [List.nil_append]
      exact ⟨Or.inr, fun hmem => hmem.resolve_left fun hw => hskipped hw.1⟩

end TypeSection

/-- **Every record is written inside a definition of its own packing**: a tagged one has a packing that can be
written, and one that is written inside another definition has the packing of that. -/
structure TypeTable.PackedAlike (table : TypeTable) (plans : List Plan) : Prop where
  tagged : ∀ d ∈ table.entries, d.isWritten (TypeSection.mentioned table plans) = true →
    ∀ definition ∈ Tagged.ofTypeDef? d, definition.pack ≠ some 0
  inside : ∀ w ∈ (Speller.ofTable table).writing table.entries,
    w.2.isWritten (TypeSection.mentioned table plans) = true →
    ∀ definition ∈ w.1.bodies w.2.mentions, definition.pack.isSome = true → w.1.packing w.2 = definition.pack

namespace TypeSection

open Speller

variable {comments : Bool} {table : TypeTable} {plans : List Plan} {written : List Text} {last : Speller}
  {drafts : List Draft}

/-- A definition with a body of its own is written under the packing of that body, unless it is zero. -/
theorem packing_own {speller : Speller} {d : TypeDef} {definition : Tagged}
    (h : definition ∈ Tagged.ofTypeDef? d) : speller.packing d = packOf definition.pack := by
  cases d with
  | record r => cases h; rfl
  | enumeration e => cases h; rfl
  | typedef a => cases h

theorem packOf_eq_self {pack : Option Int} (h : pack ≠ some 0) : packOf pack = pack := by
  cases pack with
  | none => rfl
  | some n =>
    have hn : n ≠ 0 := fun h0 => h (congrArg some h0)
    simp [packOf, hn]

/-- **Records stand under their own packings exactly where they are packed alike.** -/
theorem underOwnPacking_iff (h : Drafted table plans written last drafts) :
    Note.UnderOwnPacking (drafts.flatMap notes) ↔ table.PackedAlike plans := by
  constructor
  · intro hown
    constructor
    · intro d hd hwritten definition hdefinition hzero
      obtain ⟨w, hw, rfl⟩ := mem_writing_of_mem (.ofTable table) hd
      have hmem : definition ∈ w.1.definitionBodies w.2 :=
        List.mem_append_left _ (Option.mem_toList.2 hdefinition)
      have hpacking := hown _ ((mem_placed h).2 ⟨w, hw, hwritten, hmem, rfl⟩) (by rw [hzero]; rfl)
      -- a packing of zero is not written
      rw [packing_own hdefinition, hzero] at hpacking
      cases hpacking
    · intro w hw hwritten definition hmem hpack
      exact hown _ ((mem_placed h).2 ⟨w, hw, hwritten, List.mem_append_right _ hmem, rfl⟩) hpack
  · rintro halike ⟨definition, p⟩ hplaced hpack
    obtain ⟨w, hw, hwritten, hmem, rfl⟩ := (mem_placed h).1 hplaced
    rcases List.mem_append.1 hmem with hown | hinside
    · have hdefinition := Option.mem_toList.1 hown
      rw [packing_own hdefinition]
      exact packOf_eq_self (halike.tagged _ (mem_of_mem_writing hw) hwritten _ hdefinition)
    · exact halike.inside w hw hwritten definition hinside hpack

/-- **The records of a types section stand under their own packings exactly where they are packed alike.** -/
theorem packed_bodies (h : lines comments table plans = .ok (written, last)) :
    ∃ drafts, draft comments table plans = .ok (drafts, last) ∧ drafts.map Draft.text = written ∧
      (Note.UnderOwnPacking (drafts.flatMap notes) ↔ table.PackedAlike plans) := by
  obtain ⟨drafts, hdrafts, hdrafted⟩ := lines_drafted h
  exact ⟨drafts, hdrafts, hdrafted.text, underOwnPacking_iff hdrafted⟩

end TypeSection

/-! The struct `struct s { struct { char c; int i; } a; int n; };` under a packing of one, and what it is without
its last member: all of its alignments are natural then, and it has no packing. -/

def packedInner : Record :=
  { key := "struct @a.h:2:12", kind := .struct, size := 5, align := 1, packed := false, aligned := false
    pack := some 1, anonymous := true, origin := "a.h", comment := none
    members := some [⟨"c", .scalar ⟨"char", 1, true, false⟩, none, some 0, false, none⟩,
      ⟨"i", .scalar ⟨"int", 4, true, false⟩, none, some 8, false, none⟩] }

def packedOuter : Record :=
  { key := "struct s", kind := .struct, size := 9, align := 1, packed := false, aligned := false
    pack := some 1, anonymous := false, origin := "a.h", comment := none
    members := some [⟨"a", .named "struct @a.h:2:12", none, some 0, false, none⟩,
      ⟨"n", .scalar ⟨"int", 4, true, false⟩, none, some 40, false, none⟩] }

def looseOuter : Record :=
  { packedOuter with
    size := 5, pack := none, members := some [⟨"a", .named "struct @a.h:2:12", none, some 0, false, none⟩] }

def packedTable : TypeTable := ⟨[.record packedInner, .record packedOuter], true⟩

def looseTable : TypeTable := ⟨[.record packedInner, .record looseOuter], true⟩

theorem packedTable_packed : ∃ written last drafts, TypeSection.lines true packedTable [] = .ok (written, last) ∧
    packedTable.PackedAlike [] ∧ TypeSection.draft true packedTable [] = .ok (drafts, last) ∧
    drafts.map Draft.text = written ∧ Note.UnderOwnPacking (drafts.flatMap notes) := by
  have hok : (TypeSection.lines true packedTable []).toOption.isSome = true := by decide
  obtain ⟨⟨written, last⟩, hlines⟩ := exists_of_isSome hok
  have halike : packedTable.PackedAlike [] := ⟨by decide, by decide⟩
  obtain ⟨drafts, hdrafts, htext, hpacked⟩ := TypeSection.packed_bodies hlines
  exact ⟨written, last, drafts, hlines, halike, hdrafts, htext, hpacked.2 halike⟩

/-- The inner struct has lost its packing: the struct around it has none. -/
theorem looseTable_unpacked : ∃ written last drafts, TypeSection.lines true looseTable [] = .ok (written, last) ∧
    TypeSection.draft true looseTable [] = .ok (drafts, last) ∧ drafts.map Draft.text = written ∧
    (.record packedInner, none) ∈ Note.placed [] (drafts.flatMap notes) ∧
    ¬ Note.UnderOwnPacking (drafts.flatMap notes) := by
  have hok : (TypeSection.lines true looseTable []).toOption.isSome = true := by decide
  obtain ⟨⟨written, last⟩, hlines⟩ := exists_of_isSome hok
  obtain ⟨drafts, hdrafts, hdrafted⟩ := TypeSection.lines_drafted hlines
  have hplaced : (.record packedInner, none) ∈ Note.placed [] (drafts.flatMap notes) :=
    (TypeSection.mem_placed hdrafted).2
      ⟨(.ofTable looseTable, .record looseOuter), .tail _ (.head _), by decide, .tail _ (.head _), by decide⟩
  exact ⟨written, last, drafts, hlines, hdrafts, hdrafted.text, hplaced, fun hown => by cases hown _ hplaced rfl⟩

end TrapStub
