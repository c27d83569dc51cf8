import TrapStub.Proofs.Header.Bodies

/-!
# The types section as a draft

Every definition is written by the speller that the definitions before it have left, and what it writes are its
own body and the bodies that its mentions lead to.

* `Speller.after`, `Speller.writing`: the spellers along the section. `TypeSection.entriesFrom_eq_ok`: its entries
  are those of the definitions, each by its own speller.
* `TypeSection.draft`: the section as a draft. `TypeSection.lines_drafted`: **it reads as the section does, and
  its notes are those of the definitions that are written, each inside its packing.**
* `Speller.named_by`: **where a definition has a name, a typedef wrote its body before.**
-/

namespace TrapStub

open Draft

/-- The note at the start of a definition: its body, if it has one. -/
def TypeDef.note : TypeDef → Note
  | record r => .body (.record r)
  | enumeration e => .body (.enumeration e)
  | typedef a => .typedef a

/-- The definition is written on its own, given the keys that are mentioned anywhere. -/
def TypeDef.isWritten (mentioned : List Text) : TypeDef → Bool
  | record r => !(r.anonymous || !r.isComplete)
  | enumeration e => !(e.anonymous && mentioned.contains e.key)
  | typedef _ => true

namespace Speller

open TypeSection

/-- The speller after a definition: a typedef may have named an anonymous one. -/
def after (speller : Speller) : TypeDef → Speller
  | .typedef a =>
    match namedFirst? speller a with
    | none => speller
    | some (key, _) => speller.give key a.key
  | _ => speller

/-- Some definitions in order, each with the speller that writes it. -/
def writing (speller : Speller) : List TypeDef → List (Speller × TypeDef)
  | [] => []
  | d :: rest => (speller, d) :: writing (speller.after d) rest

/-- The packing that a definition is written under. -/
def packing (speller : Speller) : TypeDef → Option Int
  | .record r => packOf r.pack
  | .enumeration _ => none
  | .typedef a =>
    match namedFirst? speller a with
    | some (_, .record r) => packOf r.pack
    | _ => none

/-- A definition with its semicolon. -/
def definitionDraft (speller : Speller) : TypeDef → Draft
  | .record r => speller.bodyDraft 0 (.record r) ++ plain ";"
  | .enumeration e => speller.bodyDraft 0 (.enumeration e) ++ plain ";"
  | .typedef a =>
    mark (.typedef a) ++ plain "typedef " ++ speller.declareDraft 0 a.target (plain a.key) ++ plain ";"

variable {speller : Speller} {d : TypeDef}

/-- The bodies that a definition writes: its own, if it has one, and those that its mentions lead to. -/
def definitionBodies (speller : Speller) (d : TypeDef) : List Tagged :=
  (Tagged.ofTypeDef? d).toList ++ speller.bodies d.mentions

theorem definitionDraft_notes (speller : Speller) (d : TypeDef) :
    (notes (speller.definitionDraft d)).Perm (d.note :: Note.bodies (speller.bodies d.mentions)) := by
  cases d with
  | record r =>
    rw [definitionDraft, notes_append, notes_plain, List.append_nil]
    exact bodyDraft_bodies speller 0 (.record r)
  | enumeration e =>
    rw [definitionDraft, notes_append, notes_plain, List.append_nil]
    exact bodyDraft_bodies speller 0 (.enumeration e)
  | typedef a =>
    simp only [definitionDraft, notes_append, notes_plain, notes_mark, List.append_nil, List.singleton_append]
    refine List.Perm.cons _ ((declareDraft_bodies speller 0 a.target (plain a.key)).trans (List.Perm.of_eq ?_))
    rw [notes_plain, List.append_nil]
    rfl

theorem definitionDraft_bodies (speller : Speller) (d : TypeDef) :
    ((notes (speller.definitionDraft d)).filterMap Note.body?).Perm (speller.definitionBodies d) := by
  refine ((definitionDraft_notes speller d).filterMap Note.body?).trans (List.Perm.of_eq ?_)
  unfold definitionBodies
  cases d with
  | record r => exact congrArg (_ :: ·) (Note.filterMap_bodies _)
  | enumeration e => exact congrArg (_ :: ·) (Note.filterMap_bodies _)
  | typedef a => exact Note.filterMap_bodies _

theorem nameOf?_give (speller : Speller) (key name : Text) : (speller.give key name).nameOf? key = some name := by
  unfold nameOf? give
  rw [List.lookup_cons, beq_self_eq_true]

theorem nameOf?_give_of_ne {key other : Text} (h : key ≠ other) (name : Text) :
    (speller.give other name).nameOf? key = speller.nameOf? key := by
  unfold nameOf? give
  rw [List.lookup_cons, beq_false_of_ne h]

/-- The definition that a typedef is the first to name is the one that it writes in full. -/
theorem namedFirst?_eq_some {a : Typedef} {key : Text} {definition : Tagged} :
    namedFirst? speller a = some (key, definition) ↔
      a.target.unqualified = .named key ∧ speller.inlined? key = some definition := by
  unfold namedFirst?
  cases ht : a.target.unqualified with
  | named k =>
    have hmap : (if (speller.nameOf? k).isSome then none
        else (speller.anonymous? k).map fun d => (k, d)) = (speller.inlined? k).map fun d => (k, d) := by
      unfold inlined?
      split <;> rfl
    simp only [hmap]
    constructor
    · intro h
      obtain ⟨d, hd, hpair⟩ := Option.map_eq_some_iff.1 h
      cases hpair
      exact ⟨rfl, hd⟩
    · rintro ⟨h, hd⟩
      cases h
      rw [hd]
      rfl
  | void => simp
  | scalar type => simp
  | pointer target => simp
  | array element length => simp
  | function result parameters variadic => simp
  | qualified base const volatile => simp

theorem after_of_none {a : Typedef} (h : namedFirst? speller a = none) : speller.after (.typedef a) = speller := by
  rw [after, h]

theorem after_of_some {a : Typedef} {key : Text} {definition : Tagged}
    (h : namedFirst? speller a = some (key, definition)) : speller.after (.typedef a) = speller.give key a.key := by
  rw [after, h]

@[simp] theorem after_table (speller : Speller) (d : TypeDef) : (speller.after d).table = speller.table := by
  unfold after
  split
  · split <;> rfl
  · rfl

theorem writing_append (speller : Speller) (a b : List TypeDef) :
    speller.writing (a ++ b) = speller.writing a ++ (a.foldl after speller).writing b := by
  induction a generalizing speller with
  | nil => rfl
  | cons d a ih => rw [List.cons_append, writing, writing, ih, List.foldl_cons, List.cons_append]

theorem foldl_after_table (speller : Speller) (definitions : List TypeDef) :
    (definitions.foldl after speller).table = speller.table := by
  induction definitions generalizing speller with
  | nil => rfl
  | cons d rest ih => rw [List.foldl_cons, ih, after_table]

/-- Every definition is written by the speller that those before it have left. -/
theorem mem_writing_iff {definitions : List TypeDef} {w : Speller × TypeDef} :
    w ∈ speller.writing definitions ↔
      ∃ before after, definitions = before ++ w.2 :: after ∧ w.1 = before.foldl Speller.after speller := by
  constructor
  · induction definitions generalizing speller with
    | nil => exact nofun
    | cons d rest ih =>
      intro h
      rcases List.mem_cons.1 h with rfl | h
      · exact ⟨[], rest, rfl, rfl⟩
      · obtain ⟨before, after, rfl, hw⟩ := ih h
        exact ⟨d :: before, after, rfl, hw⟩
  · rintro ⟨before, after, rfl, hw⟩
    rw [writing_append, ← hw]
    exact List.mem_append_right _ List.mem_cons_self

theorem mem_of_mem_writing {definitions : List TypeDef} {w : Speller × TypeDef}
    (h : w ∈ speller.writing definitions) : w.2 ∈ definitions := by
  obtain ⟨before, after, rfl, -⟩ := mem_writing_iff.1 h
  exact List.mem_append_right _ List.mem_cons_self

theorem mem_writing_of_mem (speller : Speller) {definitions : List TypeDef} (h : d ∈ definitions) :
    ∃ w ∈ speller.writing definitions, w.2 = d := by
  obtain ⟨before, after, hsplit⟩ := List.append_of_mem h
  exact ⟨(before.foldl Speller.after speller, d), mem_writing_iff.2 ⟨before, after, hsplit, rfl⟩, rfl⟩

/-- **A name was given by a typedef that wrote the body.** -/
theorem named_by {definitions : List TypeDef} {key name : Text}
    (h : (definitions.foldl after speller).nameOf? key = some name) :
    speller.nameOf? key = some name ∨ ∃ sp a definition, (sp, .typedef a) ∈ speller.writing definitions ∧
      a.target.unqualified = .named key ∧ sp.inlined? key = some definition := by
  induction definitions generalizing speller with
  | nil => exact Or.inl h
  | cons d rest ih =>
    rcases ih h with hd | ⟨sp, a, definition, hmem, hnamed⟩
    · -- either the definition leaves the name as it is, or it gives one
      by_cases hsame : speller.nameOf? key = some name
      · exact Or.inl hsame
      · cases d with
        | record r => exact absurd hd hsame
        | enumeration e => exact absurd hd hsame
        | typedef a =>
          cases hnamed : namedFirst? speller a with
          | none => exact absurd (after_of_none hnamed ▸ hd) hsame
          | some named =>
            obtain ⟨k, definition⟩ := named
            rw [after_of_some hnamed] at hd
            by_cases hk : key = k
            · subst hk
              exact Or.inr ⟨speller, a, definition, List.mem_cons_self, namedFirst?_eq_some.1 hnamed⟩
            · exact absurd (nameOf?_give_of_ne hk a.key ▸ hd) hsame
    · exact Or.inr ⟨sp, a, definition, List.mem_cons_of_mem _ hmem, hnamed⟩

end Speller

namespace TypeSection

open Speller

variable {comments : Bool} {mentioned : List Text} {speller last next : Speller} {d : TypeDef}

/-- The entry is that of a definition. -/
structure IsEntry (speller : Speller) (d : TypeDef) (entry : TypeEntry) : Prop where
  text : text (speller.definitionDraft d) = entry.text
  pack : entry.pack = speller.packing d
  spells : speller.Spells d.mentions

/-- **What an entry is**, and the speller after it. -/
theorem entryOf_cases {entry : Option TypeEntry} (h : entryOf comments mentioned speller d = .ok (entry, next)) :
    next = speller.after d ∧
      (d.isWritten mentioned = false ∧ entry = none ∨
        d.isWritten mentioned = true ∧ ∃ e, entry = some e ∧ IsEntry speller d e) := by
  cases d with
  | record _ | enumeration _ =>
    rw [entryOf] at h
    split at h
    · next hskip =>
      cases h
      exact ⟨rfl, Or.inl ⟨by rw [TypeDef.isWritten, hskip]; rfl, rfl⟩⟩
    · next hwrite =>
      obtain ⟨body, hbody, h⟩ := bind_eq_ok.1 h
      cases h
      refine ⟨rfl, Or.inr ⟨by rw [TypeDef.isWritten, eq_false_of_ne_true hwrite]; rfl, _, rfl, ?_⟩⟩
      refine ⟨?_, rfl, spells_of_body hbody⟩
      rw [definitionDraft, text_append, bodyDraft_text hbody, text_plain]
  | typedef a =>
    rw [entryOf] at h
    obtain ⟨declared, hdeclared, h⟩ := bind_eq_ok.1 h
    have hspells := spells_of_declare hdeclared
    have htext : text (speller.definitionDraft (.typedef a)) = "typedef " ++ declared ++ ";" := by
      have hname : speller.declare 0 a.target (text (plain a.key)) = .ok declared := by rwa [text_plain]
      simp [definitionDraft, declareDraft_text hname]
    cases hnamed : namedFirst? speller a with
    | none =>
      simp only [hnamed] at h
      cases h
      exact ⟨(after_of_none hnamed).symm, Or.inr ⟨rfl, _, rfl, htext, by rw [packing, hnamed], hspells⟩⟩
    | some named =>
      obtain ⟨key, definition⟩ := named
      cases definition with
      | enumeration e =>
        simp only [hnamed] at h
        cases h
        exact ⟨(after_of_some hnamed).symm, Or.inr ⟨rfl, _, rfl, htext, by rw [packing, hnamed], hspells⟩⟩
      | record r =>
        simp only [hnamed] at h
        cases h
        exact ⟨(after_of_some hnamed).symm, Or.inr ⟨rfl, _, rfl, htext, by rw [packing, hnamed], hspells⟩⟩

/-- **The entries of a section** are those of its definitions, each by the speller before it. -/
theorem entriesFrom_eq_ok {definitions : List TypeDef} {entries : List TypeEntry}
    (h : entriesFrom comments mentioned speller definitions = .ok (entries, last)) :
    last = definitions.foldl Speller.after speller ∧ ∃ parts,
      List.Forall₂ (fun w part => entryOf comments mentioned w.1 w.2 = .ok (part, w.1.after w.2))
        (speller.writing definitions) parts ∧ entries = parts.flatMap Option.toList := by
  induction definitions generalizing speller entries with
  | nil =>
    cases h
    exact ⟨rfl, [], .nil, rfl⟩
  | cons d rest ih =>
    rw [entriesFrom] at h
    obtain ⟨⟨part, next⟩, hpart, h⟩ := bind_eq_ok.1 h
    obtain ⟨⟨later, last'⟩, hlater, h⟩ := bind_eq_ok.1 h
    cases h
    obtain rfl := (entryOf_cases hpart).1
    obtain ⟨hlast, parts, hparts, rfl⟩ := ih hlater
    exact ⟨hlast, part :: parts, .cons hpart hparts, rfl⟩

end TypeSection

/-- Notes inside a packing, if there is one. -/
def Note.wrap (packing : Option Int) (inner : List Note) : List Note :=
  (packing.map Note.push).toList ++ inner ++ (packing.map fun _ => Note.pop).toList

/-- A packing adds no bodies. -/
theorem Note.filterMap_wrap (packing : Option Int) (inner : List Note) :
    (wrap packing inner).filterMap body? = inner.filterMap body? := by
  cases packing with
  | none => exact congrArg (List.filterMap body?) (List.append_nil inner)
  | some n =>
    show (push n :: (inner ++ [pop])).filterMap body? = inner.filterMap body?
    rw [List.filterMap_cons_none rfl, List.filterMap_append, List.filterMap_cons_none rfl, List.filterMap_nil,
      List.append_nil]

/-- The lines of an entry, given the draft of its definition. -/
def TypeEntry.draftLines (entry : TypeEntry) (definition : Draft) : List Draft :=
  let (opening, closing) : List Draft × List Draft := match entry.pack with
    | none => ([], [])
    | some n =>
      ([mark (.push n) ++ plain ("#pragma pack(push, " ++ Text.decimal n ++ ")")],
       [plain "#pragma pack(pop)" ++ mark .pop])
  [[]] ++ entry.comment.map plain ++ opening ++ [definition] ++ closing ++ entry.pins.map plain

theorem Draft.map_text_plain (lines : List Text) : (lines.map plain).map text = lines := by
  rw [List.map_map]
  exact (List.map_congr_left fun t _ => text_plain t).trans lines.map_id

theorem Draft.flatMap_notes_plain (lines : List Text) : (lines.map plain).flatMap notes = [] := by
  rw [List.flatMap_map]
  exact List.flatMap_eq_nil_iff.2 fun t _ => notes_plain t

theorem TypeEntry.draftLines_text {entry : TypeEntry} {definition : Draft} (h : Draft.text definition = entry.text) :
    (entry.draftLines definition).map Draft.text = entry.lines := by
  unfold draftLines TypeEntry.lines
  cases entry.pack with
  | none => simp [-List.map_map, h, map_text_plain]
  | some n => simp [-List.map_map, h, map_text_plain]

theorem TypeEntry.draftLines_notes (entry : TypeEntry) (definition : Draft) :
    (entry.draftLines definition).flatMap notes = Note.wrap entry.pack (notes definition) := by
  unfold draftLines Note.wrap
  cases entry.pack with
  | none => simp [flatMap_notes_plain]
  | some n => simp [flatMap_notes_plain]

namespace TypeSection

open Speller

/-- The lines of one definition, none if it is not written on its own. -/
def entryDraft (comments : Bool) (mentioned : List Text) (speller : Speller) (d : TypeDef) :
    Except Fault (List Draft) := do
  let (entry, _) ← entryOf comments mentioned speller d
  return entry.toList.flatMap (·.draftLines (speller.definitionDraft d))

/-- The lines of the section and the speller after it. -/
def draft (comments : Bool) (table : TypeTable) (plans : List Plan) : Except Fault (List Draft × Speller) := do
  let parts ← ((Speller.ofTable table).writing table.entries).mapM fun w =>
    entryDraft comments (mentioned table plans) w.1 w.2
  return ((forwards table).map plain ++ parts.flatten, table.entries.foldl Speller.after (.ofTable table))

/-- The notes of one definition in the section. -/
def entryNotes (mentioned : List Text) (speller : Speller) (d : TypeDef) : List Note :=
  if d.isWritten mentioned then Note.wrap (speller.packing d) (notes (speller.definitionDraft d)) else []

/-- What the draft of a section is. -/
structure Drafted (table : TypeTable) (plans : List Plan) (written : List Text) (last : Speller)
    (lines : List Draft) : Prop where
  last : last = table.entries.foldl Speller.after (.ofTable table)
  text : lines.map text = written
  notes : lines.flatMap notes = ((Speller.ofTable table).writing table.entries).flatMap fun w =>
    entryNotes (mentioned table plans) w.1 w.2
  spells : ∀ w ∈ (Speller.ofTable table).writing table.entries,
    w.2.isWritten (mentioned table plans) = true → w.1.Spells w.2.mentions

variable {comments : Bool} {mentioned : List Text} {speller last : Speller} {d : TypeDef} {table : TypeTable}
  {plans : List Plan}

/-- A definition that is written has its own note. -/
theorem note_mem_entryNotes (hwritten : d.isWritten mentioned = true) : d.note ∈ entryNotes mentioned speller d := by
  have hnote : d.note ∈ notes (speller.definitionDraft d) :=
    (speller.definitionDraft_notes d).mem_iff.2 List.mem_cons_self
  rw [entryNotes, if_pos hwritten]
  exact List.mem_append_left _ (List.mem_append_right _ hnote)

/-- An entry that is made has a draft, which reads as the entry does. -/
theorem entryDraft_of_ok {part : Option TypeEntry}
    (h : entryOf comments mentioned speller d = .ok (part, speller.after d)) :
    ∃ lines, entryDraft comments mentioned speller d = .ok lines ∧
      lines.map text = part.toList.flatMap TypeEntry.lines ∧
      lines.flatMap notes = entryNotes mentioned speller d ∧
      (d.isWritten mentioned = true → speller.Spells d.mentions) := by
  refine ⟨part.toList.flatMap (·.draftLines (speller.definitionDraft d)), by rw [entryDraft, h]; rfl, ?_⟩
  rcases (entryOf_cases h).2 with ⟨hwritten, rfl⟩ | ⟨hwritten, entry, rfl, hentry⟩
  · rw [entryNotes, hwritten]
    exact ⟨rfl, rfl, nofun⟩
  · simp only [Option.toList_some, List.flatMap_singleton]
    refine ⟨TypeEntry.draftLines_text hentry.text, ?_, fun _ => hentry.spells⟩
    rw [TypeEntry.draftLines_notes, hentry.pack, entryNotes, if_pos hwritten]

/-- So has every list of them. -/
theorem entries_drafted {writing : List (Speller × TypeDef)} {parts : List (Option TypeEntry)}
    (h : List.Forall₂ (fun w part => entryOf comments mentioned w.1 w.2 = .ok (part, w.1.after w.2)) writing parts) :
    ∃ drafts, (writing.mapM fun w => entryDraft comments mentioned w.1 w.2) = .ok drafts ∧
      drafts.flatten.map text = (parts.flatMap Option.toList).flatMap TypeEntry.lines ∧
      drafts.flatten.flatMap notes = writing.flatMap (fun w => entryNotes mentioned w.1 w.2) ∧
      ∀ w ∈ writing, w.2.isWritten mentioned = true → w.1.Spells w.2.mentions := by
  induction h with
  | nil => exact ⟨[], rfl, rfl, rfl, List.forall_mem_nil _⟩
  | @cons w part writing parts hpart _ ih =>
    obtain ⟨lines, hlines, htext, hnotes, hspells⟩ := entryDraft_of_ok hpart
    obtain ⟨drafts, hdrafts, htexts, hall, hrest⟩ := ih
    refine ⟨lines :: drafts, ?_, ?_, ?_, List.forall_mem_cons.2 ⟨hspells, hrest⟩⟩
    · rw [List.mapM_cons, hlines, hdrafts]
      rfl
    · rw [List.flatten_cons, List.map_append, htext, htexts, List.flatMap_cons, List.flatMap_append]
    · rw [List.flatten_cons, List.flatMap_append, hnotes, hall, List.flatMap_cons]

/-- **The draft of a section reads as the section does**, and notes what its definitions write. -/
theorem lines_drafted {written : List Text} (h : lines comments table plans = .ok (written, last)) :
    ∃ drafts, draft comments table plans = .ok (drafts, last) ∧ Drafted table plans written last drafts := by
  obtain ⟨⟨entries, last'⟩, hentries, h⟩ := bind_eq_ok.1 h
  cases h
  obtain ⟨hlast, parts, hparts, rfl⟩ := entriesFrom_eq_ok hentries
  obtain ⟨drafts, hdrafts, htext, hnotes, hspells⟩ := entries_drafted hparts
  refine ⟨(forwards table).map plain ++ drafts.flatten, ?_, hlast, ?_, ?_, hspells⟩
  · rw [draft, hdrafts, hlast]
    rfl
  · rw [List.map_append, map_text_plain, htext]
  · rw [List.flatMap_append, flatMap_notes_plain, hnotes, List.nil_append]

end TypeSection

end TrapStub
