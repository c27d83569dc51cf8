import TrapStub.Proofs.Header.Sites
import TrapStub.Proofs.Survey.Constants
import TrapStub.Proofs.Survey.Mentions

/-!
# Constants in the header

A constant may use enumerators, typedefs and other constants. The constants and the typedefs are all written, but
an anonymous enum only where something mentions it, if anything does, and an anonymous struct that mentions it may
be written nowhere.

* `TypeTable.Exposed`: the keys that are mentioned where something is written.
* `Header.Drafted.body_of_exposed`: **an anonymous definition that is exposed has its body in the header**, in place
  or at the typedef that names it.
* `Draft.Means`: a name means something to those who read the header.
* `Source.constants_stand`: **where every anonymous enum that is mentioned is exposed, every identifier of a constant
  means something.**
-/

namespace TrapStub

open Draft

namespace TypeTable

open Speller TypeSection

/-- The key is mentioned where something is written: by a definition with a name, by a stub, or inside an anonymous
definition whose own key is. -/
inductive Exposed (table : TypeTable) (plans : List Plan) : Text → Prop
  | written {d : TypeDef} {key : Text} (hd : d ∈ table.entries) (hanon : d.isAnonymous = false)
      (hkey : key ∈ d.mentions) : Exposed table plans key
  | stub {plan : Plan} {key : Text} (hplan : plan ∈ plans) (hkey : key ∈ plan.spelled) : Exposed table plans key
  | inside {outer : Tagged} {key : Text} (houter : Exposed table plans outer.key)
      (hd : outer.toTypeDef ∈ table.entries) (hanon : outer.toTypeDef.isAnonymous = true)
      (hkey : key ∈ outer.mentions) : Exposed table plans key

/-- Every anonymous enum that is mentioned is exposed. -/
def EnumsExposed (table : TypeTable) (plans : List Plan) : Prop :=
  ∀ e, .enumeration e ∈ table.entries → e.anonymous = true → e.key ∈ mentioned table plans →
    table.Exposed plans e.key

variable {table : TypeTable} {plans : List Plan} {key : Text} {d : TypeDef}

/-- A definition with a name that mentions anything is written on its own. -/
theorem isWritten_of_mentions (hanon : d.isAnonymous = false) (hkey : key ∈ d.mentions) (keys : List Text) :
    d.isWritten keys = true := by
  cases d with
  | enumeration e => cases hkey
  | typedef a => rfl
  | record r =>
    have htag : r.anonymous = false := hanon
    cases hmembers : r.members with
    | none =>
      rw [TypeDef.mentions, hmembers] at hkey
      cases hkey
    | some members => simp [TypeDef.isWritten, htag, Record.isComplete, hmembers]

/-- An anonymous definition is written in full until it has a name. -/
theorem inlined?_ofTable (hn : table.keys.Nodup) {d : Tagged} (hd : d.toTypeDef ∈ table.entries)
    (hanon : d.toTypeDef.isAnonymous = true) : (Speller.ofTable table).inlined? d.key = some d := by
  refine inlined?_eq_some.2 ⟨rfl, anonymous?_eq_some.2 ⟨d.toTypeDef, get?_of_mem hn hd, hanon, ?_⟩⟩
  exact Tagged.ofTypeDef?_eq_some.2 rfl

/-- At a site a key is written in full, unless a typedef before has done so. -/
theorem inlined?_site {s : Speller × List Text} (hs : s ∈ table.sites plans) {d : Tagged}
    (hd : (Speller.ofTable table).inlined? key = some d) : s.1.inlined? key = some d ∨
      ∃ sp a, (sp, .typedef a) ∈ (Speller.ofTable table).writing table.entries ∧
        a.target.unqualified = .named key ∧ sp.inlined? key = some d := by
  obtain ⟨-, hanon⟩ := inlined?_eq_some.1 hd
  -- all spellers of the section see the same table
  have hsame : ∀ sp : Speller, sp.table = table → sp.anonymous? key = some d := by
    intro sp hsp
    unfold anonymous? at hanon ⊢
    rwa [hsp]
  obtain ⟨before, after, hsplit, hspeller⟩ := sites_speller hs
  cases hname : s.1.nameOf? key with
  | none => exact Or.inl (inlined?_eq_some.2 ⟨hname, hsame s.1 (sites_table hs)⟩)
  | some name =>
    rw [hspeller] at hname
    rcases named_by hname with hnone | ⟨sp, a, definition, hmem, htarget, hinlined⟩
    · cases hnone
    · have hwriting : (sp, .typedef a) ∈ (Speller.ofTable table).writing table.entries := by
        rw [hsplit, writing_append]
        exact List.mem_append_left _ hmem
      obtain ⟨start, rest, -, hsp⟩ := mem_writing_iff.1 hwriting
      have htable : sp.table = table := by
        rw [show sp = start.foldl Speller.after (.ofTable table) from hsp, foldl_after_table]
        rfl
      have hdefinition := (inlined?_eq_some.1 hinlined).2
      rw [hsame sp htable] at hdefinition
      obtain rfl := Option.some.inj hdefinition
      exact Or.inr ⟨sp, a, hwriting, htarget, hinlined⟩

end TypeTable

namespace Header.Drafted

open TypeSection TypeTable

variable {corpus : Corpus} {plans : List Plan} {written : Text} {header : Draft} {s : Speller × List Text} {key : Text}
  {d : Tagged} (h : Drafted corpus plans written header)

include h

/-- Every site spells its keys. -/
theorem spells (hs : s ∈ corpus.table.sites plans) : s.1.Spells s.2 := by
  rcases List.mem_append.1 hs with hs | hs
  · obtain ⟨w, hw, rfl⟩ := List.mem_map.1 hs
    obtain ⟨hmem, hwritten⟩ := List.mem_filter.1 hw
    exact h.entries w hmem hwritten
  · rw [List.mem_singleton.1 hs]
    exact h.stubs

/-- The bodies of every site are in the header. -/
theorem mem_of_site (hs : s ∈ corpus.table.sites plans) (hd : d ∈ s.1.bodies s.2) : d ∈ header.bodies := by
  refine h.bodies.mem_iff.2 (List.mem_append_right _ ?_)
  rw [inlined_limit]
  exact List.mem_flatMap.2 ⟨s, hs, hd⟩

/-- What a site would write in full is in the header, there or at the typedef that has named it. -/
theorem mem_of_resolved (hs : s ∈ corpus.table.sites plans)
    (hd : (Speller.ofTable corpus.table).inlined? key = some d)
    (hsite : s.1.inlined? key = some d → d ∈ s.1.bodies s.2) : d ∈ header.bodies := by
  rcases inlined?_site hs hd with hinlined | ⟨sp, a, hwriting, htarget, hinlined⟩
  · exact h.mem_of_site hs (hsite hinlined)
  · have htypedef : (sp, a.target.keys) ∈ corpus.table.sites plans := by
      refine List.mem_append_left _ (List.mem_map.2 ⟨(sp, .typedef a), ?_, rfl⟩)
      exact List.mem_filter.2 ⟨hwriting, rfl⟩
    have hkey : key ∈ a.target.keys := CType.keys_of_unqualified htarget ▸ List.mem_singleton_self key
    exact h.mem_of_site htypedef (Speller.mem_bodies (h.spells htypedef) hkey hinlined)

/-- **An anonymous definition that is exposed has its body in the header.** -/
theorem body_of_exposed (hn : corpus.table.keys.Nodup) (hexposed : corpus.table.Exposed plans key)
    (hd : (Speller.ofTable corpus.table).inlined? key = some d) : d ∈ header.bodies := by
  induction hexposed generalizing d with
  | @written outer key houter hanon hkey =>
    obtain ⟨w, hw, rfl⟩ := (Speller.ofTable corpus.table).mem_writing_of_mem houter
    have hs : (w.1, w.2.mentions) ∈ corpus.table.sites plans := by
      refine List.mem_append_left _ (List.mem_map.2 ⟨w, ?_, rfl⟩)
      exact List.mem_filter.2 ⟨hw, isWritten_of_mentions hanon hkey _⟩
    exact h.mem_of_resolved hs hd fun hinlined => Speller.mem_bodies (h.spells hs) hkey hinlined
  | @stub plan key hplan hkey =>
    have hs : (corpus.table.entries.foldl Speller.after (.ofTable corpus.table), plans.flatMap Plan.spelled) ∈
        corpus.table.sites plans := List.mem_append_right _ (List.mem_singleton_self _)
    have hkey : key ∈ plans.flatMap Plan.spelled := List.mem_flatMap.2 ⟨plan, hplan, hkey⟩
    exact h.mem_of_resolved hs hd fun hinlined => Speller.mem_bodies (h.spells hs) hkey hinlined
  | @inside outer key _ hmem hanon hkey ih =>
    have houter := ih (inlined?_ofTable hn hmem hanon)
    rcases List.mem_append.1 (h.bodies.mem_iff.1 houter) with hown | hinlined
    · -- of the anonymous definitions only enums are written on their own
      have hnone := mentions_of_written (mem_ownBodies.1 hown).2 hanon
      rw [show outer.mentions = [] from hnone] at hkey
      cases hkey
    · rw [inlined_limit] at hinlined
      obtain ⟨s, hs, houter⟩ := List.mem_flatMap.1 hinlined
      exact h.mem_of_resolved hs hd fun hinlined => Speller.bodies_closed (h.spells hs) houter hkey hinlined

/-- **Every enum has its body in the header**, where those that are mentioned are exposed. -/
theorem enumeration_body (hn : corpus.table.keys.Nodup) (hexposed : corpus.table.EnumsExposed plans) {e : Enumeration}
    (he : .enumeration e ∈ corpus.table.entries) : .enumeration e ∈ header.bodies := by
  by_cases hown : (TypeDef.enumeration e).isWritten (mentioned corpus.table plans) = true
  · exact h.bodies.mem_iff.2 (List.mem_append_left _ (mem_ownBodies.2 ⟨he, hown⟩))
  · obtain ⟨hanon, hmention⟩ : e.anonymous = true ∧ e.key ∈ mentioned corpus.table plans := by
      simpa [TypeDef.isWritten] using hown
    have hinlined : (Speller.ofTable corpus.table).inlined? e.key = some (.enumeration e) :=
      inlined?_ofTable (d := .enumeration e) hn he hanon
    exact h.body_of_exposed hn (hexposed e he hanon hmention) hinlined

/-- Every typedef is written. -/
theorem typedef_noted {a : Typedef} (ha : .typedef a ∈ corpus.table.entries) :
    Note.typedef a ∈ Draft.notes header := by
  obtain ⟨⟨sp, d⟩, hw, rfl⟩ := (Speller.ofTable corpus.table).mem_writing_of_mem ha
  refine h.notes.mem_iff.2 (List.mem_append_left _ (List.mem_append_right _ ?_))
  exact List.mem_flatMap.2 ⟨_, hw, note_mem_entryNotes rfl⟩

/-- Every constant is written. -/
theorem constant_noted {c : Text × Text} (hc : c ∈ corpus.constants) : Note.constant c.1 ∈ Draft.notes header :=
  h.notes.mem_iff.2 (List.mem_append_left _ (List.mem_append_left _ (List.mem_map_of_mem hc)))

end Header.Drafted

/-- The name means something to those who read the header: it is a constant, a typedef or an enumerator that is
written there, or means the same everywhere. -/
inductive Draft.Means (header : Draft) (name : Text) : Prop
  | constant (h : .constant name ∈ notes header)
  | typedef {a : Typedef} (h : .typedef a ∈ notes header) (hkey : a.key = name)
  | enumerator {d : Tagged} (h : d ∈ header.bodies) (hname : name ∈ d.toTypeDef.enumerators)
  | universal (h : name ∈ universalNames)

namespace Source

/-- **Constants stand on their own.** Where every anonymous enum that is mentioned is exposed, every identifier in
the body of a constant means something in the header. -/
theorem constants_stand {source : Source} {interface : Interface} (h : source.interface = .ok interface)
    {corpus : Corpus} (htable : corpus.table = interface.table) (hconstants : corpus.constants = interface.constants)
    {plans : List Plan} {settings : Settings} {outputName written : Text}
    (hrender : Header.render corpus plans settings outputName = .ok written)
    (hexposed : interface.table.EnumsExposed plans) :
    corpus.constants = source.carried.map (fun m => (m.name, m.body)) ∧
    ∃ header, Header.draft corpus plans settings outputName = .ok header ∧ text header = written ∧
      ∀ m ∈ source.carried, ∀ name ∈ m.identifiers, header.Means name := by
  obtain ⟨header, hdraft, hdrafted⟩ := Header.render_drafted hrender
  obtain ⟨hcarried, huses⟩ := interface_carried h
  rw [hcarried] at hconstants
  rw [← htable] at hexposed huses
  have hn : corpus.table.keys.Nodup := htable ▸ interface_keys_nodup h
  refine ⟨hconstants, header, hdraft, hdrafted.text, fun m hm name hname => ?_⟩
  rcases huses m hm name hname with ⟨d, hd, hmem⟩ | ⟨a, ha, hkey⟩ | huniversal | ⟨c, hc, rfl⟩
  · cases d with
    | enumeration e => exact .enumerator (hdrafted.enumeration_body hn hexposed hd) hmem
    | record r => cases hmem
    | typedef a => cases hmem
  · exact .typedef (hdrafted.typedef_noted ha) hkey
  · exact .universal huniversal
  · refine .constant (hdrafted.constant_noted (c := (c.name, c.body)) ?_)
    rw [hconstants]
    exact List.mem_map_of_mem hc

end Source

/-! The header

    struct s { struct { enum { A, B } kind; } in; };
    #define X A
    #define Y (X + 1)

where one constant is an enumerator in the body of a struct inside a struct, and the other uses the first. -/

def nestedSource : Source :=
  { staged := ⟨[], [("a.h", Utf8.encode
      "struct s { struct { enum { A, B } kind; } in; };\n#define X A\n#define Y (X + 1)\n")], []⟩
    unit :=
      { top := [some 0, some 1, some 2], diagnostics := []
        cursors := #[
          { kind := .macroDefinition, spelling := "X", file := some "corpus/a.h", line := 2, column := 9
            tokens := [⟨.identifier, "X", 57, 58⟩, ⟨.identifier, "A", 59, 60⟩] },
          { kind := .macroDefinition, spelling := "Y", file := some "corpus/a.h", line := 3, column := 9
            tokens := [⟨.identifier, "Y", 69, 70⟩, ⟨.punctuation, "(", 71, 72⟩, ⟨.identifier, "X", 72, 73⟩,
              ⟨.punctuation, "+", 74, 75⟩, ⟨.literal, "1", 76, 77⟩, ⟨.punctuation, ")", 77, 78⟩] },
          { kind := .structDecl, spelling := "s", file := some "corpus/a.h", line := 1, column := 8, offset := 7
            isDefinition := true, definition := some 2, type := some 0 },
          { kind := .structDecl, file := some "corpus/a.h", line := 1, column := 12, offset := 11
            isDefinition := true, isAnonymous := true, definition := some 3, type := some 1 },
          { kind := .enumDecl, file := some "corpus/a.h", line := 1, column := 21, offset := 20
            isDefinition := true, isAnonymous := true, definition := some 4, type := some 2, enumType := some 3
            children := [some 7, some 8] },
          { spelling := "in", type := some 1, fieldOffset := 0 },
          { spelling := "kind", type := some 2, fieldOffset := 0 },
          { kind := .enumConstantDecl, spelling := "A", enumValue := 0 },
          { kind := .enumConstantDecl, spelling := "B", enumValue := 1 }]
        types := #[
          { kind := .record, size := 4, align := 4, declaration := some 2, fields := [some 5] },
          { kind := .record, size := 4, align := 4, declaration := some 3, fields := [some 6] },
          { kind := .enumeration, size := 4, align := 4, declaration := some 4 },
          { kind := .scalar .uint, spelling := "unsigned int", size := 4, align := 4 }] } }

def nestedEnum : Enumeration :=
  { key := "enum @a.h:1:21", variants := [("A", 0), ("B", 1)], size := 4, signed := false, anonymous := true
    origin := "a.h", comment := none }

def nestedInner : Record :=
  { key := "struct @a.h:1:12", kind := .struct, size := 4, align := 4, packed := false, aligned := false, pack := none
    anonymous := true, origin := "a.h", comment := none
    members := some [⟨"kind", .named "enum @a.h:1:21", none, some 0, false, none⟩] }

def nestedOuter : Record :=
  { key := "struct s", kind := .struct, size := 4, align := 4, packed := false, aligned := false, pack := none
    anonymous := false, origin := "a.h", comment := none
    members := some [⟨"in", .named "struct @a.h:1:12", none, some 0, false, none⟩] }

def nestedCorpus : Corpus :=
  { sourceName := "headers", headerCount := 1, declarations := []
    table := ⟨[.enumeration nestedEnum, .record nestedInner, .record nestedOuter], true⟩
    constants := [("X", "A"), ("Y", "(X + 1)")] }

theorem nestedCorpus_exposed : nestedCorpus.table.EnumsExposed [] := by
  have hinner : nestedCorpus.table.Exposed [] (Tagged.record nestedInner).key :=
    .written (d := .record nestedOuter) (by decide) rfl (by decide)
  intro e he _ _
  obtain rfl : e = nestedEnum := by simpa [nestedCorpus] using he
  exact .inside hinner (by decide) rfl (by decide)

theorem nestedSource_stands : ∃ interface written header, nestedSource.interface = .ok interface ∧
    nestedCorpus.table = interface.table ∧ nestedCorpus.constants = interface.constants ∧
    Header.render nestedCorpus [] .default "svcall.h" = .ok written ∧ interface.table.EnumsExposed [] ∧
    nestedCorpus.constants = nestedSource.carried.map (fun m => (m.name, m.body)) ∧
    Header.draft nestedCorpus [] .default "svcall.h" = .ok header ∧ text header = written ∧
    ∀ m ∈ nestedSource.carried, ∀ name ∈ m.identifiers, header.Means name := by
  have hread : nestedSource.interface.toOption.map (fun i => (i.table, i.constants)) =
      some (nestedCorpus.table, nestedCorpus.constants) := by decide +kernel
  obtain ⟨interface, hinterface, hread⟩ := exists_of_toOption_map hread
  obtain ⟨htable, hconstants⟩ := Prod.mk.inj hread
  have hok : (Header.render nestedCorpus [] .default "svcall.h").toOption.isSome = true := by decide
  obtain ⟨written, hwritten⟩ := exists_of_isSome hok
  have hexposed : interface.table.EnumsExposed [] := htable ▸ nestedCorpus_exposed
  obtain ⟨hcarried, header, hdraft, htext, hmeans⟩ :=
    Source.constants_stand hinterface htable.symm hconstants.symm hwritten hexposed
  exact ⟨interface, written, header, hinterface, htable.symm, hconstants.symm, hwritten, hexposed, hcarried, hdraft,
    htext, hmeans⟩

/-! The header

    extern struct { enum { A, B } x; } g;
    #define X A

where the enum is mentioned by a struct that nothing mentions. -/

def externSource : Source :=
  { staged := ⟨[], [("a.h", Utf8.encode "extern struct { enum { A, B } x; } g;\n#define X A\n")], []⟩
    unit :=
      { top := [some 0, some 1, some 2], diagnostics := []
        cursors := #[
          { kind := .macroDefinition, spelling := "X", file := some "corpus/a.h", line := 2, column := 9
            tokens := [⟨.identifier, "X", 46, 47⟩, ⟨.identifier, "A", 48, 49⟩] },
          { kind := .structDecl, file := some "corpus/a.h", line := 1, column := 8, offset := 7
            isDefinition := true, isAnonymous := true, definition := some 1, type := some 0 },
          { kind := .other, spelling := "g", file := some "corpus/a.h", type := some 0 },
          { kind := .enumDecl, file := some "corpus/a.h", line := 1, column := 17, offset := 16
            isDefinition := true, isAnonymous := true, definition := some 3, type := some 1, enumType := some 2
            children := [some 5, some 6] },
          { spelling := "x", type := some 1, fieldOffset := 0 },
          { kind := .enumConstantDecl, spelling := "A", enumValue := 0 },
          { kind := .enumConstantDecl, spelling := "B", enumValue := 1 }]
        types := #[
          { kind := .record, size := 4, align := 4, declaration := some 1, fields := [some 4] },
          { kind := .enumeration, size := 4, align := 4, declaration := some 3 },
          { kind := .scalar .uint, spelling := "unsigned int", size := 4, align := 4 }] } }

def externCorpus : Corpus :=
  { sourceName := "headers", headerCount := 1, declarations := []
    table := ⟨[ .enumeration
        { key := "enum @a.h:1:17", variants := [("A", 0), ("B", 1)], size := 4, signed := false, anonymous := true
          origin := "a.h", comment := none },
      .record
        { key := "struct @a.h:1:8", kind := .struct, size := 4, align := 4, packed := false, aligned := false
          pack := none, anonymous := true, origin := "a.h", comment := none
          members := some [⟨"x", .named "enum @a.h:1:17", none, some 0, false, none⟩] }], true⟩
    constants := [("X", "A")] }

def externMacro : Macro := ⟨"X", [(.identifier, "A")], "A"⟩

/-- The constant is written, but neither the struct nor the enum is: its enumerator means nothing. -/
theorem externSource_meaningless : ∃ interface written header, externSource.interface = .ok interface ∧
    externCorpus.table = interface.table ∧ externCorpus.constants = interface.constants ∧
    Header.render externCorpus [] .default "svcall.h" = .ok written ∧
    Header.draft externCorpus [] .default "svcall.h" = .ok header ∧ text header = written ∧
    externSource.carried = [externMacro] ∧ ("A" : Text) ∈ externMacro.identifiers ∧ ¬ header.Means "A" := by
  have hread : externSource.interface.toOption.map (fun i => (i.table, i.constants)) =
      some (externCorpus.table, externCorpus.constants) := by decide +kernel
  obtain ⟨interface, hinterface, hread⟩ := exists_of_toOption_map hread
  obtain ⟨htable, hconstants⟩ := Prod.mk.inj hread
  have hok : (Header.render externCorpus [] .default "svcall.h").toOption.isSome = true := by decide
  obtain ⟨written, hwritten⟩ := exists_of_isSome hok
  obtain ⟨header, hdraft, hdrafted⟩ := Header.render_drafted hwritten
  have hnotes : notes header = [.constant "X"] := List.perm_singleton.1 (hdrafted.notes.trans (.of_eq rfl))
  have hcarried : externSource.carried = [externMacro] := by decide +kernel
  refine ⟨interface, written, header, hinterface, htable.symm, hconstants.symm, hwritten, hdraft,
    hdrafted.text, hcarried, by decide, fun hmeans => ?_⟩
  cases hmeans with
  | constant h =>
    rw [hnotes, List.mem_singleton, Note.constant.injEq] at h
    exact absurd h (by decide)
  | typedef h =>
    rw [hnotes, List.mem_singleton] at h
    cases h
  | enumerator h =>
    rw [Draft.bodies, hnotes] at h
    cases h
  | universal h => exact absurd h (by decide)

end TrapStub
