import TrapStub.Proofs.Header.Packing
import TrapStub.Proofs.Layout.Inference
import TrapStub.Proofs.Layout.RecordAttributes

/-!
# Layout inference with attributes of records

The survey takes an attribute of a record for the reason of its alignment, so it looks for a packing
only where there is none. The attributes are written behind the members, and C reads them again.

* `RecordAttributes.Reads`, `Record.LaidOutAs`: how C lays out what is recorded and written.
* `TypeEntry.Writes`, `TypeSection.entryOf_writes`: what stands in the header.
* `Source.ReportsAttributed`: what the parser says of a record with attributes.
* `Source.record_attributed`: **a definition without attributes has the layout of the record, and one with
  attributes has it exactly when each of its members fits its place.**
-/

namespace TrapStub

/-! ## How C reads what is written -/

namespace RecordAttributes

/-- What C reads behind the members of a record. -/
inductive Reads : Text → RecordAttributes → Prop
  | plain : Reads [] ⟨false, none⟩
  | packed : Reads (" __attribute__((" ++ "packed" ++ "))") ⟨true, none⟩
  | aligned {w : Text} {n : Nat} (h : Alignment.Spells w n) :
      Reads (" __attribute__((" ++ ("aligned(" ++ w ++ ")") ++ "))") ⟨false, some n⟩
  | both {w : Text} {n : Nat} (h : Alignment.Spells w n) :
      Reads (" __attribute__((" ++ ("packed, aligned(" ++ w ++ ")") ++ "))") ⟨true, some n⟩

/-- What opens the attributes, up to the number that the record is aligned to. -/
def opening (packed aligned : Bool) : Text :=
  match packed, aligned with
  | false, false => []
  | true, false => " __attribute__((packed))"
  | false, true => " __attribute__((aligned("
  | true, true => " __attribute__((packed, aligned("

/-- The opening is known by the glyphs that all of them have. -/
theorem opening_injective {packed aligned packed' aligned' : Bool}
    (h : (opening packed aligned).take 23 = (opening packed' aligned').take 23) :
    packed = packed' ∧ aligned = aligned' := by
  revert packed aligned packed' aligned'
  decide +kernel

theorem Reads.take_eq {text : Text} {a : RecordAttributes} (h : Reads text a) :
    text.take 23 = (opening a.packed a.aligned.isSome).take 23 := by
  cases h <;> rfl

/-- A number follows the opening. -/
theorem Reads.number {text : Text} {a : RecordAttributes} {n : Nat} (h : Reads text a) (hn : a.aligned = some n) :
    ∃ w, Alignment.Spells w n ∧ text = opening a.packed true ++ w ++ ")))" := by
  cases h with
  | plain => cases hn
  | packed => cases hn
  | @aligned w _ hw =>
    cases hn
    refine ⟨w, hw, ?_⟩
    simp only [List.append_assoc]
    rfl
  | @both w _ hw =>
    cases hn
    refine ⟨w, hw, ?_⟩
    simp only [List.append_assoc]
    rfl

/-- **Attributes are read in one way.** -/
theorem Reads.unique {text : Text} {a a' : RecordAttributes} (h : Reads text a) (h' : Reads text a') :
    a = a' := by
  obtain ⟨hpacked, haligned⟩ := opening_injective (h.take_eq.symm.trans h'.take_eq)
  obtain ⟨packed, aligned⟩ := a
  obtain ⟨packed', aligned'⟩ := a'
  obtain rfl : packed = packed' := hpacked
  cases aligned with
  | none =>
    obtain rfl : aligned' = none := Option.not_isSome_iff_eq_none.1 (by simpa using haligned)
    rfl
  | some n =>
    obtain ⟨n', rfl⟩ : ∃ n', aligned' = some n' := Option.isSome_iff_exists.1 haligned.symm
    obtain ⟨w, hw, htext⟩ := h.number rfl
    obtain ⟨w', hw', htext'⟩ := h'.number rfl
    -- the texts agree around the number too
    have hsame : w = w' := by
      rw [htext] at htext'
      exact List.append_cancel_left (List.append_cancel_right htext')
    rw [hw.unique (hsame ▸ hw')]

/-- The packing that is recorded. -/
def recordedPack (a : RecordAttributes) (align : Nat) (ms : List LayoutMember) : Option Nat :=
  if a = plain then explainedPack align ms else none

end RecordAttributes

/-- What is written of the packing and the attributes of a record, as C reads it. -/
structure Record.WrittenAs (r : Record) (pack : Option Nat) (a : RecordAttributes) : Prop where
  pack : TypeSection.packOf r.pack = pack.map Int.ofNat
  attributes : RecordAttributes.Reads (Tagged.recordAttributes r) a

/-- The layout that C gives the definition of a record, given the alignments and sizes of the types of
its members. -/
inductive Record.LaidOutAs (r : Record) (ms : List LayoutMember) : Layout → Prop
  | intro {members : List Member} {ms' : List LayoutMember} {pack : Option Nat} {a : RecordAttributes}
      (hmembers : r.members = some members) (htypes : SameTypes ms ms')
      (hread : List.Forall₂ Member.ReadAs members ms') (hwritten : r.WrittenAs pack a) :
      LaidOutAs r ms (attributedLayout r.kind pack a ms')

/-- The members of a record, as C reads them, fit their places in a layout. -/
def Record.MembersFit (r : Record) (ms : List LayoutMember) (a : RecordAttributes) (L : Layout) : Prop :=
  ∀ members ms', r.members = some members → SameTypes ms ms' → List.Forall₂ Member.ReadAs members ms' →
    ∀ y ∈ ms'.zip L.offsets, a.Fits L.align y.1 y.2

/-- **C gives a definition one layout.** -/
theorem Record.LaidOutAs.unique {r : Record} {ms : List LayoutMember} {L L' : Layout} (h : r.LaidOutAs ms L)
    (h' : r.LaidOutAs ms L') : L = L' := by
  cases h with
  | @intro members read pack a hmembers htypes hread hwritten =>
    cases h' with
    | @intro members' read' pack' a' hmembers' htypes' hread' hwritten' =>
      obtain rfl : members = members' := Option.some.inj (hmembers.symm.trans hmembers')
      obtain rfl : read' = read := eq_of_readAs (htypes'.trans htypes.symm) hread hread'
      obtain rfl : a = a' := hwritten.attributes.unique hwritten'.attributes
      have hpack : pack.map Int.ofNat = pack'.map Int.ofNat := hwritten.pack.symm.trans hwritten'.pack
      rw [Option.map_injective (fun _ _ => Int.ofNat.inj) hpack]

/-- Lines end with the last of them. -/
theorem Text.unlines_append_singleton (lines : List Text) (last : Text) :
    ∃ front, Text.unlines (lines ++ [last]) = front ++ last := by
  unfold Text.unlines
  induction lines with
  | nil => exact ⟨[], rfl⟩
  | cons line lines ih =>
    obtain ⟨front, hfront⟩ := ih
    cases lines with
    | nil => exact ⟨line ++ [Glyph.newline], rfl⟩
    | cons next rest =>
      refine ⟨line ++ [Glyph.newline] ++ front, ?_⟩
      rw [List.cons_append, List.cons_append, Text.join, ← List.cons_append, hfront]
      simp only [List.append_assoc]

/-- The text of a record ends with its attributes. -/
theorem Tagged.body_attributes {spell : Text → Except Fault Text} {depth : Nat} {r : Record} {text : Text}
    (h : Tagged.body spell depth (.record r) = .ok text) :
    ∃ front, text = front ++ "\x7d" ++ Tagged.recordAttributes r := by
  unfold body at h
  cases hm : r.members with
  | none =>
    simp only [hm] at h
    cases h
  | some members =>
    simp only [hm] at h
    obtain ⟨lines, -, h⟩ := bind_eq_ok.1 h
    cases h
    obtain ⟨front, hfront⟩ := Text.unlines_append_singleton _
      (Text.times depth Header.indent ++ "\x7d" ++ Tagged.recordAttributes r)
    refine ⟨front ++ Text.times depth Header.indent, ?_⟩
    unfold braces
    rw [hfront]
    simp only [List.append_assoc]

/-- An entry of the header is the definition of a record, with its attributes at the end and under its
packing. -/
structure TypeEntry.Writes (entry : TypeEntry) (r : Record) : Prop where
  pack : entry.pack = TypeSection.packOf r.pack
  text : ∃ front, entry.text = front ++ "\x7d" ++ Tagged.recordAttributes r ++ ";"

/-- **What stands in the header** for a record that is written on its own. -/
theorem TypeSection.entryOf_writes {comments : Bool} {mentioned : List Text} {speller next : Speller}
    {r : Record} {entry : TypeEntry} (h : entryOf comments mentioned speller (.record r) = .ok (some entry, next)) :
    entry.Writes r := by
  simp only [entryOf] at h
  split at h
  · cases h
  · obtain ⟨text, htext, h⟩ := bind_eq_ok.1 h
    cases h
    obtain ⟨front, rfl⟩ := Tagged.body_attributes htext
    exact ⟨rfl, front, rfl⟩

/-! ## What the parser reports -/

namespace Source

/-- What the parser says of a record with attributes that C lays out under a packing. -/
structure ReportsAttributed (source : Source) (c : Cursor) (pack : Option Nat) (a : RecordAttributes)
    (ms : List LayoutMember) : Prop where
  defined : c.definition.isSome = true
  packed : (source.childrenOf (source.unit.cursor c.definition)).any (·.kind == .packedAttr) = a.packed
  aligned : (source.childrenOf (source.unit.cursor c.definition)).any (·.kind == .alignedAttr) = a.aligned.isSome
  size : (source.definedType c).size = (attributedLayout (recordKind c) pack a ms).size
  align : (source.definedType c).align = (attributedLayout (recordKind c) pack a ms).align
  members : List.Forall₂ (fun field x => source.ReportsMember (source.unit.cursor field)
      (attributedLayout (recordKind c) pack a ms).align x.1 x.2)
    (source.definedType c).fields (ms.zip (attributedLayout (recordKind c) pack a ms).offsets)

/-- No alignment of a member comes out of a macro. -/
def SeesAlignments (source : Source) (c : Cursor) : Prop :=
  ∀ field ∈ (source.definedType c).fields, ∀ child ∈ source.childrenOf (source.unit.cursor field),
    child.kind = .alignedAttr → (source.alignmentText? child).isSome = true

end Source

/-! ## Records -/

section Records

variable {source : Source} {below : Conversion} {c : Cursor} {s t : Findings} {type : CType} {pack : Option Nat}
  {a : RecordAttributes} {ms ms' : List LayoutMember} {align offset : Nat} {L : Layout} {r : Record}

/-- What is recorded of a record with attributes is written as it is recorded. -/
theorem Record.writtenAs (hpos : 0 < L.align) (hpacked : r.packed = a.packed)
    (haligned : r.aligned = a.aligned.isSome) (halign : r.align = L.align)
    (hpack : r.pack = (a.recordedPack L.align ms').map Int.ofNat) :
    r.WrittenAs (a.recordedPack L.align ms') (a.alignedTo L.align) := by
  constructor
  case pack =>
    rw [← hpack]
    refine TypeSection.packOf_eq_self ?_
    rw [hpack]
    unfold RecordAttributes.recordedPack explainedPack
    split
    · split
      · intro h
        injection h with h
        injection h with h
        omega
      · intro h
        cases h
    · intro h
      cases h
  case attributes =>
    have hnumber := Alignment.spells_decimal hpos
    obtain ⟨packed, aligned⟩ := a
    unfold Tagged.recordAttributes RecordAttributes.alignedTo
    rw [hpacked, haligned, halign]
    cases packed with
    | false =>
      cases aligned with
      | none => exact .plain
      | some n => exact .aligned hnumber
    | true =>
      cases aligned with
      | none => exact .packed
      | some n => exact .both hnumber

/-- A member whose alignment is seen is recorded as it is. -/
theorem Source.member_seen {answer : Member × Int} (h : source.ReportsMember c align m offset) (hm : m.Regular)
    (halign : IsAlignment align)
    (hseen : ∀ child ∈ source.childrenOf c, child.kind = .alignedAttr → (source.alignmentText? child).isSome = true)
    (hanswer : source.member below c s = .ok (answer, t)) : answer.1.ReadAs m := by
  obtain ⟨-, m', hwritten, hread, -⟩ := member_recorded h hm halign hanswer
  obtain ⟨-, place, hplace⟩ := member_eq_ok hanswer
  -- the attribute is read as it is written
  have hreads : Alignment.Reads answer.1.aligned m.explicit := by
    have haligned := h.aligned
    rw [hplace, memberAttributes_eq]
    cases he : m.explicit with
    | none =>
      rw [he] at haligned
      cases haligned with
      | absent hnone =>
        rw [hnone]
        exact .absent
    | some e =>
      rw [he] at haligned
      cases haligned with
      | @present child text _ hone hattribute =>
        have hchild : child ∈ (source.childrenOf c).filter (·.kind == .alignedAttr) := by
          rw [hone]
          exact List.mem_singleton_self child
        obtain ⟨hmem, hkind⟩ := List.mem_filter.1 hchild
        have hsome := hseen child hmem (beq_iff_eq.1 hkind)
        rw [alignmentText?_eq hattribute] at hsome
        rw [hone, List.getLast?_singleton, Option.map_some, alignmentText?_eq hattribute]
        cases hattribute with
        | bare => exact .bare
        | literal ht hw ho hc hn hb => exact .number hn
        | hidden => cases hsome
  have hsame : m' = m := hwritten.eq_of_explicit (hread.aligned.unique hreads)
  rwa [hsame] at hread

/-- The attributes of the definition are recorded, and a packing only without them. -/
theorem Source.completeRecord_attributed (key : Text) (anonymous : Bool) {answers : List (Member × Int)}
    (h : source.ReportsAttributed c pack a ms) (hL : attributedLayout (recordKind c) pack a ms = L)
    (hpos : 0 < L.align)
    (hanswers : List.Forall₂ (fun m' answer => answer.2 = (LayoutMember.requested m' : Int)) ms' answers) :
    (source.completeRecord key c (source.unit.cursor c.definition) anonymous answers).packed = a.packed ∧
      (source.completeRecord key c (source.unit.cursor c.definition) anonymous answers).aligned = a.aligned.isSome ∧
      (source.completeRecord key c (source.unit.cursor c.definition) anonymous answers).pack =
        (a.recordedPack L.align ms').map Int.ofNat := by
  have hattribute : ∀ kind, (((source.unit.cursor c.definition).children.map source.unit.cursor).map
      (·.kind)).contains kind = (source.childrenOf (source.unit.cursor c.definition)).any (·.kind == kind) := by
    intro kind
    rw [List.contains_eq_any_beq, List.any_map]
    exact congrArg (List.any _) (funext fun child => BEq.comm)
  have hpacked := (hattribute .packedAttr).trans h.packed
  have haligned := (hattribute .alignedAttr).trans h.aligned
  refine ⟨hpacked, haligned, ?_⟩
  have halign := h.align
  unfold definedType at halign
  unfold completeRecord
  dsimp only
  rw [hpacked, haligned, halign, hL, demanded_eq hanswers]
  unfold RecordAttributes.recordedPack
  by_cases hplain : a = .plain
  · rw [if_pos hplain, hplain]
    exact inferredPack_eq hpos
  · rw [if_neg hplain]
    unfold inferredPack
    rw [if_neg ?_, Option.map_none]
    intro hnone
    obtain ⟨packed, aligned⟩ := a
    cases packed <;> cases aligned <;> simp [RecordAttributes.plain] at hnone hplain

/-- A record with the given members notes a layout, and C gives one layout to what is written of it.
That is the noted one if the record has no attributes, and otherwise exactly when the members fit. -/
structure Record.Notes (r : Record) (members : List Member) (ms : List LayoutMember) (a : RecordAttributes)
    (L : Layout) : Prop where
  complete : r.members = some members
  size : r.size = L.size
  align : r.align = L.align
  offsets : members.map (·.offset) = L.offsets.map fun (offset : Nat) => some (8 * (offset : Int))
  laidOut : ∃! L', r.LaidOutAs ms L'
  same : r.LaidOutAs ms L ↔ a = .plain ∨ r.MembersFit ms a L

theorem Record.Notes.withComment {members : List Member} (h : r.Notes members ms a L) (comment : Option Text) :
    { r with comment := comment }.Notes members ms a L := by
  have hlaid : ∀ L', { r with comment := comment }.LaidOutAs ms L' ↔ r.LaidOutAs ms L' := by
    intro L'
    constructor
    · rintro ⟨hmembers, htypes, hread, hwritten⟩
      exact .intro (r := r) hmembers htypes hread ⟨hwritten.pack, hwritten.attributes⟩
    · rintro ⟨hmembers, htypes, hread, hwritten⟩
      exact .intro (r := { r with comment := comment }) hmembers htypes hread ⟨hwritten.pack, hwritten.attributes⟩
  exact ⟨h.complete, h.size, h.align, h.offsets, (existsUnique_congr hlaid).2 h.laidOut, (hlaid L).trans h.same⟩

/-- **The layout of a definition whose members are read in one way.** -/
theorem Record.laidOutAs_iff {members : List Member} (hpow : ∀ p ∈ pack, p.isPowerOfTwo)
    (hms : ∀ m ∈ ms, m.Regular) (ha : ∀ n ∈ a.aligned, IsAlignment n) (hL : attributedLayout r.kind pack a ms = L)
    (hmembers : r.members = some members) (htypes : SameTypes ms ms')
    (hread : List.Forall₂ Member.ReadAs members ms')
    (hrecorded : r.WrittenAs (a.recordedPack L.align ms') (a.alignedTo L.align))
    (hwritten : List.Forall₂ (fun x m' => LayoutMember.Written L.align x.2 x.1 m') (ms.zip L.offsets) ms') :
    (∃! L', r.LaidOutAs ms L') ∧ (r.LaidOutAs ms L ↔ a = .plain ∨ r.MembersFit ms a L) := by
  have hlaid := LaidOutAs.intro hmembers htypes hread hrecorded
  refine ⟨⟨_, hlaid, fun L' hL' => hL'.unique hlaid⟩, ?_⟩
  have hlaid_iff : r.LaidOutAs ms L ↔
      attributedLayout r.kind (a.recordedPack L.align ms') (a.alignedTo L.align) ms' = L := by
    constructor
    · exact fun h => hlaid.unique h
    · exact fun h => h ▸ hlaid
  have hfit_iff : r.MembersFit ms a L ↔ ∀ y ∈ ms'.zip L.offsets, a.Fits L.align y.1 y.2 := by
    constructor
    · exact fun h => h members ms' hmembers htypes hread
    · intro h members' read hmembers' hsame hread'
      obtain rfl : members = members' := Option.some.inj (hmembers.symm.trans hmembers')
      obtain rfl : read = ms' := eq_of_readAs (hsame.trans htypes.symm) hread hread'
      exact h
  rw [hlaid_iff, hfit_iff]
  by_cases hplain : a = .plain
  · subst hplain
    rw [attributedLayout_plain] at hL
    subst hL
    have hsame : attributedLayout r.kind (RecordAttributes.recordedPack .plain (layout r.kind pack ms).align ms')
        (RecordAttributes.alignedTo .plain (layout r.kind pack ms).align) ms' = layout r.kind pack ms :=
      (attributedLayout_plain _ _ _).trans (layout_written hpow hms hwritten)
    exact ⟨fun _ => Or.inl rfl, fun _ => hsame⟩
  · have hlost : a.recordedPack L.align ms' = none := if_neg hplain
    rw [hlost, attributedLayout_written hL hpow hms ha hwritten, or_iff_right hplain]

theorem Source.completeRecord_notes (key : Text) (anonymous : Bool) {answers : List (Member × Int)}
    (hpow : ∀ p ∈ pack, p.isPowerOfTwo) (hms : ∀ m ∈ ms, m.Regular) (ha : ∀ n ∈ a.aligned, IsAlignment n)
    (hreport : source.ReportsAttributed c pack a ms) (hL : attributedLayout (recordKind c) pack a ms = L)
    (h : ((source.definedType c).fields.mapM fun field => source.member below (source.unit.cursor field)) s =
      .ok (answers, t)) :
    (source.completeRecord key c (source.unit.cursor c.definition) anonymous answers).Notes
      (answers.map (·.1)) ms a L := by
  have halign : IsAlignment L.align := hL ▸ (attributedLayout_isAlignment (recordKind c) hpow hms ha).2
  have hlength : L.offsets.length = ms.length := hL ▸ length_attributedOffsets
  have hmembers := hreport.members
  have hsize := hreport.size
  have hwhole := hreport.align
  rw [hL] at hmembers hsize hwhole
  obtain ⟨hplaces, ms', hwritten, htypes, hreads, hasked⟩ := members_recorded hms halign hlength hmembers h
  have hpos := Nat.pos_of_isPowerOfTwo halign.1
  obtain ⟨hpacked, haligned, hpack⟩ := completeRecord_attributed key anonymous hreport hL hpos hasked
  have hlayout := Record.laidOutAs_iff
    (r := source.completeRecord key c (source.unit.cursor c.definition) anonymous answers)
    hpow hms ha hL rfl htypes hreads (Record.writtenAs hpos hpacked haligned hwhole hpack) hwritten
  constructor
  case complete => rfl
  case size => exact hsize
  case align => exact hwhole
  case offsets => exact hplaces
  case laidOut => exact hlayout.1
  case same => exact hlayout.2

/-- Members whose alignments are seen are read as they are. -/
theorem Source.readAs_of_sees {answers : List (Member × Int)} (hms : ∀ m ∈ ms, m.Regular)
    (hreport : source.ReportsAttributed c pack a ms)
    (halign : IsAlignment (attributedLayout (recordKind c) pack a ms).align) (hsees : source.SeesAlignments c)
    (h : ((source.definedType c).fields.mapM fun field => source.member below (source.unit.cursor field)) s =
      .ok (answers, t)) : List.Forall₂ Member.ReadAs (answers.map (·.1)) ms := by
  have hseen := forall₂_imp_of_mem (Survey.mapM_answers h) fun field hfield answer _ hanswer =>
    And.intro (hsees field hfield) hanswer
  have hfields := forall₂_through.2 ⟨_, hreport.members.flip, hseen⟩
  have hread := forall₂_imp_of_mem hfields fun x hx answer _ ⟨field, hfield, hsee, u, v, hanswer⟩ =>
    member_seen hfield (hms x.1 (List.of_mem_zip hx).1) halign hsee hanswer
  have hmembers : (ms.zip (attributedLayout (recordKind c) pack a ms).offsets).map (·.1) = ms := by
    refine List.map_fst_zip (Nat.le_of_eq ?_)
    exact length_attributedOffsets.symm
  rw [← hmembers, List.forall₂_map_left_iff, List.forall₂_map_right_iff]
  exact hread.flip

/-- **The layout of a recorded definition with attributes.** The parser reports a record that C lays out
with its attributes under a packing. Then the survey fails only where the types of the fields or the
table do. What it records is written, with its attributes and under its packing, so that C lays it out in
one way. That is the layout of the record if it has no attributes, and otherwise exactly when each member,
as it is read, fits its place; so it is if the alignments of the members are seen and the packing cuts
none of them. -/
theorem Source.record_attributed (hpow : ∀ p ∈ pack, p.isPowerOfTwo) (hms : ∀ m ∈ ms, m.Regular)
    (ha : ∀ n ∈ a.aligned, IsAlignment n) (hreport : source.ReportsAttributed c pack a ms)
    (hnew : (source.keyOf c (recordKind c).keyword).1 ∉ s.done ∧
      (source.keyOf c (recordKind c).keyword).1 ∉ s.started) :
    (∀ fault, source.record below c s = .error fault →
      (∃ field ∈ (source.definedType c).fields, ∃ u,
        source.convertWith below (source.unit.cursor field).type true u = .error fault) ∨
      ∃ (u : Findings) (r : Record), u.table.register (.record r) = .error fault) ∧
    ∀ type t, source.record below c s = .ok (type, t) →
      ∃ r members, t.table.get? (source.keyOf c (recordKind c).keyword).1 = some (.record r) ∧
        r.kind = recordKind c ∧ r.Notes members ms a (attributedLayout (recordKind c) pack a ms) ∧
        (∀ comments mentioned speller entry next,
          TypeSection.entryOf comments mentioned speller (.record r) = .ok (some entry, next) → entry.Writes r) ∧
        (source.SeesAlignments c → (∀ p ∈ pack, ∀ m ∈ ms, (a.member m).requested ≤ p) →
          r.LaidOutAs ms (attributedLayout (recordKind c) pack a ms)) ∧
        List.Forall₂ (fun field member => ∃ u v,
          source.convertWith below (source.unit.cursor field).type true u = .ok (member.type, v))
          (source.definedType c).fields members := by
  have halign := (attributedLayout_isAlignment (recordKind c) hpow hms ha).2
  constructor
  · intro fault hfault
    exact record_fault_of_reported hreport.defined hms halign hreport.members hnew hfault
  · intro type t h
    obtain ⟨before, answers, after, comment, hm, hget, htypes⟩ := record_recorded hreport.defined hnew h
    have hnotes := (completeRecord_notes (source.keyOf c (recordKind c).keyword).1
      (source.keyOf c (recordKind c).keyword).2 hpow hms ha hreport rfl hm).withComment comment
    refine ⟨_, answers.map (·.1), hget, rfl, hnotes, ?_, fun hsees huncut => ?_, htypes⟩
    · intro comments mentioned speller entry next hentry
      exact TypeSection.entryOf_writes hentry
    · refine hnotes.same.2 (Or.inr fun members read hmembers hsame hread => ?_)
      have hasWritten := readAs_of_sees hms hreport halign hsees hm
      cases hmembers
      -- the members are read as they are, and the packing does nothing to them
      obtain rfl : read = ms := eq_of_readAs hsame hasWritten hread
      exact fits_of_uncut rfl huncut

end Records

/-! A byte and a word that is aligned to 2, in a packed struct that is aligned to 4, under `#pragma pack(4)`. -/

def registerSource : Source :=
  { staged := ⟨[], [], []⟩
    unit :=
      { top := [], diagnostics := []
        cursors := #[
          { kind := .structDecl, spelling := "reg", definition := some 0, type := some 0
            children := [some 3, some 4, some 1, some 2] },
          { spelling := "tag", type := some 1, parent := some 0, fieldOffset := 0 },
          { spelling := "word", type := some 2, parent := some 0, fieldOffset := 16, children := [some 5] },
          { kind := .packedAttr },
          { kind := .alignedAttr },
          { kind := .alignedAttr, tokens := [⟨.identifier, "aligned", 40, 47⟩, ⟨.punctuation, "(", 47, 48⟩,
              ⟨.literal, "2", 48, 49⟩, ⟨.punctuation, ")", 49, 50⟩] }]
        types := #[
          { kind := .record, size := 8, align := 4, fields := [some 1, some 2] },
          { kind := .scalar .uchar, spelling := "unsigned char", size := 1, align := 1 },
          { kind := .scalar .uint, spelling := "unsigned int", size := 4, align := 4 }] } }

def registerMembers : List LayoutMember := [⟨1, 1, none, false⟩, ⟨4, 4, some 2, false⟩]

/-- What is recorded of it. -/
def registerRecord : Record :=
  { key := "struct reg", kind := .struct
    members := some
      [⟨"tag", .scalar ⟨"unsigned char", 1, false, false⟩, none, some 0, false, none⟩,
        ⟨"word", .scalar ⟨"unsigned int", 4, false, false⟩, none, some 16, false, some "2"⟩]
    size := 8, align := 4, packed := true, aligned := true, pack := none, anonymous := false, origin := []
    comment := none }

theorem registerMembers_layout :
    attributedLayout .struct (some 4) ⟨true, some 4⟩ registerMembers = ⟨[0, 2], 8, 4⟩ := by decide

theorem registerSource_reports : registerSource.ReportsAttributed (registerSource.unit.cursor (some 0)) (some 4)
    ⟨true, some 4⟩ registerMembers := by
  have hkind : Source.recordKind (registerSource.unit.cursor (some 0)) = .struct := rfl
  constructor
  case defined => rfl
  case packed => rfl
  case aligned => rfl
  case size => rw [hkind, registerMembers_layout]; rfl
  case align => rw [hkind, registerMembers_layout]; rfl
  case members =>
    rw [hkind, registerMembers_layout]
    refine .cons ⟨rfl, rfl, rfl, rfl, rfl, ?_⟩ (.cons ⟨rfl, rfl, rfl, rfl, rfl, ?_⟩ .nil)
    · exact .absent rfl
    · have hnumber : Alignment.Spells "2" 2 := Alignment.spells_decimal (n := 2) (by decide)
      exact .present rfl (.literal rfl rfl rfl rfl hnumber nofun)

theorem registerSource_attributed :
    (∃ type t, registerSource.record registerSource.base (registerSource.unit.cursor (some 0)) Findings.empty =
      .ok (type, t) ∧ t.table.get? "struct reg" = some (.record registerRecord)) ∧
    registerRecord.LaidOutAs registerMembers ⟨[0, 2], 8, 4⟩ := by
  have hrun : registerSource.record registerSource.base (registerSource.unit.cursor (some 0)) Findings.empty =
      .ok (.named "struct reg", { Findings.empty with
        table := ⟨[.record registerRecord], false⟩, done := ["struct reg"] }) := rfl
  have hregular : ∀ m ∈ registerMembers, m.Regular := by
    have hall : ∀ m ∈ registerMembers, m.align ∣ 8 ∧ ∀ e ∈ m.explicit, e ∣ 8 := by decide
    exact fun m hm => ⟨isAlignment_iff.2 (hall m hm).1, fun e he => isAlignment_iff.2 ((hall m hm).2 e he)⟩
  have hpow : ∀ p ∈ some 4, Nat.isPowerOfTwo p := by
    rintro _ ⟨⟩
    exact ⟨2, rfl⟩
  have haligned : ∀ n ∈ (⟨true, some 4⟩ : RecordAttributes).aligned, IsAlignment n := by
    rintro _ ⟨⟩
    exact isAlignment_iff.2 (by decide)
  have hsees : registerSource.SeesAlignments (registerSource.unit.cursor (some 0)) := by
    unfold Source.SeesAlignments
    decide
  have huncut : ∀ p ∈ some 4, ∀ m ∈ registerMembers,
      ((⟨true, some 4⟩ : RecordAttributes).member m).requested ≤ p := by decide
  refine ⟨⟨_, _, hrun, rfl⟩, ?_⟩
  obtain ⟨r, members, hget, -, -, -, hkept, -⟩ := (Source.record_attributed (s := Findings.empty) hpow hregular
    haligned registerSource_reports ⟨List.not_mem_nil, List.not_mem_nil⟩).2 _ _ hrun
  cases hget
  have hlaid := hkept hsees huncut
  rwa [show Source.recordKind (registerSource.unit.cursor (some 0)) = .struct from rfl,
    registerMembers_layout] at hlaid

/-! A byte and a word in a struct that is aligned to 2, under `#pragma pack(2)`. The record is aligned below
what the word asks for, but its attribute passes for the reason, and the packing is lost. -/

def cutSource : Source :=
  { staged := ⟨[], [], []⟩
    unit :=
      { top := [], diagnostics := []
        cursors := #[
          { kind := .structDecl, spelling := "s", definition := some 0, type := some 0
            children := [some 3, some 1, some 2] },
          { spelling := "c", type := some 1, parent := some 0, fieldOffset := 0 },
          { spelling := "i", type := some 2, parent := some 0, fieldOffset := 16 },
          { kind := .alignedAttr }]
        types := #[
          { kind := .record, size := 6, align := 2, fields := [some 1, some 2] },
          { kind := .scalar .uchar, spelling := "unsigned char", size := 1, align := 1 },
          { kind := .scalar .int, spelling := "int", size := 4, align := 4 }] } }

def cutMembers : List LayoutMember := [⟨1, 1, none, false⟩, ⟨4, 4, none, false⟩]

def cutRecord : Record :=
  { key := "struct s", kind := .struct
    members := some
      [⟨"c", .scalar ⟨"unsigned char", 1, false, false⟩, none, some 0, false, none⟩,
        ⟨"i", .scalar ⟨"int", 4, true, false⟩, none, some 16, false, none⟩]
    size := 6, align := 2, packed := false, aligned := true, pack := none, anonymous := false, origin := []
    comment := none }

theorem cutSource_moved :
    cutSource.ReportsAttributed (cutSource.unit.cursor (some 0)) (some 2) ⟨false, some 2⟩ cutMembers ∧
    attributedLayout .struct (some 2) ⟨false, some 2⟩ cutMembers = ⟨[0, 2], 6, 2⟩ ∧
    (∃ type t, cutSource.record cutSource.base (cutSource.unit.cursor (some 0)) Findings.empty = .ok (type, t) ∧
      t.table.get? "struct s" = some (.record cutRecord)) ∧
    cutRecord.LaidOutAs cutMembers ⟨[0, 4], 8, 4⟩ ∧ ¬ cutRecord.LaidOutAs cutMembers ⟨[0, 2], 6, 2⟩ ∧
    ∃ speller, TypeSection.entryOf true [] (.ofTable ⟨[.record cutRecord], false⟩) (.record cutRecord) =
      .ok (some ⟨[], none, "struct s \x7b\n    unsigned char c;\n    int i;\n\x7d __attribute__((aligned(2)));",
        ["_Static_assert(sizeof(struct s) == 6, \"struct s layout\");",
          "_Static_assert(offsetof(struct s, c) == 0, \"struct s layout\");",
          "_Static_assert(offsetof(struct s, i) == 2, \"struct s layout\");"]⟩, speller) := by
  have hkind : Source.recordKind (cutSource.unit.cursor (some 0)) = .struct := rfl
  have hlayout : attributedLayout .struct (some 2) ⟨false, some 2⟩ cutMembers = ⟨[0, 2], 6, 2⟩ := by decide
  have hwritten : cutRecord.WrittenAs none ⟨false, some 2⟩ := by
    have hnumber : Alignment.Spells (Text.decimal (2 : Nat)) 2 := Alignment.spells_decimal (by decide)
    exact ⟨rfl, .aligned hnumber⟩
  have hread : List.Forall₂ Member.ReadAs (cutRecord.members.getD []) cutMembers :=
    .cons ⟨rfl, rfl, .absent⟩ (.cons ⟨rfl, rfl, .absent⟩ .nil)
  have hlaid : cutRecord.LaidOutAs cutMembers ⟨[0, 4], 8, 4⟩ :=
    .intro (rfl : cutRecord.members = some (cutRecord.members.getD [])) rfl hread hwritten
  refine ⟨?_, hlayout, ⟨_, _, rfl, rfl⟩, hlaid, fun h => ?_, _, rfl⟩
  · constructor
    case defined => rfl
    case packed => rfl
    case aligned => rfl
    case size => rw [hkind, hlayout]; rfl
    case align => rw [hkind, hlayout]; rfl
    case members =>
      rw [hkind, hlayout]
      exact .cons ⟨rfl, rfl, rfl, rfl, rfl, .absent rfl⟩ (.cons ⟨rfl, rfl, rfl, rfl, rfl, .absent rfl⟩ .nil)
  · have hsame := hlaid.unique h
    exact absurd hsame (by decide)

end TrapStub
