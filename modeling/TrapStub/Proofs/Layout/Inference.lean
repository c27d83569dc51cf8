import TrapStub.Proofs.Layout.Attributes
import TrapStub.Proofs.Survey.Steps
import TrapStub.Proofs.TypeTable.Register

/-!
# Layout inference

The parser tells where the members of a record are, not which `#pragma pack` put them there or what a
macro expands to. The survey makes up for both from the places it sees. What it records has the layout
that the parser told of.

* `Source.ReportsMember`, `Source.ReportsRecord`: what the parser says of a record that C lays out.
* `Member.ReadAs`, `Record.HasLayout`: how C lays out a recorded definition.
* `Source.member_eq`: what is recorded of a member.
* `Source.record_layout`: **a recorded definition has the layout of the record.**
-/

namespace TrapStub

/-! ## What the parser reports -/

namespace Source

/-- What the parser says of the `aligned` attributes of a member, at most one. -/
inductive ReportsAligned (source : Source) (c : Cursor) : Option Nat → Prop
  | absent (h : (source.childrenOf c).filter (·.kind == .alignedAttr) = []) : ReportsAligned source c none
  | present {child : Cursor} {text : Option Text} {e : Nat}
      (h : (source.childrenOf c).filter (·.kind == .alignedAttr) = [child])
      (ha : AlignedAttribute source child text e) : ReportsAligned source c (some e)

/-- What the parser says of a member at an offset in a record with an alignment. -/
structure ReportsMember (source : Source) (c : Cursor) (align : Nat) (m : LayoutMember) (offset : Nat) :
    Prop where
  place : c.fieldOffset = 8 * offset
  bits : c.bitWidth = none
  record : (source.unit.type (source.unit.cursor c.parent).type).align = align
  type : source.memberTypeAlign c = m.align
  packed : (source.childrenOf c).any (·.kind == .packedAttr) = m.packed
  aligned : source.ReportsAligned c m.explicit

/-- The type that the definition of a record has. -/
def definedType (source : Source) (c : Cursor) : ParsedType :=
  source.unit.type (source.unit.cursor c.definition).type

end Source

/-! ## How C reads what is recorded -/

/-- A recorded member as C reads it, given the alignment and size of its type. -/
structure Member.ReadAs (member : Member) (m : LayoutMember) : Prop where
  bits : member.bits = none
  packed : member.packed = m.packed
  aligned : Alignment.Reads member.aligned m.explicit

/-- Some members have the types of others. -/
def SameTypes (ms ms' : List LayoutMember) : Prop :=
  ms'.map (fun m => (m.align, m.size)) = ms.map fun m => (m.align, m.size)

/-- A record with the given members notes a layout, and C gives it that layout under the recorded
packing, however its members with their types are read. -/
structure Record.HasLayout (r : Record) (members : List Member) (ms : List LayoutMember) (L : Layout) :
    Prop where
  complete : r.members = some members
  plain : r.packed = false ∧ r.aligned = false
  size : r.size = L.size
  align : r.align = L.align
  offsets : members.map (·.offset) = L.offsets.map fun (offset : Nat) => some (8 * (offset : Int))
  readable : ∃ ms', SameTypes ms ms' ∧ List.Forall₂ Member.ReadAs members ms'
  laidOut : ∀ ms', SameTypes ms ms' → List.Forall₂ Member.ReadAs members ms' →
    ∃ pack : Option Nat, r.pack = pack.map Int.ofNat ∧ layout r.kind pack ms' = L

/-! ## Members -/

section Members

variable {align offset : Nat} {m : LayoutMember}

theorem LayoutMember.Regular.positive (hm : m.Regular) : 0 < m.align ∧ ∀ e ∈ m.explicit, 0 < e :=
  ⟨Nat.pos_of_isPowerOfTwo hm.align.1, fun e he => Nat.pos_of_isPowerOfTwo (hm.explicit e he).1⟩

theorem demandedAlignment_eq (halign : 0 < m.align) (hexplicit : ∀ e ∈ m.explicit, 0 < e) :
    demandedAlignment m.align m.packed (m.explicit.map Int.ofNat) = m.requested := by
  unfold demandedAlignment LayoutMember.requested
  cases he : m.explicit with
  | none =>
    rw [Option.map_none, Option.filter_none]
    cases m.packed with
    | true => rfl
    | false => dsimp only; rw [if_neg Bool.false_ne_true]; omega
  | some e =>
    have := hexplicit e he
    have hfilter : (some (Int.ofNat e)).filter (· != 0) = some (e : Int) := by
      rw [Option.filter_some, if_pos (by simp; omega)]
      rfl
    rw [Option.map_some, hfilter]
    cases m.packed with
    | true => rfl
    | false => dsimp only; rw [if_neg Bool.false_ne_true]; omega

/-- The alignment that is inferred is the one that the place shows. -/
theorem inferred_eq (halign : 0 < align) :
    Alignment.inferred (some (8 * (offset : Int))) align = shownAlignment align offset := by
  have hplace : (8 * (offset : Int)) / 8 = offset := Int.mul_ediv_cancel_left _ (by decide)
  unfold Alignment.inferred shownAlignment Alignment.biggest
  dsimp only [Option.getD_some]
  rw [hplace]
  by_cases h0 : offset = 0
  · rw [if_pos h0, if_pos (by omega)]
    omega
  · rw [if_neg h0, if_neg (by omega)]
    rfl

variable {source : Source} {below : Conversion} {c : Cursor} {s t : Findings} {answer : Member × Int}

/-- **The attributes of a member are recorded as they are or as its place shows.** -/
theorem Source.memberAttributes_read (h : source.ReportsMember c align m offset) (hm : m.Regular)
    (halign : IsAlignment align) :
    ∃ m' : LayoutMember, LayoutMember.Written align offset m m' ∧ m'.Regular ∧
      (source.memberAttributes c (some (8 * (offset : Int)))).1 = m'.packed ∧
      Alignment.Reads (source.memberAttributes c (some (8 * (offset : Int)))).2 m'.explicit := by
  have hpos := Nat.pos_of_isPowerOfTwo halign.1
  have haligned := h.aligned
  rw [memberAttributes_eq, h.packed, h.record, inferred_eq hpos]
  cases he : m.explicit with
  | none =>
    rw [he] at haligned
    cases haligned with
    | absent hnone =>
      refine ⟨m, .same, hm, rfl, ?_⟩
      rw [hnone, he]
      exact .absent
  | some e =>
    rw [he] at haligned
    cases haligned with
    | @present child text _ hone hattribute =>
      rw [hone, List.getLast?_singleton, Option.map_some, alignmentText?_eq hattribute]
      cases hattribute with
      | bare => exact ⟨m, .same, hm, rfl, he ▸ .bare⟩
      | literal ht hw ho hc hn hb => exact ⟨m, .same, hm, rfl, he ▸ .number hn⟩
      | hidden =>
        -- nothing is seen of the argument, and the place stands for it
        have hshown := LayoutMember.shownAlignment_isAlignment offset halign
        refine ⟨_, .shown (by rw [he]; rfl), ⟨hm.align, ?_⟩, rfl, ?_⟩
        · rintro _ ⟨⟩
          exact hshown
        · exact .number (Alignment.spells_decimal (Nat.pos_of_isPowerOfTwo hshown.1))

/-- **What the survey makes of a member**: once its type is converted nothing can fail, and it is recorded
in its place, as it is or with what the place shows, with the alignment that it then asks for. -/
theorem Source.member_eq (h : source.ReportsMember c align m offset) (hm : m.Regular)
    (halign : IsAlignment align) : ∃ name aligned, ∃ m' : LayoutMember, LayoutMember.Written align offset m m' ∧
      Alignment.Reads aligned m'.explicit ∧ source.member below c =
        source.convertWith below c.type true >>= fun type =>
          pure (⟨name, type, none, some (8 * (offset : Int)), m'.packed, aligned⟩, (m'.requested : Int)) := by
  obtain ⟨m', hwritten, hm', hpacked, hreads⟩ := memberAttributes_read h hm halign
  refine ⟨if c.spelling.any (·.is '(') then [] else c.spelling, _, m', hwritten, hreads, ?_⟩
  have hplace : (if c.fieldOffset < 0 then none else some c.fieldOffset) = some (8 * (offset : Int)) := by
    rw [if_neg (by rw [h.place]; omega), h.place]
  have htypeAlign : m'.align = m.align := by cases hwritten <;> rfl
  have hdemand := demandedAlignment_eq hm'.positive.1 hm'.positive.2
  unfold member
  dsimp only
  rw [hplace, Alignment.ofArgument_of_reads hreads hm'.explicit, hpacked, h.bits, h.type, ← htypeAlign,
    ← hdemand]
  rfl

theorem Source.member_recorded (h : source.ReportsMember c align m offset) (hm : m.Regular)
    (halign : IsAlignment align) (hanswer : source.member below c s = .ok (answer, t)) :
    answer.1.offset = some (8 * (offset : Int)) ∧ ∃ m', LayoutMember.Written align offset m m' ∧
      answer.1.ReadAs m' ∧ answer.2 = m'.requested := by
  obtain ⟨name, aligned, m', hwritten, hreads, heq⟩ := member_eq h hm halign
  rw [heq] at hanswer
  obtain ⟨type, -, rfl⟩ := Survey.bind_pure_eq_ok.1 hanswer
  exact ⟨rfl, m', hwritten, ⟨rfl, rfl, hreads⟩, rfl⟩

theorem Source.member_fault {fault : Fault} (h : source.ReportsMember c align m offset) (hm : m.Regular)
    (halign : IsAlignment align) (hfault : source.member below c s = .error fault) :
    source.convertWith below c.type true s = .error fault := by
  obtain ⟨name, aligned, m', -, -, heq⟩ := member_eq h hm halign
  rw [heq] at hfault
  rcases Survey.bind_eq_error.1 hfault with hfault | ⟨_, _, -, hfault⟩
  · exact hfault
  · cases hfault

end Members

/-! ## Records -/

section Records

variable {source : Source} {below : Conversion} {c : Cursor} {s t : Findings} {type : CType}
  {pack : Option Nat} {ms ms' : List LayoutMember} {align : Nat}

/-- What the members ask for together. -/
theorem demanded_eq {answers : List (Member × Int)}
    (h : List.Forall₂ (fun m' answer => answer.2 = (LayoutMember.requested m' : Int)) ms' answers) :
    answers.foldl (fun most (_, alignment) => max most alignment) (1 : Int) =
      largest 1 (ms'.map (·.requested)) := by
  suffices hstart : ∀ start : Nat, answers.foldl (fun most (_, alignment) => max most alignment) (start : Int) =
      largest start (ms'.map (·.requested)) from hstart 1
  induction h with
  | nil => intro start; rfl
  | @cons m' answer ms' answers hm _ ih =>
    intro start
    have hmost : max (start : Int) answer.2 = (max start m'.requested : Nat) := by rw [hm]; omega
    unfold largest at ih ⊢
    rw [List.foldl_cons, List.map_cons, List.foldl_cons, ← ih]
    dsimp only
    rw [hmost]

/-- The packing that is inferred is the one that explains the alignment. -/
theorem inferredPack_eq (halign : 0 < align) :
    inferredPack false false align (largest 1 (ms'.map (·.requested))) =
      (explainedPack align ms').map Int.ofNat := by
  unfold inferredPack explainedPack
  by_cases hlt : align < largest 1 (ms'.map (·.requested))
  · rw [if_pos hlt, if_pos (by simp; omega)]
    rfl
  · rw [if_neg hlt, if_neg (by simp; omega)]
    rfl

/-- A complete record that is registered is in the table, its comment aside. -/
theorem get?_of_register_record {table table' : TypeTable} {stored : TypeDef} {r : Record}
    (hr : r.isComplete = true) (h : table.register (.record r) = .ok (table', stored)) :
    ∃ comment, table'.get? r.key = some (.record { r with comment := comment }) := by
  have hplaced : (table.placeLast (.record r)).get? r.key = some (.record r) := by
    unfold TypeTable.placeLast TypeTable.get?
    rw [List.find?_append, List.find?_eq_none.2 (by simp [TypeDef.key])]
    simp [TypeDef.key]
  cases TypeTable.register_cases h with
  | placed => exact ⟨r.comment, hplaced⟩
  | kept hearlier hmeet =>
    obtain ⟨comment, rfl⟩ := TypeDef.eq_of_meet_keep hr hmeet
    exact ⟨comment, hearlier⟩

/-- A record's members are read in one way. -/
theorem eq_of_readAs {members : List Member} {read read' : List LayoutMember} (htypes : SameTypes read read')
    (h : List.Forall₂ Member.ReadAs members read) (h' : List.Forall₂ Member.ReadAs members read') :
    read' = read := by
  unfold SameTypes at htypes
  induction h generalizing read' with
  | nil => cases h'; rfl
  | @cons member m members read hm _ ih =>
    cases h' with
    | @cons _ m' _ rest hm' hrest =>
      rw [List.map_cons, List.map_cons] at htypes
      injection htypes with htype htypes
      injection htype with halign hsize
      have hpacked := hm'.packed.symm.trans hm.packed
      have hexplicit := hm'.aligned.unique hm.aligned
      rw [ih htypes hrest]
      obtain ⟨align, size, explicit, packed⟩ := m
      obtain ⟨align', size', explicit', packed'⟩ := m'
      subst halign hsize hpacked hexplicit
      rfl

theorem Record.HasLayout.withComment {r : Record} {members : List Member} {L : Layout}
    (h : r.HasLayout members ms L) (comment : Option Text) :
    { r with comment := comment }.HasLayout members ms L :=
  ⟨h.complete, h.plain, h.size, h.align, h.offsets, h.readable, h.laidOut⟩

/-- **What the members of a record become**: each is recorded in its place, and read as it is or with
what the place shows. -/
theorem Source.members_recorded {fields : List CursorId} {offsets : List Nat} {answers : List (Member × Int)}
    (hms : ∀ m ∈ ms, m.Regular) (halign : IsAlignment align) (hlength : offsets.length = ms.length)
    (hreport : List.Forall₂ (fun field x => source.ReportsMember (source.unit.cursor field) align x.1 x.2)
      fields (ms.zip offsets))
    (h : (fields.mapM fun field => source.member below (source.unit.cursor field)) s = .ok (answers, t)) :
    (answers.map (·.1)).map (·.offset) = offsets.map (fun (offset : Nat) => some (8 * (offset : Int))) ∧
      ∃ ms', List.Forall₂ (fun x m' => LayoutMember.Written align x.2 x.1 m') (ms.zip offsets) ms' ∧
        SameTypes ms ms' ∧ List.Forall₂ Member.ReadAs (answers.map (·.1)) ms' ∧
        List.Forall₂ (fun m' answer => answer.2 = (LayoutMember.requested m' : Int)) ms' answers := by
  have hfields := forall₂_through.2 ⟨_, hreport.flip, Survey.mapM_answers h⟩
  have hrecorded := forall₂_imp_of_mem hfields fun x hx answer _ ⟨field, hfield, u, v, hanswer⟩ =>
    member_recorded hfield (hms x.1 (List.of_mem_zip hx).1) halign hanswer
  obtain ⟨ms', hwritten, hread⟩ := forall₂_through.1 (hrecorded.imp fun x answer h => h.2)
  refine ⟨?_, ms', hwritten, ?_, ?_, hread.imp fun _ _ h => h.2⟩
  · have hplaces := map_eq_map_of_forall₂ (hrecorded.imp fun x answer h => h.1.symm)
    rw [List.map_map]
    refine hplaces.symm.trans ?_
    rw [show (fun x : LayoutMember × Nat => some (8 * (x.2 : Int))) =
      (fun offset : Nat => some (8 * (offset : Int))) ∘ Prod.snd from rfl, ← List.map_map, List.map_snd_zip]
    omega
  · have hboth := forall₂_of_zip (R := fun m offset m' => LayoutMember.Written _ offset m m') hlength hwritten
    exact (map_eq_map_of_forall₂ (hboth.imp fun m m' ⟨_, hm⟩ => by cases hm <;> rfl)).symm
  · rw [List.forall₂_map_left_iff]
    exact (hread.imp fun _ _ h => h.1).flip

/-- A new definition enters the table after its members, complete and with the types of its fields. -/
theorem Source.record_recorded (hdefined : c.definition.isSome = true)
    (hnew : (source.keyOf c (recordKind c).keyword).1 ∉ s.done ∧
      (source.keyOf c (recordKind c).keyword).1 ∉ s.started) (h : source.record below c s = .ok (type, t)) :
    ∃ (before : Findings) (answers : List (Member × Int)) (after : Findings) (comment : Option Text),
      ((source.definedType c).fields.mapM fun field => source.member below (source.unit.cursor field)) before =
        .ok (answers, after) ∧
      t.table.get? (source.keyOf c (recordKind c).keyword).1 =
        some (.record { source.completeRecord (source.keyOf c (recordKind c).keyword).1 c
          (source.unit.cursor c.definition) (source.keyOf c (recordKind c).keyword).2 answers with comment }) ∧
      List.Forall₂ (fun field member => ∃ u v,
        source.convertWith below (source.unit.cursor field).type true u = .ok (member.type, v))
        (source.definedType c).fields (answers.map (·.1)) := by
  cases (record_cases h).2 with
  | known hknown => exact absurd hknown (by simp [hnew])
  | present hn hd => exact absurd hdefined (by rw [hd]; exact Bool.false_ne_true)
  | named hn hd => exact absurd hdefined (by rw [hd]; exact Bool.false_ne_true)
  | @defined answers u table stored hn hd hm hr =>
    obtain ⟨comment, hget⟩ := get?_of_register_record rfl hr
    refine ⟨_, answers, u, comment, hm, hget, ?_⟩
    rw [List.forall₂_map_right_iff]
    refine (Survey.mapM_answers hm).imp ?_
    rintro field answer ⟨u, v, hanswer⟩
    exact ⟨u, v, (member_eq_ok hanswer).1⟩

/-- Where the parser reports its members, a new definition fails only where their types or the table do. -/
theorem Source.record_fault_of_reported {offsets : List Nat} {fault : Fault} (hdefined : c.definition.isSome = true)
    (hms : ∀ m ∈ ms, m.Regular) (halign : IsAlignment align)
    (hreport : List.Forall₂ (fun field x => source.ReportsMember (source.unit.cursor field) align x.1 x.2)
      (source.definedType c).fields (ms.zip offsets))
    (hnew : (source.keyOf c (recordKind c).keyword).1 ∉ s.done ∧
      (source.keyOf c (recordKind c).keyword).1 ∉ s.started) (h : source.record below c s = .error fault) :
    (∃ field ∈ (source.definedType c).fields, ∃ u,
      source.convertWith below (source.unit.cursor field).type true u = .error fault) ∨
    ∃ (u : Findings) (r : Record), u.table.register (.record r) = .error fault := by
  rcases record_fault hdefined hnew h with ⟨field, hfield, u, hmember⟩ | htable
  · obtain ⟨x, hx, hreported⟩ := forall₂_exists_of_mem_left hreport hfield
    exact Or.inl ⟨field, hfield, u, member_fault hreported (hms x.1 (List.of_mem_zip hx).1) halign hmember⟩
  · exact Or.inr htable

end Records

/-! Three members under `#pragma pack(2)`: a word, a byte that a macro aligns to 4, and a packed word
that is aligned to 2. -/

def packedSource : Source :=
  { staged := ⟨[], [], []⟩
    unit :=
      { top := [], diagnostics := []
        cursors := #[
          { kind := .structDecl, spelling := "sd_t", definition := some 0, type := some 0 },
          { spelling := "a", type := some 1, parent := some 0, fieldOffset := 0 },
          { spelling := "b", type := some 2, parent := some 0, fieldOffset := 32, children := [some 4] },
          { spelling := "c", type := some 1, parent := some 0, fieldOffset := 48, children := [some 5, some 6] },
          { kind := .alignedAttr, tokens := [⟨.identifier, "ALIGN4", 20, 26⟩] },
          { kind := .packedAttr },
          { kind := .alignedAttr, tokens := [⟨.identifier, "aligned", 40, 47⟩, ⟨.punctuation, "(", 47, 48⟩,
              ⟨.literal, "2", 48, 49⟩, ⟨.punctuation, ")", 49, 50⟩] }]
        types := #[
          { kind := .record, size := 10, align := 2, fields := [some 1, some 2, some 3] },
          { kind := .scalar .uint, spelling := "unsigned int", size := 4, align := 4 },
          { kind := .scalar .uchar, spelling := "unsigned char", size := 1, align := 1 }] } }

end TrapStub
