import TrapStub.Proofs.Header.SectionDraft
import TrapStub.Proofs.Header.StubRegisters

/-!
# The header as a draft

Behind the types stand the stubs, written by the speller that knows all names. A stub spells the types of its
parameters once, and that of its result as often as it declares or converts one.

* `Plan.spelled`: the keys that a stub spells. `Stub.ofPlan_drafted`: a stub as a draft reads as the stub does
  and notes the bodies of these keys.
* `Header.draft`: the header as a draft. `Header.render_drafted`: **it reads as the header does, and its notes are
  those of the constants, of the definitions and of the stubs.**
-/

namespace TrapStub

open Draft

theorem Draft.map_text_prefix (t : Text) (lines : List Draft) :
    (lines.map (plain t ++ ·)).map text = (lines.map text).map (t ++ ·) := by
  simp [Function.comp_def]

theorem Draft.flatMap_notes_prefix (t : Text) (lines : List Draft) :
    (lines.map (plain t ++ ·)).flatMap notes = lines.flatMap notes := by
  simp [List.flatMap_map]

/-- The keys that a reply of some type spells. -/
def Reply.spelled (type : CType) : Reply → List Text
  | nothing => []
  | storage => []
  | address _ => type.keys
  | value _ _ => type.keys
  | image _ _ => type.keys

/-- The lines of a reply of some type. -/
def Reply.draftLines (speller : Speller) (type : CType) : Reply → List Draft
  | nothing => []
  | storage => [plain "return __result;"]
  | address _ => [plain "return (" ++ speller.declareDraft 0 type [] ++ plain ")(uintptr_t)__r0;"]
  | value _ .word => [plain "return (" ++ speller.declareDraft 0 type [] ++ plain ")__r0;"]
  | value _ .pair =>
    [plain "return (" ++ speller.declareDraft 0 type [] ++ plain (")(" ++ ReplySource.pair.text ++ ");")]
  | image _ source =>
    let holder : Text := match source with
      | .word => "uint32_t"
      | .pair => "uint64_t"
    [plain (holder ++ " __ret_bits = " ++ source.text ++ ";"),
     speller.declareDraft 0 type.unqualified (plain "__ret") ++ plain ";",
     plain "__builtin_memcpy(&__ret, &__ret_bits, sizeof(__ret));",
     plain "return __ret;"]

/-- The keys that giving a result back spells, where the type of the result has these keys. -/
def Return.spelled (result : List Text) : Return → List Text
  | void => []
  | storage => []
  | register _ => result
  | registerPair _ => result

/-- The keys that the stub of a plan spells. -/
def Plan.spelled (plan : Plan) : List Text :=
  let result := plan.declaration.returnType.keys
  result ++ plan.declaration.parameters.flatMap (·.type.keys) ++
    (if plan.resultSlot?.isSome then result else []) ++ plan.returns.spelled result

namespace Speller

variable {speller : Speller} {a b : List Text}

theorem bodies_append (speller : Speller) (a b : List Text) :
    speller.bodies (a ++ b) = speller.bodies a ++ speller.bodies b := List.flatMap_append

theorem Spells.append (ha : speller.Spells a) (hb : speller.Spells b) : speller.Spells (a ++ b) :=
  List.forall_mem_append.2 ⟨ha, hb⟩

theorem spells_nil : speller.Spells [] := fun _ hkey => absurd hkey List.not_mem_nil

end Speller

namespace Stub

open Speller

variable {comments : Bool} {speller : Speller} {plan : Plan} {stub : Stub}

/-- The parameters and the result as C declares them. -/
def signatureDraft (speller : Speller) (d : Declaration) : Draft :=
  let list := join ", " (d.parameters.map fun p => speller.declareDraft 0 p.type (plain p.name))
  let list := if (text list).isEmpty then list ++ plain "void" else list
  speller.declareDraft 0 d.returnType (plain (d.name ++ "(") ++ list ++ plain ")")

/-- The variable for a result in memory, if there is one. -/
def resultLines (speller : Speller) (plan : Plan) : List Draft :=
  if plan.resultSlot?.isSome then
    [speller.declareDraft 0 plan.declaration.returnType.unqualified (plain "__result") ++ plain ";"]
  else []

/-- The lines of the stub of a plan. -/
def draftLines (stub : Stub) (speller : Speller) (plan : Plan) : List Draft :=
  stub.comment.map plain ++
  [plain "static inline __attribute__((always_inline)) " ++ signatureDraft speller plan.declaration, plain "\x7b"] ++
  ((resultLines speller plan ++ ((plan.slots.filterMap (·.content.preparation?)).flatMap Preparation.lines ++
    stub.registers.map (·.line)).map plain).map (plain Header.indent ++ ·)) ++
  stub.trapLines.map plain ++
  (stub.reply.draftLines speller plan.declaration.returnType).map (plain Header.indent ++ ·) ++
  [plain "\x7d"]

/-! ### Signatures -/

theorem signatureDraft_text {d : Declaration} {signature : Text} (h : signatureOf speller d = .ok signature) :
    text (signatureDraft speller d) = signature := by
  obtain ⟨parameters, hparameters, h⟩ := bind_eq_ok.1 h
  have hlist : text (join ", " (d.parameters.map fun p => speller.declareDraft 0 p.type (plain p.name))) =
      Text.join ", " parameters := by
    rw [text_join, List.map_map]
    congr 1
    refine (map_eq_map_of_forall₂ (forall₂_imp_of_mem (mapM_eq_ok.1 hparameters) ?_)).trans parameters.map_id
    intro p _ declared _ hp
    exact declareDraft_text (by rwa [text_plain])
  unfold signatureDraft
  refine declareDraft_text ?_
  rw [text_append, text_append, text_plain, text_plain]
  simp only [hlist]
  split
  · next hempty =>
    simp only [hempty, if_true] at h
    rw [text_append, hlist, List.isEmpty_iff.1 hempty, List.nil_append, text_plain]
    exact h
  · next hsome =>
    dsimp only at h
    rw [if_neg hsome] at h
    rw [hlist]
    exact h

theorem signatureDraft_notes (speller : Speller) (d : Declaration) : (notes (signatureDraft speller d)).Perm
    (Note.bodies (speller.bodies (d.returnType.keys ++ d.parameters.flatMap (·.type.keys)))) := by
  unfold signatureDraft
  refine (declareDraft_bodies speller 0 d.returnType _).trans ?_
  rw [bodies_append, Note.bodies_append]
  refine List.Perm.append_left _ ?_
  have hlist : ∀ list : Draft, notes (if (text list).isEmpty then list ++ plain "void" else list) = notes list := by
    intro list
    split <;> simp
  rw [notes_append, notes_append, notes_plain, notes_plain, List.nil_append, List.append_nil, hlist, notes_join,
    List.flatMap_map, bodies, List.flatMap_assoc, Note.bodies_flatMap]
  refine List.Perm.flatMap_left _ fun p _ => ?_
  refine (declareDraft_bodies speller 0 p.type (plain p.name)).trans (List.Perm.of_eq ?_)
  rw [notes_plain, List.append_nil]
  rfl

theorem spells_of_signature {d : Declaration} {signature : Text} (h : signatureOf speller d = .ok signature) :
    speller.Spells (d.returnType.keys ++ d.parameters.flatMap (·.type.keys)) := by
  obtain ⟨parameters, hparameters, h⟩ := bind_eq_ok.1 h
  refine (spells_of_declare h).append fun key hkey => ?_
  obtain ⟨p, hp, hk⟩ := List.mem_flatMap.1 hkey
  obtain ⟨declared, -, hdeclared⟩ := forall₂_exists_of_mem_left (mapM_eq_ok.1 hparameters) hp
  exact spells_of_declare hdeclared key hk

/-! ### Results -/

/-- The statements in front of the register variables, and what they are made of. -/
theorem preparationsOf_drafted {preparations : List Preparation}
    (h : preparationsOf speller plan = .ok preparations) :
    (resultLines speller plan).map text ++ (plan.slots.filterMap (·.content.preparation?)).flatMap Preparation.lines =
        preparations.flatMap Preparation.lines ∧
      ((resultLines speller plan).flatMap notes).Perm (Note.bodies (speller.bodies
        (if plan.resultSlot?.isSome then plan.declaration.returnType.keys else []))) := by
  unfold preparationsOf at h
  unfold resultLines
  cases hslot : plan.resultSlot? with
  | none =>
    rw [hslot] at h
    obtain ⟨result, hresult, h⟩ := bind_eq_ok.1 h
    rw [← pure_eq_ok.1 h, ← pure_eq_ok.1 hresult]
    exact ⟨rfl, .nil⟩
  | some slot =>
    rw [hslot] at h
    obtain ⟨declared, hdeclared, h⟩ := bind_eq_ok.1 h
    obtain ⟨result, hresult, h⟩ := bind_eq_ok.1 h
    rw [← pure_eq_ok.1 h, ← pure_eq_ok.1 hresult]
    constructor
    · have htext : text (speller.declareDraft 0 plan.declaration.returnType.unqualified (plain "__result")) =
          declared := declareDraft_text (by rwa [text_plain])
      simp [Preparation.lines, htext]
    · simp only [Option.isSome_some, if_true, List.flatMap_singleton, notes_append, notes_plain, List.append_nil]
      refine (declareDraft_bodies speller 0 _ _).trans (List.Perm.of_eq ?_)
      rw [notes_plain, List.append_nil, CType.keys_unqualified]

/-- The keys that a reply spells are those of its plan. -/
theorem replyOf_spelled {reply : Reply} (h : replyOf speller plan = .ok reply) :
    reply.spelled plan.declaration.returnType = plan.returns.spelled plan.declaration.returnType.keys := by
  unfold replyOf at h
  cases hr : plan.returns with
  | void => rw [hr] at h; cases h; rfl
  | storage => rw [hr] at h; cases h; rfl
  | register carriage =>
    rw [hr] at h
    cases carriage with
    | address => obtain ⟨cast, -, rfl⟩ := map_eq_ok.1 h; rfl
    | value => obtain ⟨cast, -, h⟩ := bind_eq_ok.1 h; rw [← pure_eq_ok.1 h]; rfl
    | image => obtain ⟨holder, -, h⟩ := bind_eq_ok.1 h; rw [← pure_eq_ok.1 h]; rfl
  | registerPair image =>
    rw [hr] at h
    cases image with
    | false => obtain ⟨cast, -, h⟩ := bind_eq_ok.1 h; rw [← pure_eq_ok.1 h]; rfl
    | true => obtain ⟨holder, -, h⟩ := bind_eq_ok.1 h; rw [← pure_eq_ok.1 h]; rfl

theorem replyOf_text {reply : Reply} (h : replyOf speller plan = .ok reply) :
    (reply.draftLines speller plan.declaration.returnType).map text = reply.lines := by
  have hcast : ∀ cast, speller.declare 0 plan.declaration.returnType [] = .ok cast →
      text (speller.declareDraft 0 plan.declaration.returnType []) = cast := fun cast hc => declareDraft_text hc
  have hholder : ∀ holder, speller.declare 0 plan.declaration.returnType.unqualified "__ret" = .ok holder →
      text (speller.declareDraft 0 plan.declaration.returnType.unqualified (plain "__ret")) = holder :=
    fun holder hh => declareDraft_text (by rwa [text_plain])
  unfold replyOf at h
  cases hr : plan.returns with
  | void => rw [hr] at h; cases h; rfl
  | storage =>
    rw [hr] at h
    cases h
    simp [Reply.draftLines, Reply.lines]
  | register carriage =>
    rw [hr] at h
    cases carriage with
    | address =>
      obtain ⟨cast, hc, rfl⟩ := map_eq_ok.1 h
      simp [Reply.draftLines, Reply.lines, hcast cast hc]
    | value =>
      obtain ⟨cast, hc, h⟩ := bind_eq_ok.1 h
      rw [← pure_eq_ok.1 h]
      simp [Reply.draftLines, Reply.lines, hcast cast hc]
    | image =>
      obtain ⟨holder, hh, h⟩ := bind_eq_ok.1 h
      rw [← pure_eq_ok.1 h]
      simp [Reply.draftLines, Reply.lines, hholder holder hh]
  | registerPair image =>
    rw [hr] at h
    cases image with
    | false =>
      obtain ⟨cast, hc, h⟩ := bind_eq_ok.1 h
      rw [← pure_eq_ok.1 h]
      simp [Reply.draftLines, Reply.lines, hcast cast hc]
    | true =>
      obtain ⟨holder, hh, h⟩ := bind_eq_ok.1 h
      rw [← pure_eq_ok.1 h]
      simp [Reply.draftLines, Reply.lines, hholder holder hh]

theorem replyDraft_notes (speller : Speller) (type : CType) (reply : Reply) :
    ((reply.draftLines speller type).flatMap notes).Perm (Note.bodies (speller.bodies (reply.spelled type))) := by
  have hcast : (notes (speller.declareDraft 0 type [])).Perm (Note.bodies (speller.bodies type.keys)) := by
    have := declareDraft_bodies speller 0 type []
    rwa [notes_nil, List.append_nil] at this
  have hholder : (notes (speller.declareDraft 0 type.unqualified (plain "__ret"))).Perm
      (Note.bodies (speller.bodies type.keys)) := by
    have := declareDraft_bodies speller 0 type.unqualified (plain "__ret")
    rwa [notes_plain, List.append_nil, CType.keys_unqualified] at this
  cases reply with
  | nothing => exact .nil
  | storage => simp [Reply.draftLines, Reply.spelled, bodies, Note.bodies]
  | address cast => simpa [Reply.draftLines, Reply.spelled] using hcast
  | value cast source => cases source <;> simpa [Reply.draftLines, Reply.spelled] using hcast
  | image holder source => simpa [Reply.draftLines, Reply.spelled] using hholder

/-! ### Stubs -/

/-- **The draft of a stub reads as the stub does**, and notes the bodies of the keys that it spells. -/
theorem ofPlan_drafted (h : ofPlan comments speller plan = .ok stub) :
    (stub.draftLines speller plan).map text = stub.lines ∧
      ((stub.draftLines speller plan).flatMap notes).Perm (Note.bodies (speller.bodies plan.spelled)) ∧
      speller.Spells plan.spelled := by
  obtain ⟨signature, preparations, reply, hsignature, hpreparations, hreply, rfl⟩ := ofPlan_eq_ok.1 h
  obtain ⟨hlines, hresult⟩ := preparationsOf_drafted hpreparations
  refine ⟨?_, ?_, ?_⟩
  · unfold draftLines lines
    simp only [List.map_append, map_text_plain, map_text_prefix, replyOf_text hreply, List.map_cons, List.map_nil,
      text_append, text_plain, signatureDraft_text hsignature, ← hlines, List.append_assoc]
  · have hrest := ((signatureDraft_notes speller plan.declaration).append hresult).append
      (replyDraft_notes speller plan.declaration.returnType reply)
    rw [replyOf_spelled hreply, ← Note.bodies_append, ← Note.bodies_append, ← bodies_append, ← bodies_append] at hrest
    refine (List.Perm.of_eq ?_).trans hrest
    simp [draftLines, flatMap_notes_plain, flatMap_notes_prefix, -List.map_append]
  · have hsignature := spells_of_signature hsignature
    have hresult : speller.Spells plan.declaration.returnType.keys :=
      fun key hkey => hsignature key (List.mem_append_left _ hkey)
    refine (hsignature.append ?_).append ?_
    · split
      · exact hresult
      · exact spells_nil
    · cases plan.returns with
      | void => exact spells_nil
      | storage => exact spells_nil
      | register carriage => exact hresult
      | registerPair image => exact hresult

end Stub

namespace Header

open Speller

/-- The lines of the constants. -/
def constantDraft (constants : List (Text × Text)) : List Draft :=
  if constants.isEmpty then []
  else [[], plain (sectionTitle "Constants"), []] ++
    constants.map fun (name, body) => mark (.constant name) ++ plain ("#define " ++ name ++ " " ++ body)

/-- The lines of the types, and the speller that knows their names. -/
def typeDraft (comments : Bool) (table : TypeTable) (plans : List Plan) : Except Fault (List Draft × Speller) := do
  if table.entries.isEmpty then return ([], .ofTable table)
  let (lines, speller) ← TypeSection.draft comments table plans
  return ([[], plain (sectionTitle "Types")] ++ lines, speller)

/-- The lines of the stub of a plan. -/
def stubDraft (comments : Bool) (speller : Speller) (plan : Plan) : Except Fault (List Draft) := do
  let stub ← Stub.ofPlan comments speller plan
  return stub.draftLines speller plan

/-- The lines of the stubs. -/
def stubSection (stubs : List (List Draft)) : List Draft :=
  if stubs.isEmpty then []
  else [[], plain (sectionTitle "SVC stubs")] ++ stubs.flatMap fun lines => [] :: lines

/-- The output file. -/
def draft (corpus : Corpus) (plans : List Plan) (settings : Settings) (outputName : Text) : Except Fault Draft := do
  let guard := settings.guard?.getD (guardOf outputName)
  let (types, speller) ← typeDraft settings.comments corpus.table plans
  let stubs ← plans.mapM (stubDraft settings.comments speller)
  return unlines <|
    (preambleLines settings.preamble ++ openingLines corpus guard).map plain ++
    constantDraft corpus.constants ++ types ++ stubSection stubs ++
    [[], plain ("#endif /* " ++ guard ++ " */"), []]

/-- What the draft of a header is. -/
structure Drafted (corpus : Corpus) (plans : List Plan) (written : Text) (header : Draft) : Prop where
  text : Draft.text header = written
  notes : (Draft.notes header).Perm
    (corpus.constants.map (fun c => Note.constant c.1) ++
      ((Speller.ofTable corpus.table).writing corpus.table.entries).flatMap (fun w =>
        TypeSection.entryNotes (TypeSection.mentioned corpus.table plans) w.1 w.2) ++
      Note.bodies
        ((corpus.table.entries.foldl Speller.after (.ofTable corpus.table)).bodies (plans.flatMap Plan.spelled)))
  entries : ∀ w ∈ (Speller.ofTable corpus.table).writing corpus.table.entries,
    w.2.isWritten (TypeSection.mentioned corpus.table plans) = true → w.1.Spells w.2.mentions
  stubs : (corpus.table.entries.foldl Speller.after (.ofTable corpus.table)).Spells (plans.flatMap Plan.spelled)

variable {comments : Bool} {speller last : Speller} {table : TypeTable} {plans : List Plan} {stubs : List Stub}

theorem constantDraft_text (constants : List (Text × Text)) :
    (constantDraft constants).map text = constantLines constants := by
  unfold constantDraft constantLines
  split <;> simp [Function.comp_def]

theorem constantDraft_notes (constants : List (Text × Text)) :
    (constantDraft constants).flatMap notes = constants.map fun c => Note.constant c.1 := by
  unfold constantDraft
  split
  · next hempty => rw [List.isEmpty_iff.1 hempty]; rfl
  · simp [List.flatMap_map, ← List.map_eq_flatMap]

/-- The draft of the types reads as they do. -/
theorem typeLines_drafted {written : List Text} (h : typeLines comments table plans = .ok (written, last)) :
    ∃ lines, typeDraft comments table plans = .ok (lines, last) ∧ lines.map text = written ∧
      last = table.entries.foldl Speller.after (.ofTable table) ∧
      lines.flatMap notes = ((Speller.ofTable table).writing table.entries).flatMap (fun w =>
        TypeSection.entryNotes (TypeSection.mentioned table plans) w.1 w.2) ∧
      ∀ w ∈ (Speller.ofTable table).writing table.entries,
        w.2.isWritten (TypeSection.mentioned table plans) = true → w.1.Spells w.2.mentions := by
  unfold typeLines at h
  unfold typeDraft
  split at h
  · next hempty =>
    cases pure_eq_ok.1 h
    rw [if_pos hempty, List.isEmpty_iff.1 hempty]
    exact ⟨[], rfl, rfl, rfl, rfl, List.forall_mem_nil _⟩
  · next hsome =>
    obtain ⟨⟨lines, speller⟩, hlines, h⟩ := bind_eq_ok.1 h
    cases pure_eq_ok.1 h
    obtain ⟨drafts, hdrafts, hdrafted⟩ := TypeSection.lines_drafted hlines
    refine ⟨[[], plain (sectionTitle "Types")] ++ drafts, ?_, ?_, hdrafted.last, ?_, hdrafted.spells⟩
    · rw [if_neg hsome, hdrafts]
      rfl
    · simp [hdrafted.text]
    · simp [hdrafted.notes]

/-- The drafts of stubs read as they do. -/
theorem stubs_drafted (h : List.Forall₂ (fun plan stub => Stub.ofPlan comments speller plan = .ok stub) plans stubs) :
    ∃ drafts, plans.mapM (stubDraft comments speller) = .ok drafts ∧
      (stubSection drafts).map text = stubLines stubs ∧
      ((stubSection drafts).flatMap notes).Perm (Note.bodies (speller.bodies (plans.flatMap Plan.spelled))) ∧
      speller.Spells (plans.flatMap Plan.spelled) := by
  have hall : ∃ drafts, plans.mapM (stubDraft comments speller) = .ok drafts ∧ drafts.isEmpty = stubs.isEmpty ∧
      (drafts.flatMap fun lines => [] :: lines).map text = (stubs.flatMap fun stub => [] :: stub.lines) ∧
      ((drafts.flatMap fun lines => [] :: lines).flatMap notes).Perm
        (Note.bodies (speller.bodies (plans.flatMap Plan.spelled))) ∧
      speller.Spells (plans.flatMap Plan.spelled) := by
    induction h with
    | nil => exact ⟨[], rfl, rfl, rfl, .nil, nofun⟩
    | @cons plan stub plans stubs hstub _ ih =>
      obtain ⟨htext, hnotes, hspells⟩ := Stub.ofPlan_drafted hstub
      obtain ⟨drafts, hdrafts, -, htexts, hrest, hall⟩ := ih
      refine ⟨stub.draftLines speller plan :: drafts, ?_, rfl, ?_, ?_, hspells.append hall⟩
      · rw [List.mapM_cons, stubDraft, hstub, hdrafts]
        rfl
      · rw [List.flatMap_cons, List.map_append, htexts, List.map_cons, htext, List.flatMap_cons]
        rfl
      · rw [List.flatMap_cons, List.flatMap_append, List.flatMap_cons, List.flatMap_cons, bodies_append,
          Note.bodies_append]
        exact hnotes.append hrest
  obtain ⟨drafts, hdrafts, hempty, htext, hnotes, hspells⟩ := hall
  refine ⟨drafts, hdrafts, ?_, ?_, hspells⟩
  · unfold stubSection stubLines
    rw [hempty]
    split
    · rfl
    · rw [List.map_append, htext]
      simp
  · unfold stubSection
    split
    · next hnone =>
      rw [List.isEmpty_iff.1 hnone] at hnotes
      exact hnotes
    · rw [List.flatMap_append]
      simpa using hnotes

/-- **The draft of a header reads as the header does**, and notes what it is made of. -/
theorem render_drafted {corpus : Corpus} {settings : Settings} {outputName written : Text}
    (h : render corpus plans settings outputName = .ok written) :
    ∃ header, draft corpus plans settings outputName = .ok header ∧ Drafted corpus plans written header := by
  obtain ⟨⟨types, speller⟩, htypes, hrest⟩ := bind_eq_ok.1 h
  obtain ⟨stubs, hstubs, hwritten⟩ := bind_eq_ok.1 hrest
  obtain ⟨lines, hlines, htext, rfl, hnotes, hentries⟩ := typeLines_drafted htypes
  obtain ⟨drafts, hdrafts, hstubText, hstubNotes, hspells⟩ := stubs_drafted (mapM_eq_ok.1 hstubs)
  refine ⟨_, bind_eq_ok.2 ⟨_, hlines, bind_eq_ok.2 ⟨drafts, hdrafts, rfl⟩⟩, ?_, ?_, hentries, hspells⟩
  · rw [← pure_eq_ok.1 hwritten]
    simp only [text_unlines, List.map_append, map_text_plain, constantDraft_text, htext, hstubText, List.map_cons,
      List.map_nil, text_nil, text_plain]
  · simp only [notes_unlines, List.flatMap_append, flatMap_notes_plain, constantDraft_notes, hnotes, List.nil_append,
      List.flatMap_cons, List.flatMap_nil, notes_nil, notes_plain, List.append_nil]
    exact hstubNotes.append_left _

end Header

end TrapStub
