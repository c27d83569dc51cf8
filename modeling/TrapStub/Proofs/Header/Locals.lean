import TrapStub.Proofs.Header.StubRegisters
import TrapStub.Proofs.Plan.Demand

/-!
# Local names of a stub

The body of a stub declares a variable for a result in memory, one for the bytes of each parameter that is carried
as its bytes, one for each operand of the trap, and two for a result that comes back as its bytes. The names are put
together apart from each other: those for bytes from the names of the parameters, the others are fixed.

* `Stub.localNames`: the variables that a body declares, in order.
* `Stub.Declares`: the statements of a body declare variables of these names and no others.
* `Stub.localNames_nodup_iff`: **two variables have one name just if there is one for the bytes of a parameter `ret`
  and one for those of the result.**
* `Stub.ofPlan_locals`: what this means for the stub of a declaration.
-/

namespace TrapStub

open Text

variable {table : TypeTable} {d : Declaration} {plan : Plan} {speller : Speller} {names : List Text} {name : Text}

/-! ## Names for bytes -/

theorem imageName_injective : Function.Injective imageName := fun _ _ h =>
  List.append_cancel_left (List.append_cancel_right h)

theorem suffix_imageName (name : Text) : ("_bits" : Text) <:+ imageName name := List.suffix_append _ _

/-- A register's name ends in a digit, so it is no name for bytes. -/
theorem isRegisterLike_imageName (name : Text) : Stub.isRegisterLike (imageName name) = false := by
  have hmem : Glyph.char 's' ∈ (imageName name).drop 3 := by
    cases name with
    | nil => decide
    | cons g rest => exact List.mem_append_right rest (by decide)
  rw [Stub.isRegisterLike, Bool.and_eq_false_iff]
  refine .inr (Bool.eq_false_iff.2 fun hall => ?_)
  have hdigit := List.all_eq_true.1 hall _ hmem
  exact absurd hdigit (by decide)

/-! ## Which values are carried as their bytes -/

/-- A value of the shape is copied into an integer: it takes registers, and they hold its bytes. -/
def Shape.isCopied (shape : Shape) : Bool := shape.isPassable && shape.isImage

/-- A value of the type is copied into an integer. -/
def TypeTable.copies (table : TypeTable) (t : CType) : Bool :=
  match table.lookup t with
  | .ok shape => shape.isCopied
  | .error _ => false

/-- The result is taken from its bytes. -/
def Return.isImage : Return → Bool
  | register .image | registerPair true => true
  | _ => false

theorem TypeTable.copies_eq {t : CType} {shape : Shape} (h : table.lookup t = .ok shape) :
    table.copies t = shape.isCopied := by
  rw [copies, h]

namespace Shape

variable {shape : Shape}

theorem isPassable_of_passing {parameter : Text} {index : Nat} {chunk : List Slot}
    (h : Lays parameter index shape.passing chunk) : shape.isPassable = true := by
  by_contra hnot
  rw [passing_of_not_isPassable (Bool.eq_false_iff.2 hnot)] at h
  split at h
  · cases h
  · split at h <;> cases h

/-- An address is not carried as its bytes. -/
theorem isImage_of_isAddress (h : shape.isAddress = true) : shape.isImage = false := by
  cases shape <;> first | rfl | cases h

/-- What is carried as its bytes comes back as its bytes. -/
theorem isImage_of_returnOf {returns : Return} (h : Plan.returnOf shape.passing = .ok returns) :
    returns.isImage = shape.isCopied := by
  rw [isCopied]
  cases hnarrow : shape.isNarrow with
  | true =>
    obtain ⟨carriage, hpassing⟩ := passing_of_isNarrow hnarrow
    rw [hpassing] at h
    cases h
    -- in one register, as an address, as its bytes or as its value
    rw [isPassable, hnarrow, Bool.true_or, Bool.true_and, carriage_of_passing hpassing]
    cases haddress : shape.isAddress with
    | true => rw [isImage_of_isAddress haddress]; rfl
    | false => cases shape.isImage <;> rfl
  | false =>
    cases hwide : shape.isWide with
    | true =>
      obtain ⟨image, hpassing⟩ := passing_of_isWide hwide
      rw [hpassing] at h
      cases h
      rw [isPassable, hwide, Bool.or_true, Bool.true_and, ← image_of_passing hpassing]
      cases image <;> rfl
    | false =>
      -- no result, or one in memory
      have hnot := isPassable_eq_false.2 ⟨hnarrow, hwide⟩
      rw [passing_of_not_isPassable hnot] at h
      rw [hnot, Bool.false_and]
      split at h
      · cases h; rfl
      · split at h <;> cases h
        rfl

end Shape

/-! ## Variables and their declarations -/

/-- The variable that a preparation declares. -/
def Preparation.localName : Preparation → Text
  | result _ => "__result"
  | wordImage parameter | wideImage parameter => imageName parameter

/-- The variables for a result that the firmware may put in memory. -/
def resultNames (stored : Bool) : List Text := if stored then ["__result"] else []

/-- The variables for a result that may be taken from its bytes. -/
def replyNames (copied : Bool) : List Text := if copied then ["__ret_bits", "__ret"] else []

/-- What a register's content needs is no variable for the result. -/
theorem Content.preparation?_ne_result {content : Content} {declaration : Text} :
    content.preparation? ≠ some (.result declaration) := by
  intro h
  unfold preparation? at h
  split at h <;> cases h

/-- The variables that a reply declares. -/
def Reply.localNames : Reply → List Text
  | image _ _ => ["__ret_bits", "__ret"]
  | _ => []

namespace Stub

variable {comments : Bool} {stub : Stub}

/-- The variables that the body of a stub declares, in the order of their declarations. -/
def localNames (stub : Stub) : List Text :=
  stub.preparations.map (·.localName) ++ stub.registers.map (RegisterVariable.nameOf ·.register) ++
    stub.reply.localNames

/-- A statement, and the variable that it declares if it is a declaration. -/
inductive Statement (speller : Speller) : Option Text → Text → Prop
  /-- A variable of a type of the header. -/
  | typed {t : CType} {name text : Text} (h : speller.declare 0 t name = .ok text) :
    Statement speller (some name) (text ++ ";")
  /-- An integer, with a value or without one. -/
  | integer {type value : Text} (name : Text) (ht : type ∈ [("uint32_t" : Text), "uint64_t"])
      (hv : value = [] ∨ ∃ e : Text, value = " = " ++ e) :
    Statement speller (some name) (type ++ " " ++ name ++ value ++ ";")
  /-- An integer that stands for a register, with a value or without one. -/
  | register {value : Text} (name assembler : Text) (hv : value = [] ∨ ∃ e : Text, value = " = " ++ e) :
    Statement speller (some name)
      ("register uint32_t " ++ name ++ " __asm__(\"" ++ assembler ++ "\")" ++ value ++ ";")
  | copy (target source size : Text) :
    Statement speller none ("__builtin_memcpy(&" ++ target ++ ", &" ++ source ++ ", sizeof(" ++ size ++ "));")
  | back (value : Text) : Statement speller none ("return " ++ value ++ ";")

/-- Some lines declare variables of these names, in this order, and no others. -/
def DeclaredBy (speller : Speller) (lines names : List Text) : Prop :=
  ∃ declared, List.Forall₂ (Statement speller) declared lines ∧ declared.filterMap id = names

/-- The lines in front of the trap and behind it declare variables of these names and no others. -/
def Declares (stub : Stub) (speller : Speller) (names : List Text) : Prop :=
  ∃ before after, DeclaredBy speller (before ++ after) names ∧
    stub.lines = stub.comment ++
      [("static inline __attribute__((always_inline)) " ++ stub.signature : Text), "\x7b"] ++
      before.map (Header.indent ++ ·) ++ stub.trapLines ++ after.map (Header.indent ++ ·) ++ [("\x7d" : Text)]

theorem DeclaredBy.append {lines lines' names' : List Text} (h : DeclaredBy speller lines names)
    (h' : DeclaredBy speller lines' names') : DeclaredBy speller (lines ++ lines') (names ++ names') := by
  obtain ⟨declared, hlines, rfl⟩ := h
  obtain ⟨declared', hlines', rfl⟩ := h'
  exact ⟨declared ++ declared', List.rel_append hlines hlines', List.filterMap_append⟩

/-- Parts that declare one variable each. -/
theorem declaredBy_flatMap {α : Type} {parts : List α} {lines : α → List Text} {nameOf : α → Text}
    (h : ∀ part ∈ parts, DeclaredBy speller (lines part) [nameOf part]) :
    DeclaredBy speller (parts.flatMap lines) (parts.map nameOf) := by
  induction parts with
  | nil => exact ⟨[], .nil, rfl⟩
  | cons part parts ih =>
    obtain ⟨hpart, hparts⟩ := List.forall_mem_cons.1 h
    exact hpart.append (ih hparts)

theorem Statement.congr {declared : Option Text} {line line' : Text} (h : Statement speller declared line)
    (he : line = line') : Statement speller declared line' := he ▸ h

/-- The lines of a preparation declare its variable. -/
theorem declaredBy_preparation {p : Preparation} (h : ∀ declaration, p = .result declaration →
    ∃ t, speller.declare 0 t "__result" = .ok declaration) :
    DeclaredBy speller p.lines [p.localName] := by
  cases p with
  | result declaration =>
    obtain ⟨t, ht⟩ := h declaration rfl
    exact ⟨[some "__result"], .cons (.typed ht) .nil, rfl⟩
  | wordImage parameter =>
    have hvariable : Statement speller (some (imageName parameter))
        ("uint32_t" ++ " " ++ imageName parameter ++ " = 0" ++ ";" : Text) :=
      .integer _ List.mem_cons_self (.inr ⟨"0", rfl⟩)
    refine ⟨[some (imageName parameter), none], .cons (hvariable.congr ?_) (.cons (.copy _ _ _) .nil), rfl⟩
    simp only [List.append_assoc]
    rfl
  | wideImage parameter =>
    have hvariable : Statement speller (some (imageName parameter))
        ("uint64_t" ++ " " ++ imageName parameter ++ ([] : Text) ++ ";") :=
      .integer _ (List.mem_cons_of_mem _ List.mem_cons_self) (.inl rfl)
    refine ⟨[some (imageName parameter), none], .cons (hvariable.congr ?_) (.cons (.copy _ _ _) .nil), rfl⟩
    simp only [List.append_assoc]
    rfl

theorem declaredBy_register (v : RegisterVariable) :
    DeclaredBy speller [v.line] [RegisterVariable.nameOf v.register] := by
  refine ⟨[some (RegisterVariable.nameOf v.register)], .cons (.register _ _ ?_) .nil, rfl⟩
  cases v.initial with
  | none => exact .inl rfl
  | some expr => exact .inr ⟨expr.text, rfl⟩

theorem declaredBy_registers (registers : List RegisterVariable) : DeclaredBy speller
    (registers.map (·.line)) (registers.map (RegisterVariable.nameOf ·.register)) := by
  rw [List.map_eq_flatMap]
  exact declaredBy_flatMap fun v _ => declaredBy_register v

/-- A statement that gives something back declares nothing. -/
theorem declaredBy_back {line : Text} (value : Text) (h : "return " ++ value ++ ";" = line) :
    DeclaredBy speller [line] [] :=
  ⟨[none], .cons ((Statement.back value).congr h) .nil, rfl⟩

/-- The lines of a reply declare its variables. -/
theorem declaredBy_reply {reply : Reply} (h : ∀ declaration source, reply = .image declaration source →
    ∃ t, speller.declare 0 t "__ret" = .ok declaration) :
    DeclaredBy speller reply.lines reply.localNames := by
  cases reply with
  | nothing => exact ⟨[], .nil, rfl⟩
  | storage => exact declaredBy_back "__result" rfl
  | address type =>
    refine declaredBy_back ("(" ++ type ++ ")(uintptr_t)__r0") ?_
    simp only [List.append_assoc]
    rfl
  | value type source =>
    cases source with
    | word =>
      refine declaredBy_back ("(" ++ type ++ ")__r0") ?_
      simp only [List.append_assoc]
      rfl
    | pair =>
      refine declaredBy_back ("(" ++ type ++ ")(" ++ ReplySource.pair.text ++ ")") ?_
      simp only [List.append_assoc]
      rfl
  | image declaration source =>
    obtain ⟨t, ht⟩ := h declaration source rfl
    have hbits : ∀ type ∈ [("uint32_t" : Text), "uint64_t"], Statement speller (some "__ret_bits")
        (type ++ " __ret_bits = " ++ source.text ++ ";") := by
      intro type htype
      refine Statement.congr (.integer "__ret_bits" htype (.inr ⟨source.text, rfl⟩)) ?_
      simp only [List.append_assoc]
      rfl
    refine ⟨[some "__ret_bits", some "__ret", none, none], ?_, rfl⟩
    refine .cons ?_ (.cons (.typed ht) (.cons (.copy "__ret" "__ret_bits" "__ret") (.cons (.back "__ret") .nil)))
    cases source with
    | word => exact hbits _ List.mem_cons_self
    | pair => exact hbits _ (List.mem_cons_of_mem _ List.mem_cons_self)

/-! ## From the plan to the variables -/

/-- The preparations of a plan: the variable for a result in memory, and what the slots need. -/
theorem preparationsOf_cases {preparations : List Preparation} (h : preparationsOf speller plan = .ok preparations) :
    ∃ result, preparations = result ++ plan.slots.filterMap (·.content.preparation?) ∧
      result.map (·.localName) = resultNames plan.resultSlot?.isSome ∧
      ∀ declaration, .result declaration ∈ result →
        speller.declare 0 plan.declaration.returnType.unqualified "__result" = .ok declaration := by
  unfold preparationsOf at h
  cases hslot : plan.resultSlot? with
  | none =>
    rw [hslot] at h
    exact ⟨[], (pure_eq_ok.1 h).symm, rfl, fun _ hmem => absurd hmem List.not_mem_nil⟩
  | some slot =>
    rw [hslot] at h
    obtain ⟨text, ht, h⟩ := bind_eq_ok.1 h
    refine ⟨[.result text], (pure_eq_ok.1 h).symm, rfl, fun declaration hmem => ?_⟩
    obtain ⟨⟩ := List.mem_singleton.1 hmem
    exact ht

/-- What a reply declares: nothing, or the two variables for a result that is taken from its bytes. -/
def RepliesAs (reply : Reply) (speller : Speller) (plan : Plan) : Prop :=
  reply.localNames = replyNames plan.returns.isImage ∧
    ∀ declaration source, reply = .image declaration source →
      speller.declare 0 plan.declaration.returnType.unqualified "__ret" = .ok declaration

theorem repliesAs_image {text : Text} {source : ReplySource} (hr : plan.returns.isImage = true)
    (ht : speller.declare 0 plan.declaration.returnType.unqualified "__ret" = .ok text) :
    RepliesAs (.image text source) speller plan := by
  refine ⟨by rw [hr]; rfl, ?_⟩
  rintro declaration _ ⟨⟩
  exact ht

theorem repliesAs_other {reply : Reply} (hr : plan.returns.isImage = false) (hn : reply.localNames = []) :
    RepliesAs reply speller plan := by
  refine ⟨by rw [hr]; exact hn, ?_⟩
  rintro declaration source rfl
  cases hn

/-- A reply declares variables just if the result is taken from its bytes. -/
theorem replyOf_cases {reply : Reply} (h : replyOf speller plan = .ok reply) : RepliesAs reply speller plan := by
  unfold replyOf at h
  cases hr : plan.returns with
  | void =>
    rw [hr] at h
    cases h
    exact repliesAs_other (by rw [hr]; rfl) rfl
  | storage =>
    rw [hr] at h
    cases h
    exact repliesAs_other (by rw [hr]; rfl) rfl
  | register carriage =>
    rw [hr] at h
    cases carriage with
    | address =>
      obtain ⟨text, -, rfl⟩ := map_eq_ok.1 h
      exact repliesAs_other (by rw [hr]; rfl) rfl
    | value =>
      obtain ⟨text, -, h⟩ := bind_eq_ok.1 h
      obtain rfl := pure_eq_ok.1 h
      exact repliesAs_other (by rw [hr]; rfl) rfl
    | image =>
      obtain ⟨text, ht, h⟩ := bind_eq_ok.1 h
      obtain rfl := pure_eq_ok.1 h
      exact repliesAs_image (by rw [hr]; rfl) ht
  | registerPair image =>
    rw [hr] at h
    cases image with
    | false =>
      obtain ⟨text, -, h⟩ := bind_eq_ok.1 h
      obtain rfl := pure_eq_ok.1 h
      exact repliesAs_other (by rw [hr]; rfl) rfl
    | true =>
      obtain ⟨text, ht, h⟩ := bind_eq_ok.1 h
      obtain rfl := pure_eq_ok.1 h
      exact repliesAs_image (by rw [hr]; rfl) ht

/-- **The body of a stub declares its local names and no others.** -/
theorem ofPlan_declares (h : ofPlan comments speller plan = .ok stub) : stub.Declares speller stub.localNames := by
  obtain ⟨_, preparations, reply, -, hpreparations, hreply, rfl⟩ := ofPlan_eq_ok.1 h
  obtain ⟨result, hsplit, -, hresult⟩ := preparationsOf_cases hpreparations
  -- the only declaration of a result in front of the trap is the one that was asked for
  have htyped : ∀ p ∈ preparations, ∀ declaration, p = .result declaration →
      ∃ t, speller.declare 0 t "__result" = .ok declaration := by
    rintro p hp declaration rfl
    rw [hsplit, List.mem_append] at hp
    rcases hp with hp | hp
    · exact ⟨_, hresult declaration hp⟩
    · obtain ⟨slot, -, hslot⟩ := List.mem_filterMap.1 hp
      exact absurd hslot Content.preparation?_ne_result
  have hpreparation := declaredBy_flatMap fun p hp => declaredBy_preparation (htyped p hp)
  have hret := declaredBy_reply fun declaration source he => ⟨_, (replyOf_cases hreply).2 declaration source he⟩
  exact ⟨_, _, (hpreparation.append (declaredBy_registers _)).append hret, rfl⟩

/-! ## The names -/

/-- The slots of a parameter need a variable for its bytes just if it is carried so. -/
theorem lays_localNames {shape : Shape} {parameter : Text} {index : Nat} {chunk : List Slot}
    (h : Lays parameter index shape.passing chunk) :
    (chunk.filterMap (·.content.preparation?)).map (·.localName) =
      if shape.isCopied then [imageName parameter] else [] := by
  have hcopied : shape.isCopied = shape.isImage := by
    rw [Shape.isCopied, Shape.isPassable_of_passing h, Bool.true_and]
  rw [hcopied]
  generalize hpassing : shape.passing = passing at h
  cases h with
  | word register carriage =>
    rw [Shape.carriage_of_passing hpassing]
    cases haddress : shape.isAddress with
    | true => rw [Shape.isImage_of_isAddress haddress]; rfl
    | false => cases shape.isImage <;> rfl
  | pair register image even =>
    rw [Shape.image_of_passing hpassing]
    cases shape.isImage <;> rfl

/-- The variables for bytes are those of the parameters that are carried so, in their order. -/
theorem chunk_localNames {ps : List Parameter} {k : Nat} {chunks : List (List Slot)}
    (h : List.Forall₂ (ChunkOf table) (ps.zipIdx k) chunks) :
    (chunks.flatten.filterMap (·.content.preparation?)).map (·.localName) =
      (ps.filter fun p => table.copies p.type).map fun p => imageName p.name := by
  induction ps generalizing k chunks with
  | nil => cases h; rfl
  | cons p ps ih =>
    rw [List.zipIdx_cons] at h
    cases h with
    | @cons _ chunk _ rest hc hrest =>
      obtain ⟨shape, hshape, hlays⟩ := Plan.chunkOf_lays hc
      rw [List.flatten_cons, List.filterMap_append, List.map_append, ih hrest, lays_localNames hlays,
        List.filter_cons, TypeTable.copies_eq hshape]
      cases shape.isCopied <;> rfl

/-- The parameters of a plan that are carried as their bytes. -/
def copiedNames (plan : Plan) (table : TypeTable) : List Text :=
  (plan.declaration.parameters.filter fun p => table.copies p.type).map (·.name)

theorem mem_copiedNames : name ∈ copiedNames plan table ↔
    ∃ p ∈ plan.declaration.parameters, p.name = name ∧ table.copies p.type = true := by
  rw [copiedNames, List.mem_map]
  constructor
  · rintro ⟨p, hp, hname⟩
    rw [List.mem_filter] at hp
    exact ⟨p, hp.1, hname, hp.2⟩
  · rintro ⟨p, hp, hname, hcopies⟩
    exact ⟨p, List.mem_filter.2 ⟨hp, hcopies⟩, hname⟩

/-- The variables of a body are those for the result, the parameters' bytes, the registers and the result's bytes. -/
theorem ofPlan_localNames (hplan : Plan.ofDeclaration d speller.table = .ok plan)
    (h : ofPlan comments speller plan = .ok stub) :
    stub.localNames = resultNames plan.resultSlot?.isSome ++ (copiedNames plan speller.table).map imageName ++
      (operandRegisters plan).map RegisterVariable.nameOf ++ replyNames (speller.table.copies d.returnType) := by
  obtain ⟨-, passing, returns, a, hpassing, hreturns, -, -, he⟩ := Plan.ofDeclaration_eq_ok.1 hplan
  obtain ⟨-, a, chunks, hb⟩ := Plan.ofDeclaration_built hplan
  obtain ⟨shape, hshape, rfl⟩ := TypeTable.passing_eq_ok.1 hpassing
  obtain ⟨_, preparations, reply, -, hpreparations, hreply, rfl⟩ := ofPlan_eq_ok.1 h
  obtain ⟨result, rfl, hresult, -⟩ := preparationsOf_cases hpreparations
  -- the reply asks the plan, and the plan asked the type
  have himage : plan.returns.isImage = speller.table.copies d.returnType := by
    rw [he, TypeTable.copies_eq hshape]
    exact Shape.isImage_of_returnOf hreturns
  have hstart : (Plan.start plan.returns).slots.filterMap (·.content.preparation?) = [] := by
    rw [Plan.start_slots]; split <;> rfl
  rw [localNames, (replyOf_cases hreply).1, himage, List.map_append, hresult, hb.chunked, List.filterMap_append, hstart,
    List.nil_append, chunk_localNames hb.owned, copiedNames, List.map_map, List.map_map]
  rfl

/-- Of the fixed names only that for the bytes of the result can be one for the bytes of a parameter. -/
theorem disjoint_imageName_iff {stored copied : Bool} :
    (names.map imageName).Disjoint (resultNames stored ++ replyNames copied) ↔
      ¬ (copied = true ∧ ("ret" : Text) ∈ names) := by
  constructor
  · rintro hdisjoint ⟨rfl, hmem⟩
    exact hdisjoint (List.mem_map_of_mem hmem) (List.mem_append_right _ List.mem_cons_self)
  · intro hnot w himage hfixed
    obtain ⟨name, hname, rfl⟩ := List.mem_map.1 himage
    have hends : ∀ stored copied, ∀ w ∈ resultNames stored ++ replyNames copied, ("_bits" : Text) <:+ w →
        copied = true ∧ w = imageName "ret" := by decide
    obtain ⟨hcopied, hbits⟩ := hends stored copied _ hfixed (suffix_imageName name)
    exact hnot ⟨hcopied, imageName_injective hbits ▸ hname⟩

/-- The names of registers are told apart from all others by their digits. -/
theorem disjoint_registers (registers : List Nat) (stored copied : Bool) :
    (registers.map RegisterVariable.nameOf).Disjoint
      (names.map imageName ++ (resultNames stored ++ replyNames copied)) := by
  intro w hw hother
  obtain ⟨r, -, rfl⟩ := List.mem_map.1 hw
  have hunlike : isRegisterLike (RegisterVariable.nameOf r) = false := by
    rcases List.mem_append.1 hother with himage | hfixed
    · obtain ⟨name, -, he⟩ := List.mem_map.1 himage
      exact he ▸ isRegisterLike_imageName name
    · have hall : ∀ stored copied, ∀ w ∈ resultNames stored ++ replyNames copied, isRegisterLike w = false := by
        decide
      exact hall stored copied _ hfixed
  rw [isRegisterLike_nameOf] at hunlike
  cases hunlike

/-- **Two variables have one name just if there is one for the bytes of a parameter `ret` and one for those of the
result.** -/
theorem localNames_nodup_iff {registers : List Nat} {stored copied : Bool} (hregisters : registers.Nodup)
    (hnames : names.Nodup) :
    (resultNames stored ++ names.map imageName ++ registers.map RegisterVariable.nameOf ++ replyNames copied).Nodup ↔
      ¬ (copied = true ∧ ("ret" : Text) ∈ names) := by
  have hperm : (resultNames stored ++ names.map imageName ++ registers.map RegisterVariable.nameOf ++
      replyNames copied).Perm (registers.map RegisterVariable.nameOf ++
        (names.map imageName ++ (resultNames stored ++ replyNames copied))) := by
    rw [List.perm_iff_count]
    intro w
    simp only [List.count_append]
    omega
  -- the three groups are free of repetitions, and only two of them can meet
  have hfixed : ∀ stored copied, (resultNames stored ++ replyNames copied).Nodup := by decide
  have hnodup := hregisters.map fun _ _ => RegisterVariable.nameOf_injective
  rw [hperm.nodup_iff, List.nodup_append', List.nodup_append', disjoint_imageName_iff]
  exact ⟨fun h => h.2.1.2.2,
    fun h => ⟨hnodup, ⟨hnames.map imageName_injective, hfixed stored copied, h⟩, disjoint_registers _ _ _⟩⟩

/-- All variables of a body start with two underscores. -/
theorem prefix_localNames {registers : List Nat} {stored copied : Bool} (hname : name ∈ resultNames stored ++
    names.map imageName ++ registers.map RegisterVariable.nameOf ++ replyNames copied) : ("__" : Text) <+: name := by
  have hfixed : ∀ copied stored, ∀ w ∈ resultNames stored ++ replyNames copied, ("__" : Text) <+: w := by decide
  rw [List.mem_append, List.mem_append, List.mem_append] at hname
  rcases hname with ((hresult | himage) | hregister) | hreply
  · exact hfixed copied stored name (List.mem_append_left _ hresult)
  · obtain ⟨parameter, -, rfl⟩ := List.mem_map.1 himage
    rw [imageName, List.append_assoc]
    exact List.prefix_append _ _
  · obtain ⟨r, -, rfl⟩ := List.mem_map.1 hregister
    exact List.prefix_append _ _
  · exact hfixed copied stored name (List.mem_append_right _ hreply)

/-- **What the body of a declaration's stub declares.** No variable is called like a parameter, as all of them start
with two underscores. Two variables are called alike just if a parameter `ret` and the result are both carried as
their bytes. -/
theorem ofPlan_locals (hplan : Plan.ofDeclaration d speller.table = .ok plan)
    (h : ofPlan comments speller plan = .ok stub) (hnodup : (d.parameters.map (·.name)).Nodup)
    (hplain : ∀ p ∈ d.parameters, ¬ ("__" : Text) <+: p.name) :
    stub.Declares speller stub.localNames ∧
      (∀ name ∈ stub.localNames, name ∉ d.parameters.map (·.name)) ∧
      (stub.localNames.Nodup ↔
        ¬ (speller.table.copies d.returnType = true ∧
          ∃ p ∈ d.parameters, p.name = "ret" ∧ speller.table.copies p.type = true)) := by
  obtain ⟨rfl, -⟩ := Plan.ofDeclaration_built hplan
  have hnames := ofPlan_localNames hplan h
  refine ⟨ofPlan_declares h, ?_, ?_⟩
  · intro name hmem hparameter
    obtain ⟨p, hp, rfl⟩ := List.mem_map.1 hparameter
    rw [hnames] at hmem
    exact hplain p hp (prefix_localNames hmem)
  · have hcopied : (copiedNames plan speller.table).Nodup := hnodup.sublist (List.filter_sublist.map _)
    have hregisters : (operandRegisters plan).Nodup := (operandRegisters_ascending plan).imp Nat.ne_of_lt
    rw [hnames, localNames_nodup_iff hregisters hcopied, mem_copiedNames]

/-- The lines of the preparations and of the reply stand in the body, indented. -/
theorem indent_mem_lines {line : Text}
    (h : line ∈ stub.preparations.flatMap Preparation.lines ∨ line ∈ stub.reply.lines) :
    Header.indent ++ line ∈ stub.lines := by
  simp only [lines, List.map_append, List.mem_append]
  rcases h with hprepared | hreplied
  · exact .inl (.inl (.inl (.inr (.inl (List.mem_map_of_mem hprepared)))))
  · exact .inl (.inr (List.mem_map_of_mem hreplied))

/-! A function with a floating result and two floating parameters: all three are carried as their bytes. -/

/-- `float scale(float <first>, double factor)`. -/
def scaleOf (first : Text) : Declaration :=
  { name := "scale", trapNumber := 0x10, returnType := .scalar ⟨"float", 4, true, true⟩
    parameters := [⟨first, .scalar ⟨"float", 4, true, true⟩⟩, ⟨"factor", .scalar ⟨"double", 8, true, true⟩⟩]
    symbol := "0x10", origin := "a.h", line := 1, variadic := false, comment := none }

/-- The plan of `scaleOf`: r1 stays free in front of the wide parameter. -/
def scalePlan (first : Text) : Plan :=
  { declaration := scaleOf first
    slots := [⟨0, .whole first 0 .image⟩, ⟨2, .half "factor" 1 .low true⟩, ⟨3, .half "factor" 1 .high true⟩]
    returns := .register .image, padding := [1] }

/-- The stub copies the parameters into integers and the result out of one, under either name. -/
theorem scaleOf_stub : ∀ first ∈ [("value" : Text), "ret"], ∃ stub,
    Plan.ofDeclaration (scaleOf first) ⟨[], true⟩ = .ok (scalePlan first) ∧
    ofPlan true (.ofTable ⟨[], true⟩) (scalePlan first) = .ok stub ∧
    stub.preparations = [.wordImage first, .wideImage "factor"] ∧ stub.reply = .image "float __ret" .word := by
  have hparts : ∀ first ∈ [("value" : Text), "ret"],
      (Plan.ofDeclaration (scaleOf first) ⟨[], true⟩).toOption = some (scalePlan first) ∧
      (signatureOf (.ofTable ⟨[], true⟩) (scaleOf first)).toOption =
        some ("float scale(float " ++ first ++ ", double factor)") ∧
      (preparationsOf (.ofTable ⟨[], true⟩) (scalePlan first)).toOption =
        some [.wordImage first, .wideImage "factor"] ∧
      (replyOf (.ofTable ⟨[], true⟩) (scalePlan first)).toOption = some (.image "float __ret" .word) := by
    decide +kernel
  intro first hfirst
  obtain ⟨hplan, hsignature, hpreparations, hreply⟩ := hparts first hfirst
  exact ⟨_, toOption_eq_some.1 hplan, ofPlan_eq_ok.2 ⟨_, _, _, toOption_eq_some.1 hsignature,
    toOption_eq_some.1 hpreparations, toOption_eq_some.1 hreply, rfl⟩, rfl, rfl⟩

theorem scaleOf_value_locals : ∃ plan stub, Plan.ofDeclaration (scaleOf "value") ⟨[], true⟩ = .ok plan ∧
    ofPlan true (.ofTable ⟨[], true⟩) plan = .ok stub ∧
    ((scaleOf "value").parameters.map (·.name)).Nodup ∧
    (∀ p ∈ (scaleOf "value").parameters, ¬ ("__" : Text) <+: p.name) ∧
    (∀ name ∈ [("__value_bits" : Text), "__factor_bits", "__ret_bits", "__ret"], name ∈ stub.localNames) ∧
    stub.localNames.Nodup := by
  obtain ⟨stub, hplan, hstub, hpreparations, hreply⟩ := scaleOf_stub "value" List.mem_cons_self
  have hnodup : ((scaleOf "value").parameters.map (·.name)).Nodup := by decide
  have hplain : ∀ p ∈ (scaleOf "value").parameters, ¬ ("__" : Text) <+: p.name := by decide
  have hother : ∀ p ∈ (scaleOf "value").parameters, p.name ≠ "ret" := by decide
  obtain ⟨-, -, hdistinct⟩ := ofPlan_locals hplan hstub hnodup hplain
  refine ⟨_, stub, hplan, hstub, hnodup, hplain, ?_, hdistinct.2 ?_⟩
  · have hparts : ∀ name ∈ [("__value_bits" : Text), "__factor_bits", "__ret_bits", "__ret"],
        name ∈ [Preparation.wordImage "value", .wideImage "factor"].map (·.localName) ∨
          name ∈ (Reply.image "float __ret" .word).localNames := by decide
    intro name hname
    rcases hparts name hname with hprepared | hreplied
    · rw [← hpreparations] at hprepared
      exact List.mem_append_left _ (List.mem_append_left _ hprepared)
    · rw [← hreply] at hreplied
      exact List.mem_append_right _ hreplied
  · rintro ⟨-, p, hp, hname, -⟩
    exact hother p hp hname

/-- A parameter called `ret` is copied into a variable with the name of the one that the result is copied from. -/
theorem scaleOf_ret_locals : ∃ plan stub, Plan.ofDeclaration (scaleOf "ret") ⟨[], true⟩ = .ok plan ∧
    ofPlan true (.ofTable ⟨[], true⟩) plan = .ok stub ∧
    ((scaleOf "ret").parameters.map (·.name)).Nodup ∧
    (∀ p ∈ (scaleOf "ret").parameters, ¬ ("__" : Text) <+: p.name) ∧ ¬ stub.localNames.Nodup ∧
    (∀ line ∈ [("uint32_t __ret_bits = 0;" : Text), "uint32_t __ret_bits = __r0;"],
      Header.indent ++ line ∈ stub.lines) := by
  obtain ⟨stub, hplan, hstub, hpreparations, hreply⟩ := scaleOf_stub "ret" (List.mem_cons_of_mem _ List.mem_cons_self)
  refine ⟨_, stub, hplan, hstub, by decide, by decide, fun hnodup => ?_, ?_⟩
  · have hparameter : ("__ret_bits" : Text) ∈ stub.preparations.map (·.localName) := by
      rw [hpreparations]
      decide
    have hresult : ("__ret_bits" : Text) ∈ stub.reply.localNames := by
      rw [hreply]
      exact List.mem_cons_self
    exact (List.nodup_append'.1 hnodup).2.2 (List.mem_append_left _ hparameter) hresult
  · have hparts : ∀ line ∈ [("uint32_t __ret_bits = 0;" : Text), "uint32_t __ret_bits = __r0;"],
        line ∈ [Preparation.wordImage "ret", .wideImage "factor"].flatMap Preparation.lines ∨
          line ∈ (Reply.image "float __ret" .word).lines := by decide
    intro line hline
    rw [← hpreparations, ← hreply] at hparts
    exact indent_mem_lines (hparts line hline)

end Stub

end TrapStub
