import TrapStub.Proofs.Survey.Course

/-!
# A walk that notes its course

The walk once more, with a note where the members of a struct or union are converted, and one where a typedef is
visited. Without the notes it is the walk, step by step, and the notes are its course: no conversion of members is
left out of it.

* `Noted`: a step of the walk, with what is noted in it. Steps in turn note what each of them does.
* `Source.recordNoted`, `Source.typedefNoted`: the two places with a note.
* `Source.convertNoted_eq`, `Source.passesNoted_eq`: **the notes are the course of the walk.**
-/

namespace TrapStub

open Survey

variable {α β γ : Type}

theorem Survey.chain_assoc (x : Survey α) (f : α → Survey β) (first : Course) (second : α → Course)
    (third : β → Course) :
    chain (x >>= f) (chain x first second) third = chain x first fun a => chain (f a) (second a) third := by
  funext s
  cases hx : x s with
  | error fault => rw [chain_error (bind_eq_error.2 (Or.inl hx)), chain_error hx, chain_error hx]
  | ok r =>
    obtain ⟨a, t⟩ := r
    rw [chain_ok hx]
    cases hf : f a t with
    | error fault => rw [chain_error (bind_eq_error.2 (Or.inr ⟨a, t, hx, hf⟩)), chain_ok hx, chain_error hf]
    | ok r =>
      obtain ⟨b, u⟩ := r
      rw [chain_ok (bind_eq_ok.2 ⟨a, t, hx, hf⟩), chain_ok hx, chain_ok hf, List.append_assoc]

/-- A step of a walk, and what is noted in it. -/
@[ext]
structure Noted (α : Type) where
  step : Survey α
  course : Course

namespace Noted

instance : Monad Noted where
  pure a := ⟨pure a, fun _ => []⟩
  bind x f := ⟨x.step >>= fun a => (f a).step, chain x.step x.course fun a => (f a).course⟩

instance : LawfulMonad Noted := by
  refine LawfulMonad.mk' Noted (fun x => ?_) (fun a f => rfl) fun x f g => ?_
  · exact Noted.ext (id_map x.step) (chain_nothing x.step x.course)
  · refine Noted.ext (bind_assoc x.step _ _) ?_
    exact chain_assoc x.step (fun a => (f a).step) x.course (fun a => (f a).course) fun b => (g b).course

/-- Nothing is noted in a step as it is. -/
instance : MonadLift Survey Noted := ⟨fun x => ⟨x, fun _ => []⟩⟩

/-- Notes that something happens. -/
def note (event : Event) : Noted Unit := ⟨pure (), fun _ => [event]⟩

/-- A malformed type is reported for the declaration it was met in; the notes stay. -/
def blaming (name place : Text) (x : Noted α) : Noted α := ⟨TrapStub.blaming name place x.step, x.course⟩

variable {n : Noted α} {x : Survey α} {f : α → Noted β} {g : α → Survey β} {first : Course} {next : α → Course}

theorem bind_eq (hn : n = ⟨x, first⟩) (hf : ∀ a, f a = ⟨g a, next a⟩) : n >>= f = ⟨x >>= g, chain x first next⟩ := by
  obtain rfl : f = fun a => ⟨g a, next a⟩ := funext hf
  rw [hn]
  rfl

/-- Something is made of the answer, and nothing is noted in that. -/
theorem followed_eq (hn : n = ⟨x, first⟩) (hf : ∀ a, f a = ⟨g a, fun _ => []⟩) : n >>= f = ⟨x >>= g, first⟩ := by
  rw [bind_eq hn hf, chain_nothing]

theorem note_bind_eq {course : Course} (event : Event) (hn : n = ⟨x, course⟩) :
    (note event >>= fun _ => n) = ⟨x, fun s => event :: course s⟩ := by
  rw [hn]
  rfl

theorem blaming_eq {name place : Text} (hn : n = ⟨x, first⟩) :
    n.blaming name place = ⟨TrapStub.blaming name place x, first⟩ := by
  rw [hn]
  rfl

theorem mapM_eq {course : α → Course} (hf : ∀ a, f a = ⟨g a, course a⟩) (l : List α) :
    l.mapM f = ⟨l.mapM g, inTurn g course l⟩ := by
  induction l with
  | nil => rfl
  | cons a l ih =>
    rw [List.mapM_cons, List.mapM_cons]
    exact bind_eq (hf a) fun b => followed_eq ih fun bs => rfl

theorem forM_eq {f : α → Noted Unit} {g : α → Survey Unit} {course : α → Course} (hf : ∀ a, f a = ⟨g a, course a⟩)
    (l : List α) : l.forM f = ⟨l.forM g, inTurn g course l⟩ := by
  induction l with
  | nil => rfl
  | cons a l ih => exact bind_eq (hf a) fun _ => ih

end Noted

namespace Source

open Noted

variable (source : Source)

/-! ## The walk with notes -/

section Layer

variable (below : TypeId → Bool → Noted CType)

/-- A type with its own qualifiers. -/
def convertWithNoted (t : TypeId) (byValue : Bool) : Noted CType := do
  return qualify (source.unit.type t) (← below t byValue)

/-- One member, and the alignment it asks for. -/
def memberNoted (c : Cursor) : Noted (Member × Int) := do
  let offset := if c.fieldOffset < 0 then none else some c.fieldOffset
  let (packed, aligned) := source.memberAttributes c offset
  let explicit ← (Alignment.ofArgument aligned : Except Fault (Option Int))
  let type ← source.convertWithNoted below c.type true
  return ({
    name := if c.spelling.any (·.is '(') then [] else c.spelling
    type := type
    bits := c.bitWidth
    offset := offset
    packed := packed
    aligned := aligned }, demandedAlignment (source.memberTypeAlign c) packed explicit)

/-- Defines a struct or union, and notes that its members are converted. -/
def recordNoted (c : Cursor) : Noted CType := do
  let (key, anonymous) := source.keyOf c (recordKind c).keyword
  let state ← get
  if state.done.contains key || state.started.contains key then return .named key
  match c.definition with
  | none =>
    if !state.table.contains key then
      registerType (.record (incompleteRecord key (recordKind c) anonymous (source.originOf c)))
    return .named key
  | some _ =>
    let definition := source.unit.cursor c.definition
    modify fun state => { state with started := key :: state.started }
    let fields := (source.unit.type definition.type).fields
    note (.members key)
    let members ← fields.mapM fun field => source.memberNoted below (source.unit.cursor field)
    modify fun state => { state with started := state.started.filter (· != key) }
    registerType (.record (source.completeRecord key c definition anonymous members))
    modify fun state => { state with done := key :: state.done }
    return .named key

/-- Names a struct or union that is reached through a pointer. -/
def recordNamedNoted (c : Cursor) : Noted CType := do
  let (key, anonymous) := source.keyOf c (recordKind c).keyword
  if anonymous then source.recordNoted below c
  else
    if !(← get).table.contains key then
      registerType (.record (incompleteRecord key (recordKind c) false (source.originOf c)))
    return .named key

/-- Defines a typedef, and notes that it is visited. -/
def typedefNoted (c : Cursor) (byValue : Bool) : Noted CType := do
  let key := c.spelling
  let state ← get
  note (.typedef c state)
  if state.done.contains key then return .named key
  let target ← source.convertWithNoted below c.underlying byValue
  registerType (.typedef { key, target, origin := source.originOf c, comment := c.comment })
  modify fun state => { state with done := key :: state.done }
  return .named key

/-- A type without its own qualifiers. -/
def baseStepNoted (t : TypeId) (byValue : Bool) : Noted CType :=
  let unit := source.unit
  let type := unit.type t
  match type.kind with
  | .elaborated => source.convertWithNoted below type.named byValue
  | .typedef =>
    let declaration := unit.cursor type.declaration
    if (source.originOf? declaration).isSome then source.typedefNoted below declaration byValue
    else
      let canonical := unit.type (unit.canonical t)
      match canonical.kind with
      | .scalar kind => pure (scalarOf declaration.spelling canonical kind)
      | _ => do return (← source.convertWithNoted below (unit.canonical t) byValue).unqualified
  | .pointer => do return .pointer (← source.convertWithNoted below type.pointee false)
  | .record =>
    let declaration := unit.cursor type.declaration
    if byValue then source.recordNoted below declaration else source.recordNamedNoted below declaration
  | .enumeration => do
    match ← source.enumeration (unit.cursor type.declaration) with
    | some named => return named
    | none => (throw (.malformed (.trapEnumAsType type.spelling)) : Survey CType)
  | .constantArray => do
    return .array (← source.convertWithNoted below type.element byValue) (some type.count)
  | .incompleteArray => do return .array (← source.convertWithNoted below type.element byValue) none
  | .variableArray => do return .array (← source.convertWithNoted below type.element byValue) none
  | .functionProto => do
    let result ← source.convertWithNoted below type.result false
    let parameters ← type.arguments.mapM fun a => source.convertWithNoted below a false
    return .function result parameters type.variadic
  | .functionNoProto => do return .function (← source.convertWithNoted below type.result false) [] false
  | .void => pure .void
  | .scalar kind =>
    let spelling := if kind = .bool then ("bool" : Text) else withoutQualifiers type.spelling
    pure (scalarOf spelling type kind)
  | .other name =>
    if (unit.type (unit.canonical t)).kind = type.kind then
      (throw (.malformed (.unsupportedType type.spelling name)) : Survey CType)
    else below (unit.canonical t) byValue

end Layer

/-- The conversion through at most `limit` types inside each other. -/
def convertNoted : (limit : Nat) → TypeId → Bool → Noted CType
  | 0 => fun _ _ => (throw .endless : Survey CType)
  | limit + 1 => source.baseStepNoted (convertNoted limit)

/-- One declaration at the top of the parsed unit. -/
def visitNoted (id : CursorId) : Noted Unit := do
  let base := source.convertNoted source.limit
  let c := source.unit.cursor id
  match source.originOf? c with
  | none => return ()
  | some origin =>
    match c.kind with
    | .structDecl | .unionDecl =>
      if c.isDefinition then discard (source.recordNoted base c)
      else discard (source.recordNamedNoted base c)
    | .enumDecl => discard (source.enumeration c)
    | .typedefDecl => discard (source.typedefNoted base c true)
    | .functionDecl =>
      if (source.unit.trapSymbol? c).isSome then
        modify fun state => { state with prototypes := state.prototypes ++ [id] }
    | .macroDefinition => source.noteMacro c origin
    | _ => return ()

/-- A parameter; one without a name is named by its position. -/
def parameterNoted (id : CursorId) (index : Nat) : Noted Parameter := do
  let c := source.unit.cursor id
  let type ← source.convertWithNoted (source.convertNoted source.limit) c.type true
  return ⟨if c.spelling.isEmpty then "arg" ++ Text.natural index else c.spelling, type⟩

/-- The declaration that a prototype makes. -/
def declarationNoted (id : CursorId) : Noted Declaration := do
  let c := source.unit.cursor id
  let origin := source.originOf c
  let place := lineOf origin c.line
  let symbol := (source.unit.trapSymbol? c).getD []
  let number ← (trapNumber (← get).trapValues c.spelling symbol place : Except Fault Int)
  let (parameters, returnType) ← Noted.blaming c.spelling place do
    let parameters ← c.arguments.zipIdx.mapM fun (id, index) => source.parameterNoted id index
    return (parameters, ← source.convertWithNoted (source.convertNoted source.limit) c.resultType true)
  let type := source.unit.type c.type
  let d : Declaration :=
    { name := c.spelling, trapNumber := number, returnType, parameters, symbol, origin
      line := c.line
      variadic := type.kind = .functionProto && type.variadic
      comment := c.comment }
  (requireDefinedSignature (← get).table d : Except Fault Unit)
  return d

/-- Both passes: the declarations at the top, and then those that prototypes make. -/
def passesNoted : Noted (List Declaration) := do
  source.unit.top.forM source.visitNoted
  let declarations ← (← get).prototypes.mapM source.declarationNoted
  let sorted := declarations.mergeSort declarationLe
  (distinct sorted : Except Fault Unit)
  return sorted

variable {source}

/-! ## Without the notes -/

section Layer

variable {below : TypeId → Bool → Noted CType} {conversion : Conversion} {course : TypeId → Bool → Course}
  (hb : ∀ t byValue, below t byValue = ⟨conversion t byValue, course t byValue⟩)

include hb

theorem convertWithNoted_eq (t : TypeId) (byValue : Bool) :
    source.convertWithNoted below t byValue = ⟨source.convertWith conversion t byValue, course t byValue⟩ :=
  followed_eq (hb t byValue) fun _ => rfl

theorem memberNoted_eq (field : CursorId) : source.memberNoted below (source.unit.cursor field) =
    ⟨source.member conversion (source.unit.cursor field), source.memberCourse course field⟩ := by
  unfold memberNoted member memberCourse
  exact bind_eq rfl fun explicit => followed_eq (convertWithNoted_eq hb _ true) fun type => rfl

/-- The members of a struct or union are converted behind the note that says so. -/
theorem recordNoted_eq (c : Cursor) :
    source.recordNoted below c = ⟨source.record conversion c, source.recordCourse conversion course c⟩ := by
  have hmember : ∀ field, source.memberNoted below (source.unit.cursor field) =
      ⟨source.member conversion (source.unit.cursor field), source.memberCourse course field⟩ := memberNoted_eq hb
  have hmembers := mapM_eq hmember (source.fieldsOf c)
  have hcourse : source.recordCourse conversion course c = chain get (fun _ => []) fun state =>
      if source.recordKey c ∈ state.done ∨ source.recordKey c ∈ state.started ∨ c.definition = none then fun _ => []
      else chain (modify fun state => { state with started := source.recordKey c :: state.started }) (fun _ => [])
        fun _ s => .members (source.recordKey c) ::
          inTurn (fun field => source.member conversion (source.unit.cursor field)) (source.memberCourse course)
            (source.fieldsOf c) s := by
    funext s
    rw [recordCourse, chain_ok get_run, List.nil_append]
    split <;> rfl
  rw [hcourse]
  unfold recordNoted record
  dsimp only
  refine bind_eq rfl fun state => ?_
  by_cases hknown : source.recordKey c ∈ state.done ∨ source.recordKey c ∈ state.started
  · have hcheck : (state.done.contains (source.recordKey c) || state.started.contains (source.recordKey c)) = true := by
      simpa using hknown
    rw [if_pos hcheck, if_pos hcheck, if_pos (hknown.imp_right Or.inl)]
    rfl
  · have hcheck : ¬ (state.done.contains (source.recordKey c) || state.started.contains (source.recordKey c)) = true := by
      simpa using hknown
    rw [if_neg hcheck, if_neg hcheck]
    cases hd : c.definition with
    | none =>
      rw [if_pos (Or.inr (Or.inr rfl))]
      dsimp only
      split
      · exact followed_eq rfl fun _ => rfl
      · rfl
    | some id =>
      have hnew : ¬ (source.recordKey c ∈ state.done ∨ source.recordKey c ∈ state.started ∨ some id = none) := by
        simpa using hknown
      have hdefinition : source.unit.cursor (some id) = source.unit.cursor c.definition := by rw [hd]
      rw [if_neg hnew]
      dsimp only
      rw [hdefinition]
      refine bind_eq rfl fun _ => note_bind_eq _ (followed_eq hmembers fun members => ?_)
      exact followed_eq rfl fun _ => followed_eq rfl fun _ => followed_eq rfl fun _ => rfl

theorem recordNamedNoted_eq (c : Cursor) :
    source.recordNamedNoted below c = ⟨source.recordNamed conversion c, source.recordNamedCourse conversion course c⟩ := by
  unfold recordNamedNoted recordNamed recordNamedCourse
  dsimp only
  split
  · exact recordNoted_eq hb c
  · refine followed_eq rfl fun state => ?_
    split
    · exact followed_eq rfl fun _ => rfl
    · rfl

theorem typedefNoted_eq (c : Cursor) (byValue : Bool) :
    source.typedefNoted below c byValue = ⟨source.typedef conversion c byValue, typedefCourse course c byValue⟩ := by
  have hcourse : typedefCourse course c byValue = chain get (fun _ => []) fun state s =>
      .typedef c state :: (if c.spelling ∈ state.done then fun _ => [] else course c.underlying byValue) s := by
    funext s
    rw [typedefCourse, chain_ok get_run, List.nil_append]
    split <;> rfl
  rw [hcourse]
  unfold typedefNoted typedef
  refine bind_eq rfl fun state => note_bind_eq _ ?_
  by_cases hknown : c.spelling ∈ state.done
  · have hcheck : state.done.contains c.spelling = true := by simpa using hknown
    rw [if_pos hcheck, if_pos hcheck, if_pos hknown]
    rfl
  · have hcheck : ¬ state.done.contains c.spelling = true := by simpa using hknown
    rw [if_neg hcheck, if_neg hcheck, if_neg hknown]
    exact followed_eq (convertWithNoted_eq hb _ byValue) fun target => followed_eq rfl fun _ => followed_eq rfl fun _ => rfl

/-- One layer of a conversion, by the kind of its type. -/
theorem baseStepNoted_eq (t : TypeId) (byValue : Bool) : source.baseStepNoted below t byValue =
    ⟨source.baseStep conversion t byValue, source.baseCourse conversion course t byValue⟩ := by
  have hconvert : ∀ t byValue, source.convertWithNoted below t byValue =
      ⟨source.convertWith conversion t byValue, course t byValue⟩ := convertWithNoted_eq hb
  unfold baseStepNoted baseStep baseCourse partsCourse parts declared
  cases hk : (source.unit.type t).kind with
  | void => simp only [hk]; rfl
  | scalar kind => simp only [hk]; rfl
  | elaborated =>
    simp only [hk, inTurn_singleton]
    exact hconvert _ byValue
  | typedef =>
    simp only [hk]
    split
    · exact typedefNoted_eq hb _ byValue
    · cases (source.unit.type (source.unit.canonical t)).kind with
      | scalar kind => rfl
      | _ =>
        simp only [inTurn_singleton]
        exact followed_eq (hconvert _ byValue) fun _ => rfl
  | pointer =>
    simp only [hk, inTurn_singleton]
    exact followed_eq (hconvert _ false) fun _ => rfl
  | record =>
    simp only [hk]
    split
    · exact recordNoted_eq hb _
    · exact recordNamedNoted_eq hb _
  | enumeration =>
    simp only [hk]
    refine followed_eq rfl fun answer => ?_
    cases answer <;> rfl
  | constantArray | incompleteArray | variableArray =>
    simp only [hk, inTurn_singleton]
    exact followed_eq (hconvert _ byValue) fun _ => rfl
  | functionProto =>
    simp only [hk, inTurn, inTurn_map]
    refine bind_eq (hconvert _ false) fun result => ?_
    exact followed_eq (mapM_eq (fun a => hconvert a false) _) fun _ => rfl
  | functionNoProto =>
    simp only [hk, inTurn_singleton]
    exact followed_eq (hconvert _ false) fun _ => rfl
  | other name =>
    simp only [hk]
    split
    · rfl
    · rw [inTurn_singleton]
      exact hb _ byValue

end Layer

/-- **The notes of a conversion are its course**, however many types are inside each other. -/
theorem convertNoted_eq (limit : Nat) : ∀ t byValue, source.convertNoted limit t byValue =
    ⟨source.convertWithin limit t byValue, source.courseWithin limit t byValue⟩ := by
  induction limit with
  | zero => exact fun t byValue => rfl
  | succ limit ih => exact baseStepNoted_eq ih

theorem visitNoted_eq (id : CursorId) : source.visitNoted id = ⟨source.visit id, source.visitCourse id⟩ := by
  have hbase : ∀ t byValue, source.convertNoted source.limit t byValue =
      ⟨source.base t byValue, source.courseWithin source.limit t byValue⟩ := convertNoted_eq source.limit
  unfold visitNoted visit visitCourse
  dsimp only
  cases source.originOf? (source.unit.cursor id) with
  | none => rfl
  | some origin =>
    rw [if_pos Option.isSome_some]
    dsimp only
    cases (source.unit.cursor id).kind with
    | structDecl | unionDecl =>
      dsimp only
      split
      · exact followed_eq (recordNoted_eq hbase _) fun _ => rfl
      · exact followed_eq (recordNamedNoted_eq hbase _) fun _ => rfl
    | enumDecl => exact followed_eq rfl fun _ => rfl
    | typedefDecl => exact followed_eq (typedefNoted_eq hbase _ true) fun _ => rfl
    | functionDecl =>
      dsimp only
      split <;> rfl
    | macroDefinition | enumConstantDecl | packedAttr | alignedAttr | annotateAttr | other => rfl

theorem declarationNoted_eq (id : CursorId) :
    source.declarationNoted id = ⟨source.declaration id, source.declarationCourse id⟩ := by
  have hconvert : ∀ t, source.convertWithNoted (source.convertNoted source.limit) t true =
      ⟨source.convert t, source.courseWithin source.limit t true⟩ := fun t =>
    convertWithNoted_eq (convertNoted_eq source.limit) t true
  have hparameter : ∀ p : CursorId × Nat, source.parameterNoted p.1 p.2 =
      ⟨source.parameter p.1 p.2, source.courseWithin source.limit (source.typeOf p.1) true⟩ := fun p =>
    followed_eq (hconvert _) fun _ => rfl
  have hcourse : source.declarationCourse id = chain get (fun _ => []) fun state =>
      chain (liftM (source.trapNumberOf state.trapValues id)) (fun _ => [])
        fun _ => source.typesCourse (source.unit.cursor id) := rfl
  rw [hcourse]
  unfold declarationNoted declaration
  refine bind_eq rfl fun state => bind_eq rfl fun number => followed_eq (blaming_eq ?_) fun types => ?_
  · exact bind_eq (mapM_eq hparameter _) fun parameters => followed_eq (hconvert _) fun type => rfl
  · exact followed_eq rfl fun _ => followed_eq rfl fun _ => rfl

/-- **The notes of both passes are their course**: the walk with notes does what the walk does, and notes what
happens. -/
theorem passesNoted_eq (source : Source) :
    source.passesNoted = ⟨do source.visitAll; source.declarations, source.passesCourse⟩ := by
  have hcourse : source.passesCourse = chain source.visitAll (inTurn source.visit source.visitCourse source.unit.top)
      fun _ => chain get (fun _ => []) fun state => inTurn source.declaration source.declarationCourse state.prototypes := rfl
  rw [hcourse]
  unfold passesNoted visitAll declarations
  refine bind_eq (forM_eq visitNoted_eq _) fun _ => bind_eq rfl fun state => ?_
  refine followed_eq (mapM_eq declarationNoted_eq _) fun ds => ?_
  exact followed_eq rfl fun _ => rfl

end Source

end TrapStub
