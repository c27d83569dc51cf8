import TrapStub.Proofs.Survey.Failures
import TrapStub.Proofs.TypeTable.History

/-!
# The course of a walk

What happens on the way is listed beside the walk, whether it answers or fails: the structs and unions
whose members are converted, and the visits of typedefs. The list is made along the recursion of the
conversion, each step taking up the findings that the one before has left.

* `Event`, `Course`, `Survey.chain`, `Survey.inTurn`: what happens in one step, and in steps in turn.
* `Source.baseCourse`, `Source.courseWithin`, `Source.course`: what happens in a conversion, and in a whole walk.
* `Survey.Charts`: what the course of a step says of it, with a rule for each way to put steps together.
* `Source.convertWithin_charts`, `Source.passes_charts`: **so it is along every conversion and both passes.**
-/

namespace TrapStub

variable {α β : Type} {s t u : Findings}

/-- What happens in the course of a walk. -/
inductive Event where
  /-- The members of the struct or union under a key are converted. -/
  | members (key : Text)
  /-- A typedef is visited, after some findings. -/
  | typedef (c : Cursor) (s : Findings)

/-- The key of the struct or union whose members are converted. -/
def Event.record? : Event → Option Text
  | members key => some key
  | typedef _ _ => none

theorem Event.mem_records {events : List Event} {key : Text} :
    key ∈ events.filterMap Event.record? ↔ .members key ∈ events := by
  rw [List.mem_filterMap]
  constructor
  · rintro ⟨event, hevent, hkey⟩
    cases event with
    | members k =>
      obtain rfl := Option.some.inj hkey
      exact hevent
    | typedef c s => cases hkey
  · exact fun h => ⟨.members key, h, rfl⟩

/-- What happens in the course of a step, by the findings before it. -/
abbrev Course := Findings → List Event

/-- The later table is as open, and has the typedefs that the earlier one has. -/
structure Findings.Retains (s t : Findings) : Prop where
  frozen : t.table.frozen = s.table.frozen
  typedef : ∀ key a, s.table.get? key = some (.typedef a) → t.table.get? key = some (.typedef a)

namespace Survey

/-- The course of two steps in turn: the second one is taken if the first one answers. -/
def chain (x : Survey α) (first : Course) (next : α → Course) : Course := fun s =>
  first s ++ (x s).toOption.elim [] fun r => next r.1 r.2

/-- The course of a step for each element of a list. -/
def inTurn (f : α → Survey β) (course : α → Course) : List α → Course
  | [] => fun _ => []
  | a :: rest => chain (f a) (course a) fun _ => inTurn f course rest

theorem chain_ok {x : Survey α} {first : Course} {next : α → Course} {a : α} (h : x s = .ok (a, t)) :
    chain x first next s = first s ++ next a t := by
  rw [chain, h]
  rfl

theorem chain_error {x : Survey α} {first : Course} {next : α → Course} {fault : Fault} (h : x s = .error fault) :
    chain x first next s = first s := by
  rw [chain, h]
  exact List.append_nil _

/-- What nothing happens after. -/
theorem chain_nothing (x : Survey α) (first : Course) : (chain x first fun _ _ => []) = first := by
  funext s
  cases h : x s with
  | ok r => rw [chain_ok h, List.append_nil]
  | error fault => rw [chain_error h]

theorem inTurn_singleton (f : α → Survey β) (course : α → Course) (a : α) : inTurn f course [a] = course a :=
  chain_nothing (f a) (course a)

theorem inTurn_map {γ : Type} (f : β → Survey γ) (course : β → Course) (g : α → β) (l : List α) :
    inTurn f course (l.map g) = inTurn (fun a => f (g a)) (fun a => course (g a)) l := by
  induction l with
  | nil => rfl
  | cons a l ih => rw [List.map_cons, inTurn, inTurn, ih]

theorem retains_register {definition stored : TypeDef} {table : TypeTable}
    (h : s.table.register definition = .ok (table, stored)) : s.Retains { s with table } := by
  refine ⟨register_frozen h, fun key a hget => ?_⟩
  cases TypeTable.register_cases h with
  | kept => exact hget
  | placed hnew =>
    show (s.table.placeLast definition).get? key = some (.typedef a)
    rw [TypeTable.get?_placeLast]
    split
    · -- the key is not new, and what stands there is no name of a record
      rename_i hkey
      have hforward := (hnew _ (hkey ▸ hget)).1
      cases hforward
    · exact hget

theorem stable_retains : Stable Findings.Retains where
  refl _ := ⟨rfl, fun _ _ h => h⟩
  trans h h' := ⟨h'.frozen.trans h.frozen, fun key a hget => h'.typedef key a (h.typedef key a hget)⟩
  register _ _ _ _ h := retains_register h
  start _ _ := ⟨rfl, fun _ _ h => h⟩
  stop _ _ := ⟨rfl, fun _ _ h => h⟩
  finish _ _ := ⟨rfl, fun _ _ h => h⟩
  enumerate _ _ _ _ h := ⟨(retains_register h).frozen, (retains_register h).typedef⟩

theorem steady_retains : Steady Findings.Retains where
  toStable := stable_retains
  beside h := ⟨congrArg TypeTable.frozen h.sameTypes.table, fun _ _ hget => h.sameTypes.table ▸ hget⟩

end Survey

namespace Source

open Survey

variable (source : Source)

/-! ## What happens in a conversion -/

section Layer

variable (below : Conversion) (course : TypeId → Bool → Course)

/-- What happens in the conversion of a member. -/
def memberCourse (field : CursorId) : Course :=
  chain (liftM (source.fieldAlignment field)) (fun _ => []) fun _ => course (source.typeOf field) true

/-- What happens in the definition of a struct or union: nothing, or the conversion of its members. -/
def recordCourse (c : Cursor) : Course := fun s =>
  if source.recordKey c ∈ s.done ∨ source.recordKey c ∈ s.started ∨ c.definition = none then []
  else .members (source.recordKey c) ::
    inTurn (fun field => source.member below (source.unit.cursor field)) (source.memberCourse course)
      (source.fieldsOf c) { s with started := source.recordKey c :: s.started }

/-- What happens when a struct or union is named. -/
def recordNamedCourse (c : Cursor) : Course :=
  if source.isUntagged c then source.recordCourse below course c else fun _ => []

/-- What happens in the visit of a typedef. -/
def typedefCourse (c : Cursor) (byValue : Bool) : Course := fun s =>
  .typedef c s :: if c.spelling ∈ s.done then [] else course c.underlying byValue s

/-- What happens in the conversions of the types that a type leads to. -/
def partsCourse (t : TypeId) (byValue : Bool) : Course :=
  inTurn (fun p : TypeId × Bool => source.convertWith below p.1 p.2) (fun p => course p.1 p.2) (source.parts t byValue)

/-- What happens in the conversion of a type without its own qualifiers. -/
def baseCourse (t : TypeId) (byValue : Bool) : Course :=
  match (source.unit.type t).kind with
  | .record =>
    if byValue then source.recordCourse below course (source.declared t)
    else source.recordNamedCourse below course (source.declared t)
  | .typedef =>
    if (source.originOf? (source.declared t)).isSome then typedefCourse course (source.declared t) byValue
    else source.partsCourse below course t byValue
  | .other name =>
    if (source.unit.type (source.unit.canonical t)).kind = .other name then fun _ => []
    else source.partsCourse below course t byValue
  | _ => source.partsCourse below course t byValue

end Layer

/-- What happens in a conversion through at most `limit` types inside each other. -/
def courseWithin : (limit : Nat) → TypeId → Bool → Course
  | 0 => fun _ _ _ => []
  | limit + 1 => source.baseCourse (source.convertWithin limit) (courseWithin limit)

/-! ## What happens in a walk -/

/-- What happens in the visit of a declaration at the top. -/
def visitCourse (id : CursorId) : Course :=
  let c := source.unit.cursor id
  if (source.originOf? c).isSome then
    match c.kind with
    | .structDecl | .unionDecl =>
      if c.isDefinition then source.recordCourse source.base (source.courseWithin source.limit) c
      else source.recordNamedCourse source.base (source.courseWithin source.limit) c
    | .typedefDecl => typedefCourse (source.courseWithin source.limit) c true
    | _ => fun _ => []
  else fun _ => []

/-- What happens in the conversions of the types of a prototype. -/
def typesCourse (c : Cursor) : Course :=
  chain (c.arguments.zipIdx.mapM fun p => source.parameter p.1 p.2)
    (inTurn (fun p => source.parameter p.1 p.2) (fun p => source.courseWithin source.limit (source.typeOf p.1) true)
      c.arguments.zipIdx) fun _ => source.courseWithin source.limit c.resultType true

/-- What happens when a prototype becomes a declaration: nothing if it has no trap number. -/
def declarationCourse (id : CursorId) : Course := fun s =>
  chain (liftM (source.trapNumberOf s.trapValues id)) (fun _ => [])
    (fun _ => source.typesCourse (source.unit.cursor id)) s

/-- What happens in both passes: in the visits at the top, and then in the declarations of the prototypes. -/
def passesCourse : Course :=
  chain source.visitAll (inTurn source.visit source.visitCourse source.unit.top)
    fun _ s => inTurn source.declaration source.declarationCourse s.prototypes s

/-- What happens in a whole walk. -/
def course : List Event := source.passesCourse .empty

end Source

namespace Survey

/-- A typedef is visited after the one findings, and the visit has answered before the other ones. -/
def Visited (source : Source) (c : Cursor) (s t : Findings) : Prop :=
  ∃ limit byValue type u, source.typedef (source.convertWithin limit) c byValue s = .ok (type, u) ∧ u.Retains t

theorem Visited.retains {source : Source} {c : Cursor} (h : Visited source c s t) (htu : t.Retains u) :
    Visited source c s u := by
  obtain ⟨limit, byValue, type, v, hv, hvt⟩ := h
  exact ⟨limit, byValue, type, v, hv, stable_retains.trans hvt htu⟩

/-- What the course of a step says of it. -/
structure Charts (source : Source) (x : Survey α) (course : Course) : Prop where
  grows : Preserves Findings.Grows x
  retains : Preserves Findings.Retains x
  /-- Members are converted while their record is neither defined nor being defined. -/
  fresh : ∀ s key, .members key ∈ course s → key ∉ s.done ∧ key ∉ s.started
  /-- No members are converted twice. -/
  once : ∀ s, ((course s).filterMap Event.record?).Nodup
  finished : ∀ s a t, x s = .ok (a, t) → ∀ key, .members key ∈ course s → key ∈ t.done
  /-- The course has all records that become complete. -/
  completed : ∀ s a t, x s = .ok (a, t) → ∀ key, t.table.Complete key →
    s.table.Complete key ∨ .members key ∈ course s
  visited : ∀ s a t, x s = .ok (a, t) → ∀ c s', .typedef c s' ∈ course s → Visited source c s' t

namespace Charts

variable {source : Source} {x : Survey α} {f : α → Survey β} {first : Course} {next : α → Course}

/-- Nothing happens in a step that completes no record. -/
theorem nothing (hgrows : Preserves Findings.Grows x) (hretains : Preserves Findings.Retains x)
    (hcompleted : ∀ s a t, x s = .ok (a, t) → ∀ key, t.table.Complete key → s.table.Complete key) :
    Charts source x fun _ => [] where
  grows := hgrows
  retains := hretains
  fresh _ _ h := absurd h List.not_mem_nil
  once _ := List.nodup_nil
  finished _ _ _ _ _ h := absurd h List.not_mem_nil
  completed s a t h key hkey := Or.inl (hcompleted s a t h key hkey)
  visited _ _ _ _ _ _ h := absurd h List.not_mem_nil

/-- Nothing happens in a step that changes nothing but what is noted beside types. -/
theorem beside (h : ∀ s a t, x s = .ok (a, t) → s.Beside t) : Charts source x fun _ => [] := by
  refine nothing (fun s a t hrun => ?_) (fun s a t hrun => ?_) fun s a t hrun key hkey => ?_
  · obtain ⟨htable, hdone, hstarted⟩ := (h s a t hrun).sameTypes
    exact ⟨hstarted, fun key hk => hdone ▸ hk, fun key hk => htable ▸ hk⟩
  · exact steady_retains.beside (h s a t hrun)
  · exact (h s a t hrun).sameTypes.table ▸ hkey

/-- Nothing happens in a step that leaves the findings as they are. -/
theorem still (h : ∀ s a t, x s = .ok (a, t) → s = t) : Charts source x fun _ => [] :=
  beside fun s a t hrun => h s a t hrun ▸ .nothing

/-- A step that fails instead, or for another reason. -/
theorem of_ok {y : Survey α} (hx : Charts source x first) (h : ∀ s a t, y s = .ok (a, t) → x s = .ok (a, t)) :
    Charts source y first where
  grows s a t hrun := hx.grows s a t (h s a t hrun)
  retains s a t hrun := hx.retains s a t (h s a t hrun)
  fresh := hx.fresh
  once := hx.once
  finished s a t hrun := hx.finished s a t (h s a t hrun)
  completed s a t hrun := hx.completed s a t (h s a t hrun)
  visited s a t hrun := hx.visited s a t (h s a t hrun)

theorem pure (a : α) : Charts source (Pure.pure a : Survey α) fun _ => [] :=
  still fun _ _ _ h => (pure_eq_ok.1 h).2

theorem lift (answer : Except Fault α) : Charts source (liftM answer : Survey α) fun _ => [] :=
  still fun _ _ _ h => (lift_eq_ok.1 h).2

/-- **Steps in turn.** What the second step converts is not what the first one has, since that is done. -/
theorem bind (hx : Charts source x first) (hf : ∀ a, Charts source (f a) (next a)) :
    Charts source (x >>= f) (chain x first next) where
  grows := chains_grows.bind hx.grows fun a => (hf a).grows
  retains := stable_retains.bind hx.retains fun a => (hf a).retains
  fresh := by
    intro s key hkey
    cases hrun : x s with
    | error fault =>
      rw [chain_error hrun] at hkey
      exact hx.fresh s key hkey
    | ok r =>
      obtain ⟨a, t⟩ := r
      rw [chain_ok hrun] at hkey
      rcases List.mem_append.1 hkey with hkey | hkey
      · exact hx.fresh s key hkey
      · have hgrows := hx.grows s a t hrun
        obtain ⟨hdone, hstarted⟩ := (hf a).fresh t key hkey
        exact ⟨fun hk => hdone (hgrows.done key hk), hgrows.started ▸ hstarted⟩
  once := by
    intro s
    cases hrun : x s with
    | error fault =>
      rw [chain_error hrun]
      exact hx.once s
    | ok r =>
      obtain ⟨a, t⟩ := r
      rw [chain_ok hrun, List.filterMap_append]
      refine (hx.once s).append ((hf a).once t) fun key hfirst hnext => ?_
      exact ((hf a).fresh t key (Event.mem_records.1 hnext)).1
        (hx.finished s a t hrun key (Event.mem_records.1 hfirst))
  finished := by
    intro s b u h key hkey
    obtain ⟨a, t, ha, hb⟩ := bind_eq_ok.1 h
    rw [chain_ok ha] at hkey
    rcases List.mem_append.1 hkey with hkey | hkey
    · exact ((hf a).grows t b u hb).done key (hx.finished s a t ha key hkey)
    · exact (hf a).finished t b u hb key hkey
  completed := by
    intro s b u h key hkey
    obtain ⟨a, t, ha, hb⟩ := bind_eq_ok.1 h
    rw [chain_ok ha]
    rcases (hf a).completed t b u hb key hkey with hkey | hkey
    · exact (hx.completed s a t ha key hkey).imp_right (List.mem_append_left _)
    · exact Or.inr (List.mem_append_right _ hkey)
  visited := by
    intro s b u h c s' hc
    obtain ⟨a, t, ha, hb⟩ := bind_eq_ok.1 h
    rw [chain_ok ha] at hc
    rcases List.mem_append.1 hc with hc | hc
    · exact (hx.visited s a t ha c s' hc).retains ((hf a).retains t b u hb)
    · exact (hf a).visited t b u hb c s' hc

/-- Something is made of the answer, and nothing happens with that. -/
theorem followed (hx : Charts source x first) (hf : ∀ a, Charts source (f a) fun _ => []) :
    Charts source (x >>= f) first := by
  have h := hx.bind hf
  rwa [chain_nothing] at h

theorem discard (hx : Charts source x first) : Charts source (Functor.discard x) first :=
  hx.followed fun _ => pure ()

theorem mapM {course : α → Course} {l : List α} (h : ∀ a ∈ l, Charts source (f a) (course a)) :
    Charts source (l.mapM f) (inTurn f course l) := by
  induction l with
  | nil => exact pure []
  | cons a l ih =>
    rw [List.mapM_cons]
    refine (h a List.mem_cons_self).bind fun b => ?_
    exact (ih fun c hc => h c (List.mem_cons_of_mem a hc)).followed fun bs => pure (b :: bs)

theorem forM {f : α → Survey Unit} {course : α → Course} {l : List α} (h : ∀ a ∈ l, Charts source (f a) (course a)) :
    Charts source (l.forM f) (inTurn f course l) := by
  induction l with
  | nil => exact pure ()
  | cons a l ih => exact (h a List.mem_cons_self).bind fun _ => ih fun c hc => h c (List.mem_cons_of_mem a hc)

end Charts

end Survey

namespace Source

open Survey

variable {source : Source} {below : Conversion} {course : TypeId → Bool → Course} {c : Cursor} {key : Text}

/-- Only a complete record makes its key complete. -/
theorem complete_of_register {definition stored : TypeDef} {table table' : TypeTable}
    (h : table.register definition = .ok (table', stored)) (hkey : table'.Complete key) :
    table.Complete key ∨ key = definition.key ∧ definition.isRecord = true ∧ definition.isForward = false := by
  cases TypeTable.register_cases h with
  | kept => exact Or.inl hkey
  | placed =>
    obtain ⟨r, hget, hr⟩ := hkey
    rw [TypeTable.get?_placeLast] at hget
    split at hget
    · rename_i heq
      obtain rfl := Option.some.inj hget
      exact Or.inr ⟨heq, rfl, by rw [TypeDef.isForward, hr]; rfl⟩
    · exact Or.inl ⟨r, hget, hr⟩

section Layer

variable (hb : ∀ t byValue, Charts source (below t byValue) (course t byValue))

include hb

theorem convertWith_charts (t : TypeId) (byValue : Bool) :
    Charts source (source.convertWith below t byValue) (course t byValue) :=
  (hb t byValue).followed fun _ => .pure _

theorem member_charts (field : CursorId) :
    Charts source (source.member below (source.unit.cursor field)) (source.memberCourse course field) := by
  unfold member memberCourse
  exact (Charts.lift _).bind fun explicit => (convertWith_charts hb _ _).followed fun type => .pure _

omit hb in
theorem recordCourse_known (h : source.recordKey c ∈ s.done ∨ source.recordKey c ∈ s.started ∨ c.definition = none) :
    source.recordCourse below course c s = [] := if_pos h

omit hb in
theorem recordCourse_new (hn : source.recordKey c ∉ s.done ∧ source.recordKey c ∉ s.started)
    (hd : c.definition.isSome = true) : source.recordCourse below course c s =
      .members (source.recordKey c) ::
        inTurn (fun field => source.member below (source.unit.cursor field)) (source.memberCourse course)
          (source.fieldsOf c) { s with started := source.recordKey c :: s.started } := by
  refine if_neg ?_
  rw [not_or, not_or]
  exact ⟨hn.1, hn.2, Option.isSome_iff_ne_none.1 hd⟩

omit hb in
/-- Nothing happens in the definition of a struct or union, or it is new. -/
theorem recordCourse_cases (source : Source) (below : Conversion) (course : TypeId → Bool → Course) (c : Cursor)
    (s : Findings) : source.recordCourse below course c s = [] ∨
      (source.recordKey c ∉ s.done ∧ source.recordKey c ∉ s.started) ∧ c.definition.isSome = true := by
  by_cases h : source.recordKey c ∈ s.done ∨ source.recordKey c ∈ s.started ∨ c.definition = none
  · exact Or.inl (recordCourse_known h)
  · rw [not_or, not_or] at h
    exact Or.inr ⟨⟨h.1, h.2.1⟩, Option.isSome_iff_ne_none.2 h.2.2⟩

omit hb in
/-- What happens in a definition that is answered: its members are converted, and what happens in that. -/
theorem recordCourse_of_mem {a : Event} (h : source.record below c s = .ok (type, t))
    (ha : a ∈ source.recordCourse below course c s) : ∃ members u table stored,
      (source.fieldsOf c).mapM (fun field => source.member below (source.unit.cursor field))
        { s with started := source.recordKey c :: s.started } = .ok (members, u) ∧
      u.table.register (.record (source.completeRecord (source.recordKey c) c (source.unit.cursor c.definition)
        (source.isUntagged c) members)) = .ok (table, stored) ∧
      { u with started := u.started.filter (· != source.recordKey c), table, done := source.recordKey c :: u.done } = t ∧
      (a = .members (source.recordKey c) ∨
        a ∈ inTurn (fun field => source.member below (source.unit.cursor field)) (source.memberCourse course)
          (source.fieldsOf c) { s with started := source.recordKey c :: s.started }) := by
  cases (record_cases h).2 with
  | known hk => rw [recordCourse_known (hk.imp_right Or.inl)] at ha; cases ha
  | present _ hd => rw [recordCourse_known (Or.inr (Or.inr hd))] at ha; cases ha
  | named _ hd => rw [recordCourse_known (Or.inr (Or.inr hd))] at ha; cases ha
  | @defined members u table stored hn hd hm hr =>
    rw [recordCourse_new hn hd] at ha
    exact ⟨members, u, table, stored, hm, hr, rfl, List.mem_cons.1 ha⟩

/-- **The definition of a struct or union.** Its members are converted while its key is started, so that nothing
inside them converts them again. -/
theorem record_charts (c : Cursor) : Charts source (source.record below c) (source.recordCourse below course c) := by
  have hmembers : Charts source ((source.fieldsOf c).mapM fun field => source.member below (source.unit.cursor field))
      (inTurn (fun field => source.member below (source.unit.cursor field)) (source.memberCourse course)
        (source.fieldsOf c)) := .mapM fun field _ => member_charts hb field
  refine
    { grows := record_grows (fun t byValue => (hb t byValue).grows) c
      retains := record_preserves stable_retains (fun t byValue => (hb t byValue).retains) c
      fresh := fun s key hkey => ?_, once := fun s => ?_, finished := fun s type t h key hkey => ?_
      completed := fun s type t h key hkey => ?_, visited := fun s type t h a s' ha => ?_ }
  · rcases recordCourse_cases source below course c s with hnil | ⟨hn, hd⟩
    · rw [hnil] at hkey
      cases hkey
    · rw [recordCourse_new hn hd] at hkey
      rcases List.mem_cons.1 hkey with heq | hkey
      · obtain rfl := Event.members.inj heq
        exact hn
      · obtain ⟨hdone, hstarted⟩ := hmembers.fresh _ key hkey
        exact ⟨hdone, fun hk => hstarted (List.mem_cons_of_mem _ hk)⟩
  · rcases recordCourse_cases source below course c s with hnil | ⟨hn, hd⟩
    · rw [hnil]
      exact List.nodup_nil
    · rw [recordCourse_new hn hd]
      refine List.nodup_cons.2 ⟨fun hmem => ?_, hmembers.once _⟩
      exact (hmembers.fresh _ _ (Event.mem_records.1 hmem)).2 List.mem_cons_self
  · obtain ⟨members, u, table, stored, hm, hr, rfl, heq | hkey⟩ := recordCourse_of_mem h hkey
    · obtain rfl := Event.members.inj heq
      exact List.mem_cons_self
    · exact List.mem_cons_of_mem _ (hmembers.finished _ members u hm key hkey)
  · cases (record_cases h).2 with
    | known => exact Or.inl hkey
    | present => exact Or.inl hkey
    | named _ _ _ hr =>
      rcases complete_of_register hr hkey with hkey | ⟨-, -, hforward⟩
      · exact Or.inl hkey
      · cases hforward
    | @defined members u table stored hn hd hm hr =>
      rw [recordCourse_new hn hd]
      rcases complete_of_register hr hkey with hkey | ⟨rfl, -, -⟩
      · exact (hmembers.completed _ members u hm key hkey).imp_right (List.mem_cons_of_mem _)
      · exact Or.inr List.mem_cons_self
  · obtain ⟨members, u, table, stored, hm, hr, rfl, heq | ha⟩ := recordCourse_of_mem h ha
    · cases heq
    · have hregister := retains_register hr
      exact (hmembers.visited _ members u hm a s' ha).retains ⟨hregister.frozen, hregister.typedef⟩

theorem recordNamed_charts (c : Cursor) :
    Charts source (source.recordNamed below c) (source.recordNamedCourse below course c) := by
  have hgrows : Preserves Findings.Grows (source.recordNamed below c) :=
    recordNamed_grows (fun t byValue => (hb t byValue).grows) c
  have hretains : Preserves Findings.Retains (source.recordNamed below c) :=
    recordNamed_preserves stable_retains (fun t byValue => (hb t byValue).retains) c
  cases ha : (source.keyOf c (recordKind c).keyword).2 with
  | true =>
    rw [recordNamed_of_anonymous ha, recordNamedCourse, if_pos ha]
    exact record_charts hb c
  | false =>
    rw [recordNamedCourse, if_neg (Bool.eq_false_iff.1 ha)]
    refine .nothing hgrows hretains fun s type t h key hkey => ?_
    cases (recordNamed_cases h).2 with
    | anonymous hanon => rw [ha] at hanon; cases hanon
    | present => exact hkey
    | named _ hr =>
      rcases complete_of_register hr hkey with hkey | ⟨-, -, hforward⟩
      · exact hkey
      · cases hforward

omit hb in
theorem enumeration_charts (c : Cursor) : Charts source (source.enumeration c) fun _ => [] := by
  refine .nothing (enumeration_grows c) (fun s answer t h => ?_) fun s answer t h key hkey => ?_
  · cases answer with
    | some type => exact enumeration_preserves stable_retains h
    | none =>
      rcases enumeration_cases h with ⟨-, numbers, rfl⟩ | ⟨_, _, -, hanswer, -⟩
      · exact steady_retains.beside (.numbers numbers.reverse)
      · cases hanswer
  · rcases enumeration_cases h with ⟨-, numbers, rfl⟩ | ⟨-, _, -, -, ⟨-, rfl⟩ | ⟨-, _, table, stored, -, hr, rfl⟩⟩
    · exact hkey
    · exact hkey
    · rcases complete_of_register hr hkey with hkey | ⟨-, hrecord, -⟩
      · exact hkey
      · cases hrecord

/-- The visit of a typedef is noted, and then what happens in the conversion of its target. -/
theorem typedef_charts {limit : Nat} (hbelow : below = source.convertWithin limit) (c : Cursor) (byValue : Bool) :
    Charts source (source.typedef below c byValue) (typedefCourse course c byValue) := by
  have htarget := convertWith_charts hb c.underlying byValue
  refine
    { grows := typedef_grows (fun t byValue => (hb t byValue).grows) c byValue
      retains := typedef_preserves stable_retains (fun t byValue => (hb t byValue).retains) c byValue
      fresh := fun s key hkey => ?_, once := fun s => ?_, finished := fun s type t h key hkey => ?_
      completed := fun s type t h key hkey => ?_, visited := fun s type t h a s' ha => ?_ }
  · have hkey := (List.mem_cons.1 hkey).resolve_left nofun
    split at hkey
    · cases hkey
    · exact htarget.fresh s key hkey
  · unfold typedefCourse
    rw [List.filterMap_cons_none rfl]
    split
    · exact List.nodup_nil
    · exact htarget.once s
  · have hkey := (List.mem_cons.1 hkey).resolve_left nofun
    rcases (typedef_cases h).2 with ⟨hdone, rfl⟩ | ⟨hn, target, u, table, stored, ht, hr, rfl⟩
    · rw [if_pos hdone] at hkey
      cases hkey
    · rw [if_neg hn] at hkey
      exact List.mem_cons_of_mem _ (htarget.finished s target u ht key hkey)
  · rcases (typedef_cases h).2 with ⟨hdone, rfl⟩ | ⟨hn, target, u, table, stored, ht, hr, rfl⟩
    · exact Or.inl hkey
    · rcases complete_of_register hr hkey with hkey | ⟨-, hrecord, -⟩
      · refine (htarget.completed s target u ht key hkey).imp_right fun hmem => List.mem_cons_of_mem _ ?_
        rwa [if_neg hn]
      · cases hrecord
  · rcases List.mem_cons.1 ha with heq | ha
    · cases heq
      exact ⟨limit, byValue, type, t, hbelow ▸ h, stable_retains.refl t⟩
    · rcases (typedef_cases h).2 with ⟨hdone, rfl⟩ | ⟨hn, target, u, table, stored, ht, hr, rfl⟩
      · rw [if_pos hdone] at ha
        cases ha
      · rw [if_neg hn] at ha
        have hregister := retains_register hr
        exact (htarget.visited s target u ht a s' ha).retains ⟨hregister.frozen, hregister.typedef⟩

/-- **One layer of a conversion**, by the kind of its type. -/
theorem baseStep_charts {limit : Nat} (hbelow : below = source.convertWithin limit) (t : TypeId) (byValue : Bool) :
    Charts source (source.baseStep below t byValue) (source.baseCourse below course t byValue) := by
  have hconvert := convertWith_charts hb
  unfold baseStep baseCourse partsCourse parts declared
  cases hk : (source.unit.type t).kind with
  | void => simp only [hk]; exact .pure _
  | scalar kind => simp only [hk]; exact .pure _
  | elaborated =>
    simp only [hk, inTurn_singleton]
    exact hconvert _ byValue
  | typedef =>
    simp only [hk]
    split
    · exact typedef_charts hb hbelow _ byValue
    · cases (source.unit.type (source.unit.canonical t)).kind with
      | scalar kind => exact .pure _
      | _ =>
        simp only [inTurn_singleton]
        exact (hconvert _ byValue).followed fun _ => .pure _
  | pointer =>
    simp only [hk, inTurn_singleton]
    exact (hconvert _ false).followed fun _ => .pure _
  | record =>
    simp only [hk]
    split
    · exact record_charts hb _
    · exact recordNamed_charts hb _
  | enumeration =>
    simp only [hk]
    refine (enumeration_charts _).followed fun answer => ?_
    cases answer with
    | some named => exact .pure named
    | none => exact .still fun s a t h => by cases h
  | constantArray | incompleteArray | variableArray =>
    simp only [hk, inTurn_singleton]
    exact (hconvert _ byValue).followed fun _ => .pure _
  | functionProto =>
    simp only [hk, inTurn, inTurn_map]
    refine (hconvert _ false).bind fun result => ?_
    exact (Charts.mapM fun a _ => hconvert a false).followed fun _ => .pure _
  | functionNoProto =>
    simp only [hk, inTurn_singleton]
    exact (hconvert _ false).followed fun _ => .pure _
  | other name =>
    simp only [hk]
    split
    · exact .still fun s a t h => by cases h
    · rw [inTurn_singleton]
      exact hb _ byValue

end Layer

/-- **The course of a conversion** says of it what it should, however many types are inside each other. -/
theorem convertWithin_charts (limit : Nat) : ∀ t byValue,
    Charts source (source.convertWithin limit t byValue) (source.courseWithin limit t byValue) := by
  induction limit with
  | zero => exact fun t byValue => .still fun s a t h => by cases h
  | succ limit ih => exact fun t byValue => baseStep_charts ih rfl t byValue

theorem base_charts (t : TypeId) (byValue : Bool) :
    Charts source (source.base t byValue) (source.courseWithin source.limit t byValue) :=
  convertWithin_charts source.limit t byValue

/-! ## Both passes -/

theorem visit_charts (id : CursorId) : Charts source (source.visit id) (source.visitCourse id) := by
  have hrecord : ∀ c : Cursor, Charts source (if c.isDefinition then discard (source.record source.base c)
      else discard (source.recordNamed source.base c))
      (if c.isDefinition then source.recordCourse source.base (source.courseWithin source.limit) c
        else source.recordNamedCourse source.base (source.courseWithin source.limit) c) := by
    intro c
    split
    · exact (record_charts base_charts c).discard
    · exact (recordNamed_charts base_charts c).discard
  unfold visit visitCourse
  dsimp only
  cases source.originOf? (source.unit.cursor id) with
  | none => exact .pure ()
  | some origin =>
    rw [if_pos Option.isSome_some]
    dsimp only
    cases (source.unit.cursor id).kind with
    | structDecl => exact hrecord _
    | unionDecl => exact hrecord _
    | enumDecl => exact (enumeration_charts _).discard
    | typedefDecl => exact (typedef_charts base_charts rfl _ true).discard
    | functionDecl =>
      dsimp only
      split
      · exact .beside fun s a t h => modify_eq_ok.1 h ▸ .prototype id
      · exact .pure ()
    | macroDefinition => exact .beside fun s a t h => noteMacro_beside h
    | enumConstantDecl | packedAttr | alignedAttr | annotateAttr | other => exact .pure ()

theorem blaming_ok {x : Survey α} {name place : Text} {a : α} (h : blaming name place x s = .ok (a, t)) :
    x s = .ok (a, t) := by
  unfold blaming at h
  split at h
  · cases h
  · exact h

theorem declaration_charts (id : CursorId) : Charts source (source.declaration id) (source.declarationCourse id) := by
  have hconvert : ∀ t, Charts source (source.convert t) (source.courseWithin source.limit t true) :=
    fun t => convertWith_charts base_charts t true
  have hparameter : ∀ p : CursorId × Nat, Charts source (source.parameter p.1 p.2)
      (source.courseWithin source.limit (source.typeOf p.1) true) := fun p => (hconvert _).followed fun _ => .pure _
  have htypes : Charts source (source.typesOf (source.unit.cursor id)) (source.typesCourse (source.unit.cursor id)) := by
    refine .of_ok ?_ fun s a t h => blaming_ok h
    exact (Charts.mapM fun p _ => hparameter p).bind fun parameters => (hconvert _).followed fun _ => .pure _
  have hget : Charts source (get : Survey Findings) fun _ => [] := .still fun s a t h => (get_eq_ok.1 h).2
  have hsteps : Charts source (source.declaration id) (chain get (fun _ => []) fun state =>
      chain (liftM (source.trapNumberOf state.trapValues id)) (fun _ => [])
        fun _ => source.typesCourse (source.unit.cursor id)) := by
    unfold declaration
    refine hget.bind fun state => (Charts.lift _).bind fun number => htypes.followed fun types => ?_
    exact hget.followed fun _ => (Charts.lift _).followed fun _ => .pure _
  exact hsteps

/-- **The course of both passes** says of them what it should. -/
theorem passes_charts (source : Source) :
    Charts source (do source.visitAll; source.declarations) source.passesCourse := by
  have hget : Charts source (get : Survey Findings) fun _ => [] := .still fun s a t h => (get_eq_ok.1 h).2
  have hdeclarations : Charts source source.declarations (chain get (fun _ => []) fun state =>
      inTurn source.declaration source.declarationCourse state.prototypes) := by
    unfold declarations
    refine hget.bind fun state => (Charts.mapM fun id _ => declaration_charts id).followed fun ds => ?_
    exact (Charts.lift _).followed fun _ => .pure _
  exact (Charts.forM fun id _ => visit_charts id).bind fun _ => hdeclarations

end Source

end TrapStub
