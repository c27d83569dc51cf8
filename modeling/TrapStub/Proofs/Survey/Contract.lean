import TrapStub.Proofs.Survey.Walk

/-!
# Contracts of a walk

A walk changes what it knows of types in six ways: a record is started, named or defined, a typedef or an
enum is defined, and the rest is noted beside. What is checked of these changes and of the answers,
layer by layer, holds of every conversion and every visit.

* `Source.Contract`: an invariant with what steps may rely on and what they promise.
* `Source.Contract.Sound`: the conditions on the changes and on the answers.
* `Source.Contract.Sound.convert`, `Source.Contract.Sound.visit`: **a sound contract is kept** by
  conversions and visits.
* `Source.Contract.Governs`: a contract for whole walks, which holds after both passes.
-/

namespace TrapStub.Source

open Survey

variable {source : Source} {s t u : Findings} {c : Cursor} {type : CType}

/-- What the steps of a walk rely on and promise. -/
structure Contract where
  /-- What holds of the findings between any two steps. -/
  invariant : Findings → Prop
  /-- A type may be converted while some keys are started. -/
  admits : TypeId → Bool → List Text → Prop
  /-- A struct or union may be defined while some keys are started. -/
  enters : Cursor → List Text → Prop
  /-- A typedef may be defined. -/
  names : Cursor → Prop
  /-- What is known of a type that the conversion answers with. -/
  answers : TypeId → Bool → CType → Findings → Prop

/-- Why a struct or union is in the table, or will be. -/
inductive Reached (source : Source) (c : Cursor) (byValue : Bool) (s : Findings) : Prop
  | defined (hv : byValue = true ∨ source.isUntagged c = true) (hk : source.recordKey c ∈ s.done)
  | started (hv : byValue = true ∨ source.isUntagged c = true) (hk : source.recordKey c ∈ s.started)
  | undefined (hv : byValue = true ∨ source.isUntagged c = true) (hd : c.definition = none)
      (hc : s.table.contains (source.recordKey c) = true)
  | named (hv : byValue = false) (ha : source.isUntagged c = false) (hc : s.table.contains (source.recordKey c) = true)

theorem Reached.grows {byValue : Bool} (hst : s.Grows t) (h : source.Reached c byValue s) :
    source.Reached c byValue t := by
  cases h with
  | defined hv hk => exact .defined hv (hst.done _ hk)
  | started hv hk => exact .started hv (hst.started ▸ hk)
  | undefined hv hd hc => exact .undefined hv hd (hst.contains _ hc)
  | named hv ha hc => exact .named hv ha (hst.contains _ hc)

/-- What is reached by value and has a definition is done when nothing is started. -/
theorem Reached.done (h : source.Reached c true s) (hd : c.definition.isSome = true) (hs : s.started = []) :
    source.recordKey c ∈ s.done := by
  cases h with
  | defined _ hk => exact hk
  | started _ hk =>
    rw [hs] at hk
    cases hk
  | undefined _ hnone _ =>
    rw [hnone] at hd
    cases hd
  | named hv => cases hv

/-- The contract stands every change that a walk makes, and gives each answer what it promises of it. -/
structure Contract.Sound (source : Source) (k : Contract) : Prop where
  sameTypes : ∀ {s t}, k.invariant s → s.SameTypes t → k.invariant t
  grows : ∀ {t v type s u}, s.Grows u → k.answers t v type s → k.answers t v type u
  -- what is relied on
  part : ∀ {t v next w started}, source.Part t v next w → k.admits t v started → k.admits next w started
  underlying : ∀ {t v started}, (source.unit.type t).kind = .typedef →
    (source.originOf? (source.declared t)).isSome = true → k.admits t v started →
    k.names (source.declared t) ∧ k.admits (source.declared t).underlying v started
  enter : ∀ {t v started}, (source.unit.type t).kind = .record →
    (v = true ∨ source.isUntagged (source.declared t) = true) → k.admits t v started →
    k.enters (source.declared t) started
  member : ∀ {c started field}, k.enters c started → c.definition.isSome = true → source.recordKey c ∉ started →
    field ∈ source.fieldsOf c → k.admits (source.typeOf field) true (source.recordKey c :: started)
  -- what is answered
  leaf : ∀ {t v type s}, source.IsLeaf t → type.keys = [] → k.answers t v type s
  unqualified : ∀ {t v type a s}, k.answers t v a s → type.unqualified = a.unqualified → k.answers t v type s
  passes : ∀ {t v next type s}, source.Passes t next → k.answers next v type s → k.answers t v type s
  array : ∀ {t v type length s}, source.IsArray t → k.answers (source.unit.type t).element v type s →
    k.answers t v (.array type length) s
  pointer : ∀ {t v type s}, (source.unit.type t).kind = .pointer →
    k.answers (source.unit.type t).pointee false type s → k.answers t v (.pointer type) s
  function : ∀ {t v arguments result parameters variadic s},
    ((source.unit.type t).kind = .functionProto ∨ (source.unit.type t).kind = .functionNoProto) →
    (arguments = if (source.unit.type t).kind = .functionProto then (source.unit.type t).arguments else []) →
    k.answers (source.unit.type t).result false result s →
    List.Forall₂ (fun a p => k.answers a false p s) arguments parameters →
    k.answers t v (.function result parameters variadic) s
  reached : ∀ {t v s}, (source.unit.type t).kind = .record → k.invariant s → k.admits t v s.started →
    source.Reached (source.declared t) v s → k.answers t v (.named (source.recordKey (source.declared t))) s
  typedefDone : ∀ {t v s}, (source.unit.type t).kind = .typedef →
    (source.originOf? (source.declared t)).isSome = true → k.invariant s → (source.declared t).spelling ∈ s.done →
    k.answers t v (.named (source.declared t).spelling) s
  enumerationDone : ∀ {t v definition s}, (source.unit.type t).kind = .enumeration → k.invariant s →
    (source.keyOf definition "enum").1 ∈ s.done → k.answers t v (.named (source.keyOf definition "enum").1) s
  -- what is changed
  start : ∀ {c s}, k.invariant s → k.enters c s.started → c.definition.isSome = true →
    source.recordKey c ∉ s.done → source.recordKey c ∉ s.started →
    k.invariant { s with started := source.recordKey c :: s.started }
  name : ∀ {c anonymous table stored s}, k.invariant s →
    (anonymous = true → source.isUntagged c = true ∧ c.definition = none ∧ k.enters c s.started) →
    s.table.register (.record (incompleteRecord (source.recordKey c) (recordKind c) anonymous (source.originOf c))) =
      .ok (table, stored) → k.invariant { s with table }
  define : ∀ {c members started table stored u}, k.invariant u → k.enters c started → c.definition.isSome = true →
    u.started = source.recordKey c :: started → source.recordKey c ∉ started →
    List.Forall₂ (fun field m => k.answers (source.typeOf field) true m.1.type u) (source.fieldsOf c) members →
    u.table.register (.record (source.completeRecord (source.recordKey c) c (source.unit.cursor c.definition)
      (source.isUntagged c) members)) = .ok (table, stored) →
    k.invariant { u with table, started, done := source.recordKey c :: u.done }
  defineTypedef : ∀ {c v target table stored u}, k.invariant u → k.names c → k.answers c.underlying v target u →
    u.table.register (.typedef ⟨c.spelling, target, source.originOf c, c.comment⟩) = .ok (table, stored) →
    k.invariant { u with table, done := c.spelling :: u.done }
  defineEnumeration : ∀ {definition e table stored s}, k.invariant s → e.key = (source.keyOf definition "enum").1 →
    s.table.register (.enumeration e) = .ok (table, stored) →
    k.invariant { s with table, done := (source.keyOf definition "enum").1 :: s.done }

/-- The declaration may be visited while nothing is started. -/
structure Contract.Allows (k : Contract) (c : Cursor) : Prop where
  record : c.kind = .structDecl ∨ c.kind = .unionDecl → k.enters c []
  typedef : c.kind = .typedefDecl → k.names c ∧ k.admits c.underlying true []

/-- The contract is sound and covers whole walks. -/
structure Contract.Governs (source : Source) (k : Contract) : Prop extends k.Sound source where
  empty : k.invariant .empty
  allows : ∀ id ∈ source.unit.top, k.Allows (source.unit.cursor id)
  idle : ∀ t, k.admits t true []

namespace Contract

variable {k : Contract} {below : Conversion}

/-- The conversion keeps the contract. -/
def KeptBy (k : Contract) (conversion : Conversion) : Prop :=
  ∀ t v s type u, k.invariant s → k.admits t v s.started → conversion t v s = .ok (type, u) →
    k.invariant u ∧ k.answers t v type u

namespace Sound

section Layer

variable (hk : k.Sound source) (hg : ∀ t byValue, Preserves Findings.Grows (below t byValue)) (hb : k.KeptBy below)

include hk hb

theorem convertWith : k.KeptBy (source.convertWith below) := by
  intro t v s type u hs ht h
  obtain ⟨base, hbase, rfl⟩ := convertWith_eq_ok.1 h
  obtain ⟨hu, hanswer⟩ := hb t v s base u hs ht hbase
  exact ⟨hu, hk.unqualified hanswer (unqualified_qualify _ base)⟩

include hg

/-- Types are converted in turn. -/
theorem convertAll {α β : Type} {f : α → Survey β} {typeId : α → TypeId} {v : Bool} {type : β → CType}
    (hf : ∀ a s b t, f a s = .ok (b, t) → source.convertWith below (typeId a) v s = .ok (type b, t)) {l : List α}
    {bs : List β} (hs : k.invariant s) (hl : ∀ a ∈ l, k.admits (typeId a) v s.started) (h : l.mapM f s = .ok (bs, u)) :
    k.invariant u ∧ s.Grows u ∧ List.Forall₂ (fun a b => k.answers (typeId a) v (type b) u) l bs := by
  have hgrows : ∀ a ∈ l, Preserves Findings.Grows (f a) :=
    fun a _ s b t h => convertWith_grows hg _ _ s _ t (hf a s b t h)
  have hkeeps : ∀ a ∈ l, Survey.Keeps (fun t => k.invariant t ∧ t.started = s.started)
      (fun b t => k.answers (typeId a) v (type b) t) (f a) := by
    intro a ha x b y hx hrun
    obtain ⟨hy, hanswer⟩ := convertWith hk hb _ _ x _ y hx.1 (hx.2 ▸ hl a ha) (hf a x b y hrun)
    exact ⟨⟨hy, (hgrows a ha x b y hrun).started.trans hx.2⟩, hanswer⟩
  obtain ⟨hu, hall⟩ := Survey.Keeps.mapM (P := fun a b t => k.answers (typeId a) v (type b) t) hgrows
    (fun hst => hk.grows hst) hkeeps s bs u ⟨hs, rfl⟩ h
  exact ⟨hu.1, chains_grows.mapM hgrows s bs u h, hall⟩

/-- What follows once a struct or union is started. -/
theorem finish {members : List (Member × Int)} {started : List Text} {table : TypeTable} {stored : TypeDef}
    (hs : k.invariant s) (hc : k.enters c started) (hd : c.definition.isSome = true)
    (hstarted : s.started = source.recordKey c :: started) (hn : source.recordKey c ∉ started)
    (hm : ((source.fieldsOf c).mapM fun field => source.member below (source.unit.cursor field)) s = .ok (members, u))
    (hr : u.table.register (.record (source.completeRecord (source.recordKey c) c (source.unit.cursor c.definition)
      (source.isUntagged c) members)) = .ok (table, stored)) :
    k.invariant { u with table, started, done := source.recordKey c :: u.done } := by
  have hmember : ∀ field s (m : Member × Int) t, source.member below (source.unit.cursor field) s = .ok (m, t) →
      source.convertWith below (source.typeOf field) true s = .ok (m.1.type, t) := by
    intro field s m t h
    exact (member_eq_ok h).1
  have hadmits : ∀ field ∈ source.fieldsOf c, k.admits (source.typeOf field) true s.started :=
    fun field hfield => hstarted ▸ hk.member hc hd hn hfield
  obtain ⟨hu, hgrows, hmembers⟩ := convertAll hk hg hb hmember hs hadmits hm
  exact hk.define hu hc hd (hgrows.started.trans hstarted) hn hmembers hr

theorem recordStep {t : Findings} {v : Bool} (hs : k.invariant s) (hc : k.enters c s.started)
    (hv : v = true ∨ source.isUntagged c = true)
    (h : RecordStep source below c (source.recordKey c) (source.isUntagged c) s t) :
    k.invariant t ∧ source.Reached c v t := by
  cases h with
  | known h => exact ⟨hs, h.elim (.defined hv) (.started hv)⟩
  | present _ hd h => exact ⟨hs, .undefined hv hd h⟩
  | named _ hd _ hr =>
    exact ⟨hk.name hs (fun ha => ⟨ha, hd, hc⟩) hr, .undefined hv hd (TypeTable.register_cases hr).contains_key⟩
  | @defined members u table stored hn hd hm hr =>
    have hgrows := chains_grows.mapM (fun field _ => member_grows hg _) _ members u hm
    have hfinish := finish hk hg hb (hk.start hs hc hd hn.1 hn.2) hc hd rfl hn.2 hm hr
    rw [filter_started hgrows.started hn.2]
    exact ⟨hfinish, .defined hv List.mem_cons_self⟩

theorem namingStep {t : Findings} (hs : k.invariant s) (hc : source.isUntagged c = true → k.enters c s.started)
    (h : NamingStep source below c s t) : k.invariant t ∧ source.Reached c false t := by
  cases h with
  | anonymous ha h => exact recordStep hk hg hb hs (hc ha) (Or.inr ha) (record_cases h).2
  | present ha h => exact ⟨hs, .named rfl ha h⟩
  | named ha hr =>
    exact ⟨hk.name hs (fun h => absurd h Bool.false_ne_true) hr,
      .named rfl ha (TypeTable.register_cases hr).contains_key⟩

omit hg in
theorem typedef {t : Findings} {v : Bool} (hs : k.invariant s) (hc : k.names c) (ha : k.admits c.underlying v s.started)
    (h : source.typedef below c v s = .ok (type, t)) :
    k.invariant t ∧ type = .named c.spelling ∧ c.spelling ∈ t.done := by
  obtain ⟨rfl, ⟨hdone, rfl⟩ | ⟨-, target, u, table, stored, htarget, hr, rfl⟩⟩ := typedef_cases h
  · exact ⟨hs, rfl, hdone⟩
  · obtain ⟨hu, hanswer⟩ := convertWith hk hb _ _ s target u hs ha htarget
    exact ⟨hk.defineTypedef hu hc hanswer hr, rfl, List.mem_cons_self⟩

omit hg hb in
theorem enumeration {t : Findings} {answer : Option CType} (hs : k.invariant s)
    (h : source.enumeration c s = .ok (answer, t)) : k.invariant t ∧ ∀ type, answer = some type →
      ∃ definition, type = .named (source.keyOf definition "enum").1 ∧ (source.keyOf definition "enum").1 ∈ t.done := by
  rcases enumeration_cases h with ⟨rfl, numbers, rfl⟩ | ⟨definition, key, rfl, rfl, hstep⟩
  · exact ⟨hk.sameTypes hs ⟨rfl, rfl, rfl⟩, nofun⟩
  · have hanswer : ∀ {t : Findings}, (source.keyOf definition "enum").1 ∈ t.done → ∀ type,
        some (CType.named (source.keyOf definition "enum").1) = some type → ∃ definition,
          type = .named (source.keyOf definition "enum").1 ∧ (source.keyOf definition "enum").1 ∈ t.done :=
      fun hdone type htype => ⟨definition, (Option.some.inj htype).symm, hdone⟩
    rcases hstep with ⟨hdone, rfl⟩ | ⟨-, e, table, stored, he, hr, rfl⟩
    · exact ⟨hs, hanswer hdone⟩
    · have hdefined := hk.defineEnumeration hs he hr
      exact ⟨hk.sameTypes hdefined ⟨rfl, rfl, rfl⟩, hanswer List.mem_cons_self⟩

theorem baseStep : k.KeptBy (source.baseStep below) := by
  intro t v s type u hs ht h
  have hconvert := convertWith hk hb
  cases baseStep_cases h with
  | leaf hleaf hkeys => exact ⟨hs, hk.leaf hleaf hkeys⟩
  | passes hp h htype =>
    obtain ⟨hu, hanswer⟩ := hb _ _ s _ u hs (hk.part (.passes hp) ht) h
    exact ⟨hu, hk.unqualified (hk.passes hp hanswer) htype⟩
  | array harray h =>
    obtain ⟨hu, hanswer⟩ := hconvert _ _ s _ u hs (hk.part (.element harray) ht) h
    exact ⟨hu, hk.array harray hanswer⟩
  | pointer hkind h =>
    obtain ⟨hu, hanswer⟩ := hconvert _ _ s _ u hs (hk.part (.pointee hkind) ht) h
    exact ⟨hu, hk.pointer hkind hanswer⟩
  | @function result arguments parameters variadic w _ hkind harguments hr hp =>
    obtain ⟨hw, hresult⟩ := hconvert _ _ s _ w hs (hk.part (.result hkind) ht) hr
    have hstarted := (convertWith_grows hg _ _ s _ w hr).started
    have hadmits : ∀ a ∈ arguments, k.admits a false w.started := by
      intro a ha
      rw [harguments] at ha
      split at ha
      · rename_i hproto
        exact hstarted ▸ hk.part (.argument hproto ha) ht
      · exact absurd ha List.not_mem_nil
    obtain ⟨hu, hgrows, hparameters⟩ := convertAll hk hg hb (fun a s p t h => h) hw hadmits hp
    exact ⟨hu, hk.function hkind harguments (hk.grows hgrows hresult) hparameters⟩
  | typedef hkind ho h =>
    obtain ⟨hnames, hunderlying⟩ := hk.underlying hkind ho ht
    obtain ⟨hu, rfl, hdone⟩ := typedef hk hb hs hnames hunderlying h
    exact ⟨hu, hk.typedefDone hkind ho hu hdone⟩
  | record hkind hv h =>
    obtain ⟨rfl, hstep⟩ := record_cases h
    obtain ⟨hu, hreached⟩ := recordStep hk hg hb hs (hk.enter hkind (Or.inl hv) ht) (Or.inl hv) hstep
    have hstarted := (record_grows hg _ s _ u h).started
    exact ⟨hu, hk.reached hkind hu (hstarted ▸ ht) hreached⟩
  | named hkind hv h =>
    obtain ⟨rfl, hstep⟩ := recordNamed_cases h
    obtain ⟨hu, hreached⟩ := namingStep hk hg hb hs (fun ha => hk.enter hkind (Or.inr ha) ht) hstep
    have hstarted := (recordNamed_grows hg _ s _ u h).started
    exact ⟨hu, hk.reached hkind hu (hstarted ▸ ht) (hv ▸ hreached)⟩
  | enumeration hkind h =>
    obtain ⟨hu, hanswer⟩ := enumeration hk hs h
    obtain ⟨definition, rfl, hdone⟩ := hanswer type rfl
    exact ⟨hu, hk.enumerationDone hkind hu hdone⟩

end Layer

variable (hk : k.Sound source)

include hk

theorem convertWithin : ∀ limit, k.KeptBy (source.convertWithin limit)
  | 0 => fun _ _ _ _ _ _ _ h => nomatch h
  | limit + 1 => baseStep hk (convertWithin_grows limit) (convertWithin limit)

theorem base : k.KeptBy source.base := convertWithin hk source.limit

/-- **A conversion keeps the contract** where nothing is started. -/
theorem convert {t : TypeId} (ht : k.admits t true []) : Survey.Keeps (fun s => k.invariant s ∧ s.started = [])
    (fun type u => k.answers t true type u) (source.convert t) := by
  intro s type u hs h
  obtain ⟨hu, hanswer⟩ := convertWith hk (base hk) t true s type u hs.1 (hs.2 ▸ ht) h
  exact ⟨⟨hu, (convert_grows t s type u h).started.trans hs.2⟩, hanswer⟩

/-- **The visit of a declaration keeps the contract**, and comes to the struct or union that is defined there. -/
theorem visit {id : CursorId} (hid : k.Allows (source.unit.cursor id)) :
    Survey.Keeps (fun s => k.invariant s ∧ s.started = [])
      (fun _ u => source.Defines (source.unit.cursor id) → source.Reached (source.unit.cursor id) true u)
      (source.visit id) := by
  have hgrows : ∀ t byValue, Preserves Findings.Grows (source.base t byValue) := convertWithin_grows source.limit
  intro s a u hs h
  have hstarted := (visit_grows id s a u h).started.trans hs.2
  cases visit_cases h with
  | skipped hn hbeside => exact ⟨⟨hk.sameTypes hs.1 hbeside.sameTypes, hstarted⟩, fun hd => absurd hd hn⟩
  | defined hd h =>
    obtain ⟨-, hstep⟩ := record_cases h
    obtain ⟨hu, hreached⟩ := recordStep hk hgrows (base hk) hs.1 (hs.2 ▸ hid.record hd.kind) (Or.inl rfl) hstep
    exact ⟨⟨hu, hstarted⟩, fun _ => hreached⟩
  | named hkind hd h =>
    obtain ⟨-, hstep⟩ := recordNamed_cases h
    obtain ⟨hu, -⟩ := namingStep hk hgrows (base hk) hs.1 (fun _ => hs.2 ▸ hid.record hkind) hstep
    refine ⟨⟨hu, hstarted⟩, fun hdefines => ?_⟩
    rw [hdefines.isDefinition] at hd
    cases hd
  | enumeration hkind h =>
    have hn : ¬ source.Defines (source.unit.cursor id) := not_defines (hkind ▸ nofun) (hkind ▸ nofun)
    exact ⟨⟨(enumeration hk hs.1 h).1, hstarted⟩, fun hd => absurd hd hn⟩
  | typedef _ hkind h =>
    obtain ⟨hnames, hadmits⟩ := hid.typedef hkind
    obtain ⟨hu, -⟩ := typedef hk (base hk) hs.1 hnames (hs.2 ▸ hadmits) h
    have hn : ¬ source.Defines (source.unit.cursor id) := not_defines (hkind ▸ nofun) (hkind ▸ nofun)
    exact ⟨⟨hu, hstarted⟩, fun hd => absurd hd hn⟩

/-- The visits of some declarations keep the contract. -/
theorem visits {top : List CursorId} (htop : ∀ id ∈ top, k.Allows (source.unit.cursor id)) :
    Survey.Keeps (fun s => k.invariant s ∧ s.started = []) (fun _ u => ∀ id ∈ top,
      source.Defines (source.unit.cursor id) → source.Reached (source.unit.cursor id) true u) (top.forM source.visit) :=
  Survey.Keeps.forM (P := fun id u => source.Defines (source.unit.cursor id) →
      source.Reached (source.unit.cursor id) true u) (fun id _ => visit_grows id)
    (fun hst hreached hd => (hreached hd).grows hst) fun id hid => visit hk (htop id hid)

/-- The rest of a walk keeps the contract, and comes to the structs and unions that headers define there. -/
theorem surveys {top : List CursorId} (htop : ∀ id ∈ top, k.Allows (source.unit.cursor id))
    (hidle : ∀ t, k.admits t true []) (h : source.Surveys top s t) (hs : k.invariant s ∧ s.started = []) :
    (k.invariant t ∧ t.started = []) ∧ ∀ id ∈ top, source.Defines (source.unit.cursor id) →
      source.Reached (source.unit.cursor id) true t :=
  h.keeps (P := fun id t => source.Defines (source.unit.cursor id) → source.Reached (source.unit.cursor id) true t)
    hs (fun hst hreached hd => (hreached hd).grows hst) (fun id hid => visit hk (htop id hid))
    (fun t s type u hs h => ⟨(convert hk (hidle t) s type u hs h).1, trivial⟩)

end Sound

/-- **A contract that governs the walk holds after both passes.** Nothing is started there, and all structs and
unions that headers define at the top are reached. -/
theorem Governs.surveys (hk : k.Governs source) (h : source.Surveys source.unit.top .empty t) :
    (k.invariant t ∧ t.started = []) ∧ ∀ id ∈ source.unit.top, source.Defines (source.unit.cursor id) →
      source.Reached (source.unit.cursor id) true t :=
  hk.toSound.surveys hk.allows hk.idle h ⟨hk.empty, rfl⟩

end Contract

end TrapStub.Source
