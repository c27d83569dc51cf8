import TrapStub.Proofs.Survey.EntryPoints
import TrapStub.Proofs.TypeTable.Register
import TrapStub.Run

/-!
# A whole walk

What the walk knows of types only grows: nothing that is done is undone, no key leaves the table, and
what was started when a step began is started when it ends. An invariant that every conversion and
every visit keeps holds of the findings that the interface is made from.

* `Findings.Grows`, `Source.convert_grows`: what a conversion adds to.
* `Survey.Keeps`: an invariant along a step, with what is known of the answer.
* `Source.visit_cases`: what the visit of a declaration does.
* `Survey.Steady`, `Source.Surveys.preserves`: **a relation along every change holds along both passes.**
* `Source.Surveys`, `Source.Surveys.keeps`: **what holds of the findings after both passes.**
-/

namespace TrapStub

variable {α β : Type} {s t u : Findings}

/-- The later findings have all that the earlier ones have, and as much is started. -/
structure Findings.Grows (s t : Findings) : Prop where
  started : t.started = s.started
  done : ∀ key ∈ s.done, key ∈ t.done
  contains : ∀ key, s.table.contains key = true → t.table.contains key = true

/-- The findings know the same of types. -/
structure Findings.SameTypes (s t : Findings) : Prop where
  table : t.table = s.table
  done : t.done = s.done
  started : t.started = s.started

/-- What a visit notes beside types. -/
inductive Findings.Beside (s : Findings) : Findings → Prop
  | nothing : Beside s s
  | prototype (id : CursorId) : Beside s { s with prototypes := s.prototypes ++ [id] }
  | definition (m : Macro) : Beside s { s with macros := Macro.insert s.macros m }
  | numbers (values : List (Text × Int)) : Beside s { s with trapValues := values ++ s.trapValues }

theorem Findings.Beside.sameTypes (h : s.Beside t) : s.SameTypes t := by
  cases h with
  | nothing => exact ⟨rfl, rfl, rfl⟩
  | prototype id => exact ⟨rfl, rfl, rfl⟩
  | definition m => exact ⟨rfl, rfl, rfl⟩
  | numbers values => exact ⟨rfl, rfl, rfl⟩

namespace Survey

/-- The relation holds along every change that a walk makes. -/
structure Steady (R : Findings → Findings → Prop) : Prop extends Stable R where
  beside : ∀ {s t}, s.Beside t → R s t

theorem chains_grows : Chains Findings.Grows where
  refl _ := ⟨rfl, fun _ => id, fun _ => id⟩
  trans h h' := ⟨h'.started.trans h.started, fun key hk => h'.done key (h.done key hk),
    fun key hk => h'.contains key (h.contains key hk)⟩

theorem grows_register {definition stored : TypeDef} {table : TypeTable}
    (h : s.table.register definition = .ok (table, stored)) : s.Grows { s with table } :=
  ⟨rfl, fun _ => id, fun _ => (TypeTable.register_cases h).contains_mono⟩

/-- Whenever the step answers after findings with the invariant, it keeps the invariant and answers as said. -/
def Keeps (I : Findings → Prop) (P : α → Findings → Prop) (step : Survey α) : Prop :=
  ∀ s a t, I s → step s = .ok (a, t) → I t ∧ P a t

theorem Keeps.mapM {I : Findings → Prop} {P : α → β → Findings → Prop} {f : α → Survey β} {l : List α}
    (hgrows : ∀ a ∈ l, Preserves Findings.Grows (f a)) (hP : ∀ {a b s t}, s.Grows t → P a b s → P a b t)
    (h : ∀ a ∈ l, Keeps I (P a) (f a)) : Keeps I (fun bs t => List.Forall₂ (P · · t) l bs) (l.mapM f) := by
  induction l with
  | nil =>
    intro s bs t hs h
    obtain ⟨rfl, rfl⟩ := pure_eq_ok.1 h
    exact ⟨hs, .nil⟩
  | cons a l ih =>
    intro s bs t hs hrun
    rw [List.mapM_cons] at hrun
    obtain ⟨b, u, hb, hrun⟩ := bind_eq_ok.1 hrun
    obtain ⟨rest, v, hrest, hrun⟩ := bind_eq_ok.1 hrun
    obtain ⟨rfl, rfl⟩ := pure_eq_ok.1 hrun
    have hl := fun c hc => hgrows c (List.mem_cons_of_mem a hc)
    obtain ⟨hu, hab⟩ := h a List.mem_cons_self s b u hs hb
    obtain ⟨hv, hall⟩ := ih hl (fun c hc => h c (List.mem_cons_of_mem a hc)) u rest v hu hrest
    exact ⟨hv, .cons (hP (chains_grows.mapM hl u rest v hrest) hab) hall⟩

/-- Visits in turn preserve what each of them does. -/
theorem Chains.forM {R : Findings → Findings → Prop} (hR : Chains R) {f : α → Survey Unit} :
    ∀ l : List α, (∀ a ∈ l, Preserves R (f a)) → Preserves R (l.forM f)
  | [], _ => hR.pure ()
  | a :: l, h => hR.bind (h a List.mem_cons_self) fun _ =>
      hR.forM l fun b hb => h b (List.mem_cons_of_mem a hb)

theorem Keeps.forM {I : Findings → Prop} {P : α → Findings → Prop} {f : α → Survey Unit} {l : List α}
    (hgrows : ∀ a ∈ l, Preserves Findings.Grows (f a)) (hP : ∀ {a s t}, s.Grows t → P a s → P a t)
    (h : ∀ a ∈ l, Keeps I (fun _ => P a) (f a)) : Keeps I (fun _ t => ∀ a ∈ l, P a t) (l.forM f) := by
  induction l with
  | nil =>
    intro s _ t hs h
    obtain ⟨-, rfl⟩ := pure_eq_ok.1 h
    exact ⟨hs, nofun⟩
  | cons a l ih =>
    intro s _ t hs hrun
    obtain ⟨_, u, ha, hrun⟩ := bind_eq_ok.1 hrun
    have hl := fun b hb => hgrows b (List.mem_cons_of_mem a hb)
    obtain ⟨hu, hhead⟩ := h a List.mem_cons_self s _ u hs ha
    obtain ⟨ht, htail⟩ := ih hl (fun b hb => h b (List.mem_cons_of_mem a hb)) u _ t hu hrun
    exact ⟨ht, List.forall_mem_cons.2 ⟨hP (chains_grows.forM l hl u _ t hrun) hhead, htail⟩⟩

end Survey

namespace Source

open Survey

variable {source : Source} {below : Conversion} {c : Cursor} {type : CType}

section Layer

variable (hb : ∀ t byValue, Preserves Findings.Grows (below t byValue))

include hb

theorem convertWith_grows (t : TypeId) (byValue : Bool) :
    Preserves Findings.Grows (source.convertWith below t byValue) :=
  chains_grows.bind (hb t byValue) fun _ => chains_grows.pure _

theorem member_grows (c : Cursor) : Preserves Findings.Grows (source.member below c) := by
  unfold member
  refine chains_grows.bind (chains_grows.lift _) fun explicit => ?_
  exact chains_grows.bind (convertWith_grows hb _ _) fun type => chains_grows.pure _

omit hb in
/-- What was started for the members of a record is its key alone. -/
theorem filter_started {key : Text} (h : u.started = key :: s.started) (hn : key ∉ s.started) :
    u.started.filter (· != key) = s.started := by
  rw [h, List.filter_cons_of_neg (by simp), List.filter_eq_self]
  intro k hk
  simp only [bne_iff_ne, ne_eq]
  rintro rfl
  exact hn hk

theorem record_grows (c : Cursor) : Preserves Findings.Grows (source.record below c) := by
  intro s type t h
  cases (record_cases h).2 with
  | known => exact chains_grows.refl s
  | present => exact chains_grows.refl s
  | named _ _ _ hr => exact grows_register hr
  | @defined members u table stored hn hd hm hr =>
    have hmembers := chains_grows.mapM (fun field _ => member_grows hb _) _ members u hm
    have htable := grows_register hr
    exact ⟨filter_started hmembers.started hn.2, fun key hk => List.mem_cons_of_mem _ (hmembers.done key hk),
      fun key hk => htable.contains key (hmembers.contains key hk)⟩

theorem recordNamed_grows (c : Cursor) : Preserves Findings.Grows (source.recordNamed below c) := by
  intro s type t h
  cases (recordNamed_cases h).2 with
  | anonymous _ h => exact record_grows hb c s _ t h
  | present => exact chains_grows.refl s
  | named _ hr => exact grows_register hr

theorem typedef_grows (c : Cursor) (byValue : Bool) : Preserves Findings.Grows (source.typedef below c byValue) := by
  intro s type t h
  rcases (typedef_cases h).2 with ⟨-, rfl⟩ | ⟨-, target, u, table, stored, htarget, hr, rfl⟩
  · exact chains_grows.refl s
  · have htarget := convertWith_grows hb _ _ s target u htarget
    have htable := grows_register hr
    exact ⟨htarget.started, fun key hk => List.mem_cons_of_mem _ (htarget.done key hk),
      fun key hk => htable.contains key (htarget.contains key hk)⟩

omit hb in
theorem enumeration_grows (c : Cursor) : Preserves Findings.Grows (source.enumeration c) := by
  intro s answer t h
  rcases enumeration_cases h with ⟨-, numbers, rfl⟩ | ⟨-, key, -, -, ⟨-, rfl⟩ | ⟨-, _, table, stored, -, hr, rfl⟩⟩
  · exact ⟨rfl, fun _ => id, fun _ => id⟩
  · exact chains_grows.refl s
  · exact ⟨rfl, fun key hk => List.mem_cons_of_mem _ hk, (grows_register hr).contains⟩

theorem baseStep_grows (t : TypeId) (byValue : Bool) : Preserves Findings.Grows (source.baseStep below t byValue) := by
  have hconvert : ∀ t byValue, Preserves Findings.Grows (source.convertWith below t byValue) := convertWith_grows hb
  intro s type u h
  cases baseStep_cases h with
  | leaf => exact chains_grows.refl s
  | passes _ h => exact hb _ _ s _ u h
  | array _ h => exact hconvert _ _ s _ u h
  | pointer _ h => exact hconvert _ _ s _ u h
  | function _ _ hr hp =>
    exact chains_grows.trans (hconvert _ _ s _ _ hr) (chains_grows.mapM (fun _ _ => hconvert _ _) _ _ u hp)
  | typedef _ _ h => exact typedef_grows hb _ _ s type u h
  | record _ _ h => exact record_grows hb _ s type u h
  | named _ _ h => exact recordNamed_grows hb _ s type u h
  | enumeration _ h => exact enumeration_grows _ s _ u h

end Layer

theorem convertWithin_grows (limit : Nat) :
    ∀ t byValue, Preserves Findings.Grows (source.convertWithin limit t byValue) := by
  induction limit with
  | zero => intro t byValue s type u h; cases h
  | succ limit ih => exact baseStep_grows ih

/-- **What a walk knows only grows** in a conversion. -/
theorem convert_grows (t : TypeId) : Preserves Findings.Grows (source.convert t) :=
  convertWith_grows (convertWithin_grows source.limit) t true

/-! ## Both passes -/

/-- The cursor is where a staged header defines a struct or union. -/
structure Defines (source : Source) (c : Cursor) : Prop where
  origin : (source.originOf? c).isSome = true
  kind : c.kind = .structDecl ∨ c.kind = .unionDecl
  isDefinition : c.isDefinition = true

theorem not_defines (hs : c.kind ≠ .structDecl) (hu : c.kind ≠ .unionDecl) : ¬ source.Defines c :=
  fun hd => hd.kind.elim hs hu

/-- What the visit of a declaration does. -/
inductive VisitStep (source : Source) (c : Cursor) (s t : Findings) : Prop
  | skipped (hn : ¬ source.Defines c) (h : s.Beside t)
  | defined {type : CType} (hd : source.Defines c) (h : source.record source.base c s = .ok (type, t))
  | named {type : CType} (hk : c.kind = .structDecl ∨ c.kind = .unionDecl) (hd : c.isDefinition = false)
      (h : source.recordNamed source.base c s = .ok (type, t))
  | enumeration {answer : Option CType} (hk : c.kind = .enumDecl) (h : source.enumeration c s = .ok (answer, t))
  | typedef {type : CType} (ho : (source.originOf? c).isSome = true) (hk : c.kind = .typedefDecl)
      (h : source.typedef source.base c true s = .ok (type, t))

theorem noteMacro_beside {origin : Text} {a : Unit} (h : source.noteMacro c origin s = .ok (a, t)) :
    s.Beside t := by
  unfold noteMacro at h
  generalize Macro.ofTokens? ((source.staged.bytes? origin).getD []) c.tokens = m at h
  cases m with
  | some m =>
    obtain rfl := modify_eq_ok.1 h
    exact .definition m
  | none =>
    obtain ⟨-, rfl⟩ := pure_eq_ok.1 h
    exact .nothing

theorem discard_eq_ok {x : Survey α} {a : Unit} (h : (discard x) s = .ok (a, t)) : ∃ b, x s = .ok (b, t) := by
  have hrun : (discard x) s = x s >>= fun r => .ok ((), r.2) := rfl
  rw [hrun] at h
  obtain ⟨⟨b, u⟩, hb, h⟩ := TrapStub.bind_eq_ok.1 h
  cases h
  exact ⟨b, hb⟩

theorem visit_cases {id : CursorId} {a : Unit} (h : source.visit id s = .ok (a, t)) :
    VisitStep source (source.unit.cursor id) s t := by
  have hskip : ∀ {a : Unit}, ¬ source.Defines (source.unit.cursor id) → (pure () : Survey Unit) s = .ok (a, t) →
      VisitStep source (source.unit.cursor id) s t := by
    intro a hn h
    obtain ⟨-, rfl⟩ := pure_eq_ok.1 h
    exact .skipped hn .nothing
  have hrecord : (source.unit.cursor id).kind = .structDecl ∨ (source.unit.cursor id).kind = .unionDecl →
      (source.originOf? (source.unit.cursor id)).isSome = true →
      (if (source.unit.cursor id).isDefinition then discard (source.record source.base (source.unit.cursor id))
        else discard (source.recordNamed source.base (source.unit.cursor id))) s = .ok (a, t) →
      VisitStep source (source.unit.cursor id) s t := by
    intro hk ho h
    split at h
    · rename_i hd
      obtain ⟨type, h⟩ := discard_eq_ok h
      exact .defined ⟨ho, hk, hd⟩ h
    · rename_i hd
      obtain ⟨type, h⟩ := discard_eq_ok h
      exact .named hk (by simpa using hd) h
  unfold visit at h
  cases ho : source.originOf? (source.unit.cursor id) with
  | none =>
    simp only [ho] at h
    refine hskip (fun hd => ?_) h
    have horigin := hd.origin
    rw [ho] at horigin
    cases horigin
  | some origin =>
    simp only [ho] at h
    cases hk : (source.unit.cursor id).kind with
    | structDecl =>
      simp only [hk] at h
      exact hrecord (Or.inl hk) (by rw [ho]; rfl) h
    | unionDecl =>
      simp only [hk] at h
      exact hrecord (Or.inr hk) (by rw [ho]; rfl) h
    | enumDecl =>
      simp only [hk] at h
      obtain ⟨answer, h⟩ := discard_eq_ok h
      exact .enumeration hk h
    | typedefDecl =>
      simp only [hk] at h
      obtain ⟨type, h⟩ := discard_eq_ok h
      exact .typedef (by rw [ho]; rfl) hk h
    | functionDecl =>
      have hn : ¬ source.Defines (source.unit.cursor id) := not_defines (by rw [hk]; nofun) (by rw [hk]; nofun)
      simp only [hk] at h
      split at h
      · obtain rfl := modify_eq_ok.1 h
        exact .skipped hn (.prototype id)
      · exact hskip hn h
    | macroDefinition =>
      have hn : ¬ source.Defines (source.unit.cursor id) := not_defines (by rw [hk]; nofun) (by rw [hk]; nofun)
      simp only [hk] at h
      exact .skipped hn (noteMacro_beside h)
    | enumConstantDecl | packedAttr | alignedAttr | annotateAttr | other =>
      have hn : ¬ source.Defines (source.unit.cursor id) := not_defines (by rw [hk]; nofun) (by rw [hk]; nofun)
      simp only [hk] at h
      exact hskip hn h

theorem visit_grows (id : CursorId) : Preserves Findings.Grows (source.visit id) := by
  have hbase : ∀ t byValue, Preserves Findings.Grows (source.base t byValue) := convertWithin_grows source.limit
  intro s a t h
  cases visit_cases h with
  | skipped _ h =>
    obtain ⟨htable, hdone, hstarted⟩ := h.sameTypes
    exact ⟨hstarted, fun key hk => hdone ▸ hk, fun key hk => htable ▸ hk⟩
  | defined _ h => exact record_grows hbase _ s _ t h
  | named _ _ h => exact recordNamed_grows hbase _ s _ t h
  | enumeration _ h => exact enumeration_grows _ s _ t h
  | typedef _ _ h => exact typedef_grows hbase _ _ s _ t h

/-- A visit preserves every steady relation. -/
theorem visit_preserves {R : Findings → Findings → Prop} (hR : Steady R) (id : CursorId) :
    Preserves R (source.visit id) := by
  have hbase : ∀ t byValue, Preserves R (source.base t byValue) := convertWithin_preserves hR.toStable source.limit
  intro s a t h
  cases visit_cases h with
  | skipped _ h => exact hR.beside h
  | defined _ h => exact record_preserves hR.toStable hbase _ s _ t h
  | named _ _ h => exact recordNamed_preserves hR.toStable hbase _ s _ t h
  | typedef _ _ h => exact typedef_preserves hR.toStable hbase _ _ s _ t h
  | @enumeration answer _ h =>
    cases answer with
    | some type => exact enumeration_preserves hR.toStable h
    | none =>
      rcases enumeration_cases h with ⟨-, numbers, rfl⟩ | ⟨_, _, -, hanswer, -⟩
      · exact hR.beside (.numbers numbers.reverse)
      · cases hanswer

/-- The second pass preserves what the conversions of types preserve. -/
theorem declarations_preserves {R : Findings → Findings → Prop} (hR : Chains R)
    (hconvert : ∀ t, Preserves R (source.convert t)) : Preserves R source.declarations := by
  intro s ds t h
  obtain ⟨walked, hwalk, -⟩ := declarations_eq_ok h
  refine hR.mapM (fun id _ => ?_) s walked t hwalk
  intro s d t hd
  obtain ⟨number, types, -, hs, -⟩ := declaration_eq_ok.1 hd
  exact signature_preserves hR hconvert id s types t hs

/-- The visits of some declarations, and then the types of the prototypes, lead from some findings to others. -/
def Surveys (source : Source) (top : List CursorId) (s t : Findings) : Prop :=
  ∃ u ds, top.forM source.visit s = .ok ((), u) ∧ source.declarations u = .ok (ds, t)

/-- An interface is what both passes answer and leave. -/
theorem interface_eq_ok {interface : Interface} (h : source.interface = .ok interface) :
    ∃ ds t, (do source.visitAll; source.declarations) .empty = .ok (ds, t) ∧
      interface = ⟨t.table.freeze, ds, exportedConstants (constantNames t) t.macros⟩ := by
  obtain ⟨⟨ds, t⟩, hrun, h⟩ := TrapStub.bind_eq_ok.1 h
  exact ⟨ds, t, hrun, (TrapStub.pure_eq_ok.1 h).symm⟩

theorem surveys_of_passes {ds : List Declaration}
    (h : (do source.visitAll; source.declarations) .empty = .ok (ds, t)) :
    source.Surveys source.unit.top .empty t := by
  obtain ⟨_, s, hvisit, hds⟩ := Survey.bind_eq_ok.1 h
  exact ⟨s, ds, hvisit, hds⟩

/-- **The table of an interface is what both passes have found**, frozen. -/
theorem interface_surveys {interface : Interface} (h : source.interface = .ok interface) :
    ∃ t, source.Surveys source.unit.top .empty t ∧ interface.table = t.table.freeze := by
  obtain ⟨ds, t, hrun, rfl⟩ := interface_eq_ok h
  exact ⟨t, surveys_of_passes hrun, rfl⟩

/-- **Both passes preserve every steady relation.** -/
theorem Surveys.preserves {R : Findings → Findings → Prop} (hR : Steady R) {top : List CursorId}
    (h : source.Surveys top s t) : R s t := by
  obtain ⟨u, ds, hvisits, hds⟩ := h
  refine hR.trans (hR.forM top (fun id _ => visit_preserves hR id) s () u hvisits) ?_
  exact declarations_preserves hR.toChains (convert_preserves hR.toStable) u ds t hds

theorem Surveys.split {first rest : List CursorId} (h : source.Surveys (first ++ rest) s t) :
    ∃ u, first.forM source.visit s = .ok ((), u) ∧ source.Surveys rest u t := by
  obtain ⟨v, ds, hvisits, hds⟩ := h
  rw [List.forM_eq_forM, List.forM_append] at hvisits
  obtain ⟨_, u, hfirst, hrest⟩ := Survey.bind_eq_ok.1 hvisits
  exact ⟨u, hfirst, v, ds, hrest, hds⟩

/-- **An invariant of the walk holds after both passes**, with what each visit has found. -/
theorem Surveys.keeps {I : Findings → Prop} {P : CursorId → Findings → Prop} {top : List CursorId}
    (h : source.Surveys top s t) (hs : I s) (hP : ∀ {id s t}, s.Grows t → P id s → P id t)
    (hvisit : ∀ id ∈ top, Keeps I (fun _ => P id) (source.visit id))
    (hconvert : ∀ t, Keeps I (fun _ _ => True) (source.convert t)) : I t ∧ ∀ id ∈ top, P id t := by
  obtain ⟨u, ds, hwalk, hds⟩ := h
  obtain ⟨hu, hfound⟩ := Keeps.forM (P := P) (fun id _ => visit_grows id) hP hvisit _ _ u hs hwalk
  have hchains : Chains fun s t => I s → I t := ⟨fun _ => id, fun h h' hs => h' (h hs)⟩
  have ht : I t := declarations_preserves hchains (fun type s a t ha hs => (hconvert type s a t hs ha).1) u ds t hds hu
  have hgrows := declarations_preserves chains_grows convert_grows u ds t hds
  exact ⟨ht, fun id hid => hP hgrows (hfound id hid)⟩

end Source

end TrapStub
