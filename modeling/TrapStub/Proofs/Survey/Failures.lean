import TrapStub.Proofs.Survey.Walk

/-!
# How a walk fails

A conversion fails with a report, or because the argument of an `aligned` attribute cannot be read, or
because the bound on types inside each other is met. It is not met when types lead back to themselves
only through the members of a record: on the way down, each record is started once, and between two
records no type is met twice.

* `Survey.FailsWith`: what is said of the faults of a step.
* `Source.Leads`, `Source.Unrolled`: where a type leads without entering a record, and that this comes
  to an end.
* `Source.weight`: how much deeper types can be inside each other.
* `Source.convertWithin_fails`: **a conversion does not meet its bound.**
* `Source.interface_fails`: so both passes fail with reports, or on an alignment.
-/

namespace TrapStub

variable {α β : Type} {P : Fault → Prop} {s t u : Findings}

/-- The fault is a report. -/
def Fault.IsReport (fault : Fault) : Prop := ∃ r, fault = .report r

theorem Fault.IsMalformed.isReport {fault : Fault} (h : fault.IsMalformed) : fault.IsReport := by
  obtain ⟨r, hr, -⟩ := h
  exact ⟨r, hr⟩

/-- The later findings have as much started, and a table as open. -/
structure Findings.Resumes (s t : Findings) : Prop where
  started : t.started = s.started
  frozen : t.table.frozen = s.table.frozen

namespace Survey

theorem register_frozen {definition stored : TypeDef} {table table' : TypeTable}
    (h : table.register definition = .ok (table', stored)) : table'.frozen = table.frozen := by
  cases TypeTable.register_cases h <;> rfl

theorem chains_resumes : Chains Findings.Resumes where
  refl _ := ⟨rfl, rfl⟩
  trans h h' := ⟨h'.started.trans h.started, h'.frozen.trans h.frozen⟩

/-- Whenever the step fails, its fault is as said. -/
def FailsWith (P : Fault → Prop) (step : Survey α) (s : Findings) : Prop := ∀ fault, step s = .error fault → P fault

theorem FailsWith.bind {x : Survey α} {f : α → Survey β} (hx : FailsWith P x s)
    (hf : ∀ a t, x s = .ok (a, t) → FailsWith P (f a) t) : FailsWith P (x >>= f) s := by
  intro fault h
  rcases bind_eq_error.1 h with h | ⟨a, t, ha, h⟩
  · exact hx fault h
  · exact hf a t ha fault h

theorem failsWith_ok {x : Survey α} {a : α} (h : x s = .ok (a, t)) : FailsWith P x s := by
  intro fault hfault
  rw [h] at hfault
  cases hfault

/-- Steps in turn fail as each of them does, where what it relies on is kept. -/
theorem FailsWith.mapM {I : Findings → Prop} {f : α → Survey β} {l : List α} (hs : I s)
    (h : ∀ a ∈ l, ∀ s, I s → FailsWith P (f a) s) (hI : ∀ a ∈ l, ∀ s b t, I s → f a s = .ok (b, t) → I t) :
    FailsWith P (l.mapM f) s := by
  induction l generalizing s with
  | nil => exact failsWith_ok rfl
  | cons a l ih =>
    rw [List.mapM_cons]
    refine (h a List.mem_cons_self s hs).bind fun b t hb => ?_
    refine (ih (hI a List.mem_cons_self s b t hs hb) (fun c hc => h c (List.mem_cons_of_mem a hc))
      fun c hc => hI c (List.mem_cons_of_mem a hc)).bind fun _ _ _ => failsWith_ok rfl

theorem FailsWith.forM {I : Findings → Prop} {f : α → Survey Unit} {l : List α} (hs : I s)
    (h : ∀ a ∈ l, ∀ s, I s → FailsWith P (f a) s) (hI : ∀ a ∈ l, ∀ s b t, I s → f a s = .ok (b, t) → I t) :
    FailsWith P (l.forM f) s := by
  induction l generalizing s with
  | nil => exact failsWith_ok rfl
  | cons a l ih =>
    refine (h a List.mem_cons_self s hs).bind fun b t hb => ?_
    exact ih (hI a List.mem_cons_self s b t hs hb) (fun c hc => h c (List.mem_cons_of_mem a hc))
      fun c hc => hI c (List.mem_cons_of_mem a hc)

theorem FailsWith.discard {x : Survey α} (h : FailsWith P x s) :
    FailsWith P (Functor.discard x) s := by
  intro fault hfault
  have hrun : (Functor.discard x) s = x s >>= fun r => .ok ((), r.2) := rfl
  rw [hrun] at hfault
  rcases TrapStub.bind_eq_error.1 hfault with hfault | ⟨_, -, hfault⟩
  · exact h fault hfault
  · cases hfault

theorem FailsWith.blaming {x : Survey α} {name place : Text} (hP : ∀ r, P (.report r)) (h : FailsWith P x s) :
    FailsWith P (TrapStub.blaming name place x) s := by
  intro fault hfault
  unfold TrapStub.blaming at hfault
  split at hfault
  · cases hfault
    exact hP _
  · exact h fault hfault

/-- A definition is refused by an open table with a report. -/
theorem failsWith_register {definition : TypeDef} (hP : ∀ r, P (.report r)) (hs : s.table.frozen = false) :
    FailsWith P (registerType definition) s := by
  intro fault h
  have h := registerType_eq_error.1 h
  unfold TypeTable.register at h
  rw [hs, if_neg Bool.false_ne_true] at h
  split at h
  · cases h
  · split at h
    · cases h
    · cases h
    · cases h
      exact hP _

end Survey

namespace Source

open Survey

variable {source : Source} {below : Conversion} {c : Cursor} {t : TypeId} {byValue : Bool}

/-! ## Where types lead -/

/-- The conversion of a type needs that of another one, and enters no record in between. -/
inductive Leads (source : Source) (t : TypeId) : TypeId → Prop
  | part {byValue w : Bool} {next : TypeId} (h : source.Part t byValue next w)
      (hn : ∀ name, (source.unit.type t).kind = .other name → (source.unit.type next).kind ≠ (source.unit.type t).kind) :
      Leads source t next
  | underlying (hk : (source.unit.type t).kind = .typedef) (ho : (source.originOf? (source.declared t)).isSome = true) :
      Leads source t (source.declared t).underlying

/-- Types lead back to themselves only through the members of a record. -/
def Unrolled (source : Source) : Prop := ∀ t, ¬ Relation.TransGen source.Leads t t

/-- The struct or union has a place in the unit when it has a definition. -/
theorem cursor_of_definition {id : CursorId} (hd : (source.unit.cursor id).definition.isSome = true) :
    ∃ i, id = some i ∧ i < source.unit.cursors.size := by
  cases id with
  | none => cases hd
  | some i =>
    refine ⟨i, rfl, ?_⟩
    by_contra hi
    have hnone : source.unit.cursors[i]? = none := Array.getElem?_eq_none (Nat.le_of_not_lt hi)
    unfold ParsedUnit.cursor at hd
    rw [Option.bind_some, hnone] at hd
    cases hd

/-- A type that leads to another one has a place in the unit. -/
theorem Leads.index {next : TypeId} (h : source.Leads t next) : ∃ i, t = some i ∧ i < source.unit.types.size := by
  by_contra hout
  have hdefault : source.unit.type t = {} := by
    cases t with
    | none => rfl
    | some i =>
      have hnone : source.unit.types[i]? = none :=
        Array.getElem?_eq_none (Nat.le_of_not_lt fun hi => hout ⟨i, rfl, hi⟩)
      unfold ParsedUnit.type
      rw [Option.bind_some, hnone]
      rfl
  have hkind : (source.unit.type t).kind = .other "Invalid" := by rw [hdefault]
  have hcanonical : source.unit.canonical t = t := by
    unfold ParsedUnit.canonical
    rw [hdefault]
    rfl
  cases h with
  | underlying hk => rw [hkind] at hk; cases hk
  | part h hn =>
    cases h with
    | passes h =>
      cases h with
      | elaborated hk => rw [hkind] at hk; cases hk
      | system hk => rw [hkind] at hk; cases hk
      | other hother => exact hn _ hother (by rw [hcanonical])
    | element hk => rcases hk with hk | hk | hk <;> rw [hkind] at hk <;> cases hk
    | pointee hk => rw [hkind] at hk; cases hk
    | result hk => rcases hk with hk | hk <;> rw [hkind] at hk <;> cases hk
    | argument hk => rw [hkind] at hk; cases hk

/-- The records that are not started. -/
def unstarted (source : Source) (started : List Text) : Nat :=
  ((List.range source.unit.cursors.size).filter fun i => source.recordKey (source.unit.cursor (some i)) ∉ started).length

/-- The types that are not on the way. -/
def unmet (source : Source) (way : List TypeId) : Nat :=
  ((List.range source.unit.types.size).filter fun i => some i ∉ way).length

/-- How much deeper types can be inside each other, given what is started and the types on the way since then. -/
def weight (source : Source) (started : List Text) (way : List TypeId) : Nat :=
  source.unstarted started * (source.unit.types.size + 1) + source.unmet way

theorem filter_length_lt {l : List α} {p q : α → Bool} {a : α} (hpq : ∀ x, q x = true → p x = true) (ha : a ∈ l)
    (hp : p a = true) (hq : q a = false) : (l.filter q).length < (l.filter p).length := by
  have hfilter : l.filter q = (l.filter p).filter q := by
    rw [List.filter_filter]
    congr 1
    funext x
    cases hx : q x with
    | false => rfl
    | true => rw [hpq x hx]; rfl
  rw [hfilter]
  exact List.length_filter_lt_length_iff_exists.2 ⟨a, List.mem_filter.2 ⟨ha, hp⟩, by rw [hq]; exact Bool.false_ne_true⟩

theorem unstarted_cons {started : List Text} {i : Nat} (hi : i < source.unit.cursors.size)
    (hn : source.recordKey (source.unit.cursor (some i)) ∉ started) :
    source.unstarted (source.recordKey (source.unit.cursor (some i)) :: started) < source.unstarted started := by
  refine filter_length_lt (fun x hx => ?_) (List.mem_range.2 hi) (decide_eq_true hn)
    (decide_eq_false (not_not.2 List.mem_cons_self))
  exact decide_eq_true fun hmem => of_decide_eq_true hx (List.mem_cons_of_mem _ hmem)

theorem unmet_cons {way : List TypeId} {i : Nat} (hi : i < source.unit.types.size) (hn : some i ∉ way) :
    source.unmet (some i :: way) < source.unmet way := by
  refine filter_length_lt (fun x hx => ?_) (List.mem_range.2 hi) (decide_eq_true hn)
    (decide_eq_false (not_not.2 List.mem_cons_self))
  exact decide_eq_true fun hmem => of_decide_eq_true hx (List.mem_cons_of_mem _ hmem)

theorem unmet_le (way : List TypeId) : source.unmet way ≤ source.unit.types.size := by
  unfold unmet
  exact Nat.le_trans (List.length_filter_le _ _) (Nat.le_of_eq List.length_range)

/-- One more record starts, and the way begins anew. -/
theorem weight_start (way : List TypeId) {started : List Text} {i : Nat} (hi : i < source.unit.cursors.size)
    (hn : source.recordKey (source.unit.cursor (some i)) ∉ started) :
    source.weight (source.recordKey (source.unit.cursor (some i)) :: started) [] < source.weight started way := by
  have hfewer := unstarted_cons hi hn
  have hunmet := source.unmet_le []
  have hmul := Nat.mul_le_mul_right (source.unit.types.size + 1) hfewer
  rw [Nat.succ_mul] at hmul
  unfold weight
  omega

theorem weight_lead (started : List Text) {way : List TypeId} {next : TypeId} (h : source.Leads t next)
    (hn : t ∉ way) :
    source.weight started (t :: way) < source.weight started way := by
  obtain ⟨i, rfl, hi⟩ := h.index
  have hfewer := unmet_cons hi hn
  unfold weight
  omega

theorem weight_lt_limit (started : List Text) (way : List TypeId) : source.weight started way < source.limit := by
  have hunstarted : source.unstarted started ≤ source.unit.cursors.size := by
    unfold unstarted
    exact Nat.le_trans (List.length_filter_le _ _) (Nat.le_of_eq List.length_range)
  have hunmet := source.unmet_le way
  have hmul := Nat.mul_le_mul_right (source.unit.types.size + 1) hunstarted
  unfold weight limit
  nlinarith

/-- What a field is aligned to, as its attributes say it. -/
def fieldAlignment (source : Source) (id : CursorId) : Except Fault (Option Int) :=
  let c := source.unit.cursor id
  Alignment.ofArgument (source.memberAttributes c (if c.fieldOffset < 0 then none else some c.fieldOffset)).2

/-! ## Conversions -/

section Layer

variable (hP : ∀ r, P (.report r))
  (hread : ∀ c, ∀ id ∈ source.fieldsOf c, ∀ fault, source.fieldAlignment id = .error fault → P fault)
  (hresumes : ∀ t byValue, Preserves Findings.Resumes (below t byValue))

include hP in
/-- What finishes a definition fails with a report. -/
theorem failsWith_finish {α : Type} {definition : TypeDef} {key : Text} {a : α} (hs : s.table.frozen = false) :
    FailsWith P (do registerType definition; modify fun state => { state with done := key :: state.done }; return a) s :=
  (failsWith_register hP hs).bind fun _ _ _ => FailsWith.bind (failsWith_ok rfl) fun _ _ _ => failsWith_ok rfl

theorem convertWith_fails (h : FailsWith P (below t byValue) s) :
    FailsWith P (source.convertWith below t byValue) s :=
  h.bind fun _ _ _ => failsWith_ok rfl

include hread in
theorem member_fails {id : CursorId} (hid : id ∈ source.fieldsOf c) (h : FailsWith P (below (source.typeOf id) true) s) :
    FailsWith P (source.member below (source.unit.cursor id)) s := by
  unfold member
  refine FailsWith.bind (fun fault hfault => hread c id hid fault (lift_eq_error.1 hfault)) fun explicit t ht => ?_
  obtain ⟨-, rfl⟩ := lift_eq_ok.1 ht
  exact (convertWith_fails h).bind fun _ _ _ => failsWith_ok rfl

include hresumes in
theorem member_resumes (c : Cursor) : Preserves Findings.Resumes (source.member below c) := by
  unfold member
  refine chains_resumes.bind (chains_resumes.lift _) fun explicit => ?_
  exact chains_resumes.bind (chains_resumes.bind (hresumes _ _) fun _ => chains_resumes.pure _)
    fun _ => chains_resumes.pure _

include hP hread hresumes in
/-- A struct or union fails as the types of its members do once it is started. -/
theorem record_fails (hs : s.table.frozen = false)
    (h : c.definition.isSome = true → source.recordKey c ∉ s.started → ∀ field ∈ source.fieldsOf c, ∀ u : Findings,
      u.started = source.recordKey c :: s.started → u.table.frozen = false →
      FailsWith P (below (source.typeOf field) true) u) : FailsWith P (source.record below c) s := by
  unfold record
  rcases hpair : source.keyOf c (recordKind c).keyword with ⟨key, anonymous⟩
  have hkey : source.recordKey c = key := congrArg Prod.fst hpair
  rw [hkey] at h
  dsimp only
  refine FailsWith.bind (failsWith_ok get_run) fun _ _ hget => ?_
  obtain ⟨rfl, rfl⟩ := Survey.get_eq_ok.1 hget
  split
  · exact failsWith_ok rfl
  · rename_i hknown
    have hn : key ∉ s.started := fun hmem => hknown (by simp [hmem])
    cases hd : c.definition with
    | none =>
      dsimp only
      split
      · exact (failsWith_register hP hs).bind fun _ _ _ => failsWith_ok rfl
      · exact failsWith_ok rfl
    | some id =>
      dsimp only
      refine FailsWith.bind (failsWith_ok rfl) fun _ v hstart => ?_
      obtain rfl := Survey.modify_eq_ok.1 hstart
      -- the members are converted while the key is started
      have hmembers := FailsWith.mapM (P := P) (l := source.fieldsOf c)
        (f := fun field => source.member below (source.unit.cursor field))
        (I := Findings.Resumes { s with started := key :: s.started }) (chains_resumes.refl _)
        (fun field hfield u hu => member_fails hread hfield (h (by rw [hd]; rfl) hn field hfield u hu.started
          (hu.frozen.trans hs)))
        fun field _ u m v hu hm => chains_resumes.trans hu (member_resumes hresumes _ u m v hm)
      rw [← hd]
      refine FailsWith.bind hmembers fun members u hm => ?_
      have hu := chains_resumes.mapM (fun field _ => member_resumes hresumes _) _ members u hm
      refine FailsWith.bind (failsWith_ok rfl) fun _ v hstop => ?_
      obtain rfl := Survey.modify_eq_ok.1 hstop
      exact failsWith_finish hP (hu.frozen.trans hs)

include hP hread hresumes in
theorem recordNamed_fails (hs : s.table.frozen = false)
    (h : c.definition.isSome = true → source.recordKey c ∉ s.started → ∀ field ∈ source.fieldsOf c, ∀ u : Findings,
      u.started = source.recordKey c :: s.started → u.table.frozen = false →
      FailsWith P (below (source.typeOf field) true) u) : FailsWith P (source.recordNamed below c) s := by
  have hrecord := record_fails hP hread hresumes hs h
  unfold recordNamed
  rcases hpair : source.keyOf c (recordKind c).keyword with ⟨key, anonymous⟩
  dsimp only
  split
  · exact hrecord
  · refine FailsWith.bind (failsWith_ok get_run) fun _ _ hget => ?_
    obtain ⟨rfl, rfl⟩ := Survey.get_eq_ok.1 hget
    split
    · exact (failsWith_register hP hs).bind fun _ _ _ => failsWith_ok rfl
    · exact failsWith_ok rfl

include hP in
theorem enumeration_fails (hs : s.table.frozen = false) : FailsWith P (source.enumeration c) s := by
  unfold enumeration
  dsimp only
  generalize (if c.definition.isSome then source.unit.cursor c.definition else c) = definition
  split
  · exact FailsWith.bind (failsWith_ok rfl) fun _ _ _ => failsWith_ok rfl
  · refine FailsWith.bind (failsWith_ok get_run) fun _ _ hget => ?_
    obtain ⟨rfl, rfl⟩ := Survey.get_eq_ok.1 hget
    split
    · exact failsWith_ok rfl
    · refine FailsWith.bind (failsWith_ok rfl) fun _ v hnote => ?_
      obtain rfl := Survey.modify_eq_ok.1 hnote
      exact failsWith_finish hP hs

include hP hresumes in
theorem typedef_fails (hs : s.table.frozen = false) (h : FailsWith P (below c.underlying byValue) s) :
    FailsWith P (source.typedef below c byValue) s := by
  unfold typedef
  refine FailsWith.bind (failsWith_ok get_run) fun _ _ hget => ?_
  obtain ⟨rfl, rfl⟩ := Survey.get_eq_ok.1 hget
  split
  · exact failsWith_ok rfl
  · refine (convertWith_fails h).bind fun target u htarget => ?_
    obtain ⟨base, hbase, -⟩ := convertWith_eq_ok.1 htarget
    have hu := hresumes _ _ _ _ _ hbase
    exact failsWith_finish hP (hu.frozen.trans hs)

include hP hread hresumes in
/-- **One layer of a conversion fails** as the conversions that it needs, on an alignment, or with a report. -/
theorem baseStep_fails (hs : s.table.frozen = false)
    (hleads : ∀ next w (u : Findings), source.Leads t next → u.started = s.started → u.table.frozen = false →
      FailsWith P (below next w) u)
    (hmembers : ∀ id, (source.unit.cursor id).definition.isSome = true →
      source.recordKey (source.unit.cursor id) ∉ s.started → ∀ field ∈ source.fieldsOf (source.unit.cursor id),
      ∀ u : Findings, u.started = source.recordKey (source.unit.cursor id) :: s.started → u.table.frozen = false →
      FailsWith P (below (source.typeOf field) true) u) : FailsWith P (source.baseStep below t byValue) s := by
  have hconvert : ∀ {next w} {u : Findings}, source.Part t byValue next w →
      (∀ name, (source.unit.type t).kind ≠ .other name) → u.started = s.started → u.table.frozen = false →
      FailsWith P (source.convertWith below next w) u := fun hpart hk hstarted hfrozen =>
    convertWith_fails (hleads _ _ _ (.part hpart fun name hname => absurd hname (hk name)) hstarted hfrozen)
  have hwrap : ∀ {next w} {f : CType → CType}, source.Part t byValue next w →
      (∀ name, (source.unit.type t).kind ≠ .other name) →
      FailsWith P (do return f (← source.convertWith below next w)) s := fun hpart hk =>
    (hconvert hpart hk rfl hs).bind fun _ _ _ => failsWith_ok rfl
  unfold baseStep
  cases hk : (source.unit.type t).kind with
  | void =>
    simp only [hk]
    exact failsWith_ok rfl
  | scalar kind =>
    simp only [hk]
    exact failsWith_ok rfl
  | elaborated =>
    simp only [hk]
    exact hconvert (.passes (.elaborated hk)) (by simp [hk]) rfl hs
  | typedef =>
    simp only [hk]
    split
    · rename_i ho
      exact typedef_fails hP hresumes hs (hleads _ _ _ (.underlying hk ho) rfl hs)
    · rename_i ho
      have ho : (source.originOf? (source.declared t)).isSome = false := by simpa [declared] using ho
      generalize hkind : (source.unit.type (source.unit.canonical t)).kind = canonical
      split
      · exact failsWith_ok rfl
      · rename_i hother
        exact hwrap (.passes (.system hk ho fun kind => hkind ▸ hother kind)) (by simp [hk])
  | pointer =>
    simp only [hk]
    exact hwrap (.pointee hk) (by simp [hk])
  | record =>
    simp only [hk]
    split
    · exact record_fails hP hread hresumes hs (hmembers _)
    · exact recordNamed_fails hP hread hresumes hs (hmembers _)
  | enumeration =>
    simp only [hk]
    refine (enumeration_fails hP hs).bind fun answer _ _ => ?_
    cases answer with
    | some named => exact failsWith_ok rfl
    | none =>
      intro fault h
      cases h
      exact hP _
  | constantArray =>
    simp only [hk]
    exact hwrap (.element (Or.inl hk)) (by simp [hk])
  | incompleteArray =>
    simp only [hk]
    exact hwrap (.element (Or.inr (Or.inl hk))) (by simp [hk])
  | variableArray =>
    simp only [hk]
    exact hwrap (.element (Or.inr (Or.inr hk))) (by simp [hk])
  | functionProto =>
    simp only [hk]
    have hk' : ∀ name, (source.unit.type t).kind ≠ .other name := by simp [hk]
    refine (hconvert (.result (Or.inl hk)) hk' rfl hs).bind fun result u hu => ?_
    have hresult := (chains_resumes.bind (hresumes _ _) fun _ => chains_resumes.pure _) s result u hu
    refine (FailsWith.mapM (I := Findings.Resumes s) hresult (fun a ha v hv => ?_) fun a _ v b w hv hb => ?_).bind
      fun _ _ _ => failsWith_ok rfl
    · exact hconvert (.argument hk ha) hk' hv.started (hv.frozen.trans hs)
    · exact chains_resumes.trans hv ((chains_resumes.bind (hresumes _ _) fun _ => chains_resumes.pure _) v b w hb)
  | functionNoProto =>
    simp only [hk]
    exact hwrap (.result (Or.inr hk)) (by simp [hk])
  | other name =>
    simp only [hk]
    split
    · intro fault h
      cases h
      exact hP _
    · rename_i hne
      have hpart : source.Part t byValue (source.unit.canonical t) byValue := .passes (.other hk)
      exact hleads _ _ _ (.part hpart fun _ _ => hk ▸ hne) rfl hs

end Layer

theorem stable_frozen : Stable fun s t : Findings => t.table.frozen = s.table.frozen where
  refl _ := rfl
  trans hst htu := htu.trans hst
  register _ _ _ _ h := register_frozen h
  start _ _ := rfl
  stop _ _ := rfl
  finish _ _ := rfl
  enumerate _ _ _ _ h := register_frozen h

theorem convertWithin_resumes (limit : Nat) : ∀ t byValue,
    Preserves Findings.Resumes (source.convertWithin limit t byValue) := fun t byValue s type u h =>
  ⟨(convertWithin_grows limit t byValue s type u h).started,
    convertWithin_preserves stable_frozen limit t byValue s type u h⟩

theorem convert_resumes (t : TypeId) : Preserves Findings.Resumes (source.convert t) :=
  chains_resumes.bind (convertWithin_resumes source.limit t true) fun _ => chains_resumes.pure _

theorem visit_resumes (id : CursorId) : Preserves Findings.Resumes (source.visit id) := by
  have hfrozen : Steady fun s t : Findings => t.table.frozen = s.table.frozen :=
    { stable_frozen with beside := fun h => congrArg TypeTable.frozen h.sameTypes.table }
  exact fun s a t h => ⟨(visit_grows id s a t h).started, visit_preserves hfrozen id s a t h⟩

theorem requireDefined_fault {table : TypeTable} {d : Declaration} {part : SignaturePart} {t : CType} {fault : Fault}
    (h : requireDefined table d part t = .error fault) : fault.IsReport := by
  unfold requireDefined at h
  split at h
  · cases h
    exact ⟨_, rfl⟩
  · split at h
    · cases h
    · cases h
      exact ⟨_, rfl⟩
  · cases h

theorem requireDefinedSignature_fault {table : TypeTable} {d : Declaration} {fault : Fault}
    (h : requireDefinedSignature table d = .error fault) : fault.IsReport := by
  unfold requireDefinedSignature at h
  rcases TrapStub.bind_eq_error.1 h with h | ⟨_, -, h⟩
  · exact requireDefined_fault h
  · obtain ⟨p, -, h⟩ := forM_eq_error h
    exact requireDefined_fault h

section Run

variable (hP : ∀ r, P (.report r))
  (hread : ∀ c, ∀ id ∈ source.fieldsOf c, ∀ fault, source.fieldAlignment id = .error fault → P fault)
  (hunrolled : source.Unrolled)

include hP hread hunrolled

/-- **A conversion does not meet its bound**: the types on the way are all different, and each record that
is entered is one more that is started. -/
theorem convertWithin_fails (limit : Nat) : ∀ (t : TypeId) (byValue : Bool) (s : Findings) (way : List TypeId),
    s.table.frozen = false → (∀ p ∈ way, Relation.TransGen source.Leads p t) → source.weight s.started way < limit →
    FailsWith P (source.convertWithin limit t byValue) s := by
  induction limit with
  | zero => intro t byValue s way _ _ hlt; exact absurd hlt (Nat.not_lt_zero _)
  | succ limit ih =>
    intro t byValue s way hs hway hlt
    have hfresh : t ∉ way := fun ht => hunrolled t (hway t ht)
    refine baseStep_fails hP hread (convertWithin_resumes limit) hs (fun next w u hnext hu hopen => ?_)
      fun id hd hn field hfield u hu hopen => ?_
    · refine ih next w u (t :: way) hopen (fun p hp => ?_) ?_
      · rcases List.mem_cons.1 hp with rfl | hp
        · exact .single hnext
        · exact .tail (hway p hp) hnext
      · have hless := source.weight_lead s.started hnext hfresh
        rw [hu]
        omega
    · obtain ⟨i, rfl, hi⟩ := cursor_of_definition hd
      refine ih _ true u [] hopen (fun p hp => absurd hp List.not_mem_nil) ?_
      have hless := source.weight_start way hi hn
      rw [hu]
      omega

theorem base_fails (t : TypeId) (byValue : Bool) (hs : s.table.frozen = false) :
    FailsWith P (source.base t byValue) s :=
  convertWithin_fails hP hread hunrolled source.limit t byValue s [] hs (fun _ hp => absurd hp List.not_mem_nil)
    (source.weight_lt_limit _ _)

theorem convert_fails (t : TypeId) (hs : s.table.frozen = false) : FailsWith P (source.convert t) s :=
  convertWith_fails (base_fails hP hread hunrolled t true hs)

/-! ## Both passes -/

theorem visit_fails (id : CursorId) (hs : s.table.frozen = false) : FailsWith P (source.visit id) s := by
  have hresumes : ∀ t byValue, Preserves Findings.Resumes (source.base t byValue) := convertWithin_resumes source.limit
  have hmembers : ∀ c : Cursor, c.definition.isSome = true → source.recordKey c ∉ s.started →
      ∀ field ∈ source.fieldsOf c, ∀ u : Findings, u.started = source.recordKey c :: s.started →
      u.table.frozen = false → FailsWith P (source.base (source.typeOf field) true) u :=
    fun c _ _ field _ u _ hopen => base_fails hP hread hunrolled _ true hopen
  have hrecord : ∀ c : Cursor, FailsWith P (if c.isDefinition then discard (source.record source.base c)
      else discard (source.recordNamed source.base c)) s := by
    intro c
    split
    · exact (record_fails hP hread hresumes hs (hmembers c)).discard
    · exact (recordNamed_fails hP hread hresumes hs (hmembers c)).discard
  unfold visit
  dsimp only
  cases source.originOf? (source.unit.cursor id) with
  | none => exact failsWith_ok rfl
  | some origin =>
    dsimp only
    cases (source.unit.cursor id).kind with
    | structDecl => exact hrecord _
    | unionDecl => exact hrecord _
    | enumDecl => exact (enumeration_fails hP hs).discard
    | typedefDecl =>
      exact (typedef_fails hP hresumes hs (base_fails hP hread hunrolled _ true hs)).discard
    | functionDecl =>
      dsimp only
      split
      · exact failsWith_ok rfl
      · exact failsWith_ok rfl
    | macroDefinition =>
      dsimp only
      unfold noteMacro
      split
      · exact failsWith_ok rfl
      · exact failsWith_ok rfl
    | enumConstantDecl | packedAttr | alignedAttr | annotateAttr | other => exact failsWith_ok rfl

theorem signature_fails (id : CursorId) (hs : s.table.frozen = false) : FailsWith P (source.signature id) s := by
  have hconvert : ∀ t, Preserves Findings.Resumes (source.convert t) := convert_resumes
  have hparameter : ∀ p : CursorId × Nat, ∀ u : Findings, u.table.frozen = false →
      FailsWith P (source.parameter p.1 p.2) u := fun p u hu =>
    (convert_fails hP hread hunrolled _ hu).bind fun _ _ _ => failsWith_ok rfl
  have hparameters : ∀ p : CursorId × Nat, Preserves Findings.Resumes (source.parameter p.1 p.2) := fun p =>
    chains_resumes.bind (hconvert _) fun _ => chains_resumes.pure _
  unfold signature typesOf
  refine FailsWith.bind (FailsWith.blaming hP ?_) fun types u _ => ?_
  · refine (FailsWith.mapM (I := Findings.Resumes s) (chains_resumes.refl s) (fun p _ u hu =>
      hparameter p u (hu.frozen.trans hs)) fun p _ u b v hu hb => chains_resumes.trans hu (hparameters p u b v hb)).bind
      fun parameters u hu => ?_
    have hu := chains_resumes.mapM (fun p _ => hparameters p) s parameters u hu
    exact (convert_fails hP hread hunrolled _ (hu.frozen.trans hs)).bind fun _ _ _ => failsWith_ok rfl
  · refine FailsWith.bind (failsWith_ok get_run) fun _ _ hget => ?_
    refine FailsWith.bind (fun fault h => ?_) fun _ _ _ => failsWith_ok rfl
    obtain ⟨r, rfl⟩ := requireDefinedSignature_fault (lift_eq_error.1 h)
    exact hP r

/-- **Both passes fail as said.** -/
theorem interface_fails {fault : Fault} (h : source.interface = .error fault) : P fault := by
  have hfault : FailsWith P (do source.visitAll; source.declarations) .empty := by
    refine FailsWith.bind (FailsWith.forM (I := Findings.Resumes .empty) (chains_resumes.refl _)
      (fun id _ s hs => visit_fails hP hread hunrolled id hs.frozen) fun id _ s _ t hs ht =>
      chains_resumes.trans hs (visit_resumes id s _ t ht)) fun _ u hu => ?_
    have hopen : u.table.frozen = false :=
      (chains_resumes.forM _ (fun id _ => visit_resumes id) _ _ u hu).frozen
    intro fault h
    rw [declarations_eq] at h
    rcases TrapStub.bind_eq_error.1 h with h | ⟨r, -, h⟩
    · rcases mapM_declaration_fault h with hmalformed | hsignatures
      · obtain ⟨r, rfl⟩ := hmalformed.isReport
        exact hP r
      · exact FailsWith.mapM (I := Findings.Resumes u) (chains_resumes.refl u)
          (fun id _ s hs => signature_fails hP hread hunrolled id (hs.frozen.trans hopen))
          (fun id _ s _ t hs ht => chains_resumes.trans hs
            (signature_preserves chains_resumes convert_resumes id s _ t ht)) fault hsignatures
    · rcases TrapStub.bind_eq_error.1 h with h | ⟨_, -, h⟩
      · obtain ⟨r, rfl⟩ := (distinctFrom_fault h).isReport
        exact hP r
      · cases h
  unfold Source.interface at h
  rcases TrapStub.bind_eq_error.1 h with h | ⟨r, -, h⟩
  · exact hfault fault h
  · cases h

end Run

end Source

end TrapStub
