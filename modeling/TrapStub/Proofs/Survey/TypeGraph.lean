import TrapStub.Proofs.Survey.Steps

/-!
# One layer of a conversion

The conversion of a type is that of another one, or it puts a layer around the conversions of its
parts, or it leads to a definition. Which of these it is depends on the type alone.

* `Source.Passes`, `Source.Part`: the types that one type leads to, and whether they are used by value.
* `Source.baseStep_cases`: what a conversion does in one layer, by the kind of its type.
-/

namespace TrapStub

namespace Source

variable {source : Source} {below : Conversion} {t : TypeId} {byValue : Bool} {s u : Findings} {type : CType}

/-- The key of a struct or union. -/
abbrev recordKey (source : Source) (c : Cursor) : Text := (source.keyOf c (recordKind c).keyword).1

/-- The struct or union has no tag. -/
abbrev isUntagged (source : Source) (c : Cursor) : Bool := (source.keyOf c (recordKind c).keyword).2

/-- The members in the definition of a struct or union. -/
abbrev fieldsOf (source : Source) (c : Cursor) : List CursorId :=
  (source.unit.type (source.unit.cursor c.definition).type).fields

/-- The type of a member. -/
abbrev typeOf (source : Source) (field : CursorId) : TypeId := (source.unit.cursor field).type

/-- The declaration that a type leads to. -/
def declared (source : Source) (t : TypeId) : Cursor := source.unit.cursor (source.unit.type t).declaration

/-- The type is converted as another one, but for qualifiers. -/
inductive Passes (source : Source) (t : TypeId) : TypeId → Prop
  | elaborated (hk : (source.unit.type t).kind = .elaborated) : Passes source t (source.unit.type t).named
  | system (hk : (source.unit.type t).kind = .typedef) (ho : (source.originOf? (source.declared t)).isSome = false)
      (hs : ∀ kind, (source.unit.type (source.unit.canonical t)).kind ≠ .scalar kind) :
      Passes source t (source.unit.canonical t)
  | other {name : Text} (hk : (source.unit.type t).kind = .other name) : Passes source t (source.unit.canonical t)

/-- The type is that of an array. -/
def IsArray (source : Source) (t : TypeId) : Prop :=
  (source.unit.type t).kind = .constantArray ∨ (source.unit.type t).kind = .incompleteArray ∨
    (source.unit.type t).kind = .variableArray

/-- The type is arithmetic or `void`. -/
def IsLeaf (source : Source) (t : TypeId) : Prop :=
  (source.unit.type t).kind = .void ∨ (∃ kind, (source.unit.type t).kind = .scalar kind) ∨
    (source.unit.type t).kind = .typedef ∧ (source.originOf? (source.declared t)).isSome = false ∧
      ∃ kind, (source.unit.type (source.unit.canonical t)).kind = .scalar kind

/-- The type leads to another one, with whether each of them is used by value. -/
inductive Part (source : Source) (t : TypeId) (byValue : Bool) : TypeId → Bool → Prop
  | passes {next : TypeId} (h : source.Passes t next) : Part source t byValue next byValue
  | element (hk : source.IsArray t) : Part source t byValue (source.unit.type t).element byValue
  | pointee (hk : (source.unit.type t).kind = .pointer) : Part source t byValue (source.unit.type t).pointee false
  | result (hk : (source.unit.type t).kind = .functionProto ∨ (source.unit.type t).kind = .functionNoProto) :
      Part source t byValue (source.unit.type t).result false
  | argument {a : TypeId} (hk : (source.unit.type t).kind = .functionProto) (ha : a ∈ (source.unit.type t).arguments) :
      Part source t byValue a false

/-- The types that a type leads to, computed. -/
def parts (source : Source) (t : TypeId) (byValue : Bool) : List (TypeId × Bool) :=
  let type := source.unit.type t
  match type.kind with
  | .elaborated => [(type.named, byValue)]
  | .typedef =>
    if (source.originOf? (source.declared t)).isSome then []
    else match (source.unit.type (source.unit.canonical t)).kind with
      | .scalar _ => []
      | _ => [(source.unit.canonical t, byValue)]
  | .other _ => [(source.unit.canonical t, byValue)]
  | .pointer => [(type.pointee, false)]
  | .constantArray | .incompleteArray | .variableArray => [(type.element, byValue)]
  | .functionProto => (type.result, false) :: type.arguments.map fun a => (a, false)
  | .functionNoProto => [(type.result, false)]
  | .void | .scalar _ | .record | .enumeration => []

theorem Part.mem_parts {next : TypeId} {w : Bool} (h : source.Part t byValue next w) :
    (next, w) ∈ source.parts t byValue := by
  unfold parts
  cases h with
  | passes h =>
    cases h with
    | elaborated hk =>
      simp only [hk]
      exact List.mem_singleton_self _
    | system hk ho hs =>
      simp only [hk, ho, Bool.false_eq_true, if_false]
      exact List.mem_singleton_self _
    | other hk =>
      simp only [hk]
      exact List.mem_singleton_self _
  | element hk => rcases hk with hk | hk | hk <;> simp only [hk] <;> exact List.mem_singleton_self _
  | pointee hk =>
    simp only [hk]
    exact List.mem_singleton_self _
  | result hk => rcases hk with hk | hk <;> simp only [hk] <;> exact List.mem_cons_self
  | argument hk ha =>
    simp only [hk]
    exact List.mem_cons_of_mem _ (List.mem_map.2 ⟨_, ha, rfl⟩)

theorem IsLeaf.parts_eq_nil (h : source.IsLeaf t) : source.parts t byValue = [] := by
  rcases h with hk | ⟨kind, hk⟩ | ⟨hk, ho, kind, hscalar⟩
  · simp [parts, hk]
  · simp [parts, hk]
  · simp [parts, hk, ho, hscalar]

theorem IsLeaf.ne_record (h : source.IsLeaf t) : (source.unit.type t).kind ≠ .record := by
  rcases h with hk | ⟨kind, hk⟩ | ⟨hk, -⟩ <;> rw [hk] <;> nofun

/-- What the conversion of a type does in one layer. -/
inductive BaseStep (source : Source) (below : Conversion) (t : TypeId) (byValue : Bool) (s : Findings) :
    CType → Findings → Prop
  | leaf {type : CType} (hk : source.IsLeaf t) (htype : type.keys = []) : BaseStep source below t byValue s type s
  | passes {next : TypeId} {a type : CType} {u : Findings} (hp : source.Passes t next)
      (h : below next byValue s = .ok (a, u)) (htype : type.unqualified = a.unqualified) :
      BaseStep source below t byValue s type u
  | array {element : CType} {length : Option Int} {u : Findings} (hk : source.IsArray t)
      (h : source.convertWith below (source.unit.type t).element byValue s = .ok (element, u)) :
      BaseStep source below t byValue s (.array element length) u
  | pointer {target : CType} {u : Findings} (hk : (source.unit.type t).kind = .pointer)
      (h : source.convertWith below (source.unit.type t).pointee false s = .ok (target, u)) :
      BaseStep source below t byValue s (.pointer target) u
  | function {result : CType} {arguments : List TypeId} {parameters : List CType} {variadic : Bool} {v u : Findings}
      (hk : (source.unit.type t).kind = .functionProto ∨ (source.unit.type t).kind = .functionNoProto)
      (ha : arguments = if (source.unit.type t).kind = .functionProto then (source.unit.type t).arguments else [])
      (hr : source.convertWith below (source.unit.type t).result false s = .ok (result, v))
      (hp : (arguments.mapM fun a => source.convertWith below a false) v = .ok (parameters, u)) :
      BaseStep source below t byValue s (.function result parameters variadic) u
  | typedef {type : CType} {u : Findings} (hk : (source.unit.type t).kind = .typedef)
      (ho : (source.originOf? (source.declared t)).isSome = true)
      (h : source.typedef below (source.declared t) byValue s = .ok (type, u)) :
      BaseStep source below t byValue s type u
  | record {type : CType} {u : Findings} (hk : (source.unit.type t).kind = .record) (hv : byValue = true)
      (h : source.record below (source.declared t) s = .ok (type, u)) : BaseStep source below t byValue s type u
  | named {type : CType} {u : Findings} (hk : (source.unit.type t).kind = .record) (hv : byValue = false)
      (h : source.recordNamed below (source.declared t) s = .ok (type, u)) : BaseStep source below t byValue s type u
  | enumeration {type : CType} {u : Findings} (hk : (source.unit.type t).kind = .enumeration)
      (h : source.enumeration (source.declared t) s = .ok (some type, u)) : BaseStep source below t byValue s type u

theorem unqualified_qualify (parsed : ParsedType) (base : CType) :
    (qualify parsed base).unqualified = base.unqualified := by
  unfold qualify
  split
  · exact base.unqualified_unqualified
  · rfl

/-- **One layer of a conversion**, by the kind of its type. -/
theorem baseStep_cases (h : source.baseStep below t byValue s = .ok (type, u)) :
    BaseStep source below t byValue s type u := by
  unfold baseStep at h
  cases hk : (source.unit.type t).kind with
  | elaborated =>
    simp only [hk] at h
    obtain ⟨base, hbase, rfl⟩ := convertWith_eq_ok.1 h
    exact .passes (.elaborated hk) hbase (unqualified_qualify _ base)
  | typedef =>
    simp only [hk] at h
    split at h
    · rename_i ho
      exact .typedef hk ho h
    · rename_i ho
      have ho : (source.originOf? (source.declared t)).isSome = false := by simpa [declared] using ho
      generalize hkind : (source.unit.type (source.unit.canonical t)).kind = canonical at h
      split at h
      · rename_i kind
        obtain ⟨rfl, rfl⟩ := Survey.pure_eq_ok.1 h
        exact .leaf (Or.inr (Or.inr ⟨hk, ho, kind, hkind⟩)) rfl
      · rename_i hother
        obtain ⟨a, ha, rfl⟩ := Survey.bind_pure_eq_ok.1 h
        obtain ⟨base, hbase, rfl⟩ := convertWith_eq_ok.1 ha
        refine .passes (.system hk ho fun kind => hkind ▸ hother kind) hbase ?_
        rw [CType.unqualified_unqualified, unqualified_qualify]
  | pointer =>
    simp only [hk] at h
    obtain ⟨a, ha, rfl⟩ := Survey.bind_pure_eq_ok.1 h
    exact .pointer hk ha
  | record =>
    simp only [hk] at h
    split at h
    · rename_i hv
      exact .record hk hv h
    · rename_i hv
      exact .named hk (by simpa using hv) h
  | enumeration =>
    simp only [hk] at h
    obtain ⟨answer, v, henum, h⟩ := Survey.bind_eq_ok.1 h
    cases answer with
    | none => cases h
    | some named =>
      obtain ⟨rfl, rfl⟩ := Survey.pure_eq_ok.1 h
      exact .enumeration hk henum
  | constantArray =>
    simp only [hk] at h
    obtain ⟨a, ha, rfl⟩ := Survey.bind_pure_eq_ok.1 h
    exact .array (Or.inl hk) ha
  | incompleteArray =>
    simp only [hk] at h
    obtain ⟨a, ha, rfl⟩ := Survey.bind_pure_eq_ok.1 h
    exact .array (Or.inr (Or.inl hk)) ha
  | variableArray =>
    simp only [hk] at h
    obtain ⟨a, ha, rfl⟩ := Survey.bind_pure_eq_ok.1 h
    exact .array (Or.inr (Or.inr hk)) ha
  | functionProto =>
    simp only [hk] at h
    obtain ⟨result, v, hr, h⟩ := Survey.bind_eq_ok.1 h
    obtain ⟨parameters, hp, rfl⟩ := Survey.bind_pure_eq_ok.1 h
    exact .function (Or.inl hk) (by rw [hk, if_pos rfl]) hr hp
  | functionNoProto =>
    simp only [hk] at h
    obtain ⟨result, hr, rfl⟩ := Survey.bind_pure_eq_ok.1 h
    have hnone : (([] : List TypeId).mapM fun a => source.convertWith below a false) u = .ok ([], u) := rfl
    exact .function (Or.inr hk) (by rw [hk, if_neg nofun]) hr hnone
  | void =>
    simp only [hk] at h
    obtain ⟨rfl, rfl⟩ := Survey.pure_eq_ok.1 h
    exact .leaf (Or.inl hk) rfl
  | scalar kind =>
    simp only [hk] at h
    obtain ⟨rfl, rfl⟩ := Survey.pure_eq_ok.1 h
    exact .leaf (Or.inr (Or.inl ⟨kind, hk⟩)) rfl
  | other name =>
    simp only [hk] at h
    split at h
    · cases h
    · exact .passes (.other hk) h rfl

end Source

end TrapStub
