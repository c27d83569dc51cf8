import Mathlib.Logic.Relation
import TrapStub.Proofs.Survey.TypeGraph

/-!
# Qualifiers of converted types

A type of the parsed unit may be `const` or `volatile` itself, or by another type that it stands for: the one that
an elaborated type names, or the canonical type of a typedef of the system or of other sugar. Its conversion has one
layer of qualifiers at most, and which ones are in it is known from the way to the type that the layer comes from.

* `Source.Has`: a type has a qualifier, itself or by a type that it stands for.
* `Source.Shown`: the qualifier is in the conversion of the type.
* `Source.At`, `CType.at?`: the pointees, elements, results and parameters inside a type, by the way to them.
* `Source.convertWith_qualifiers`: **at each of these places the conversion has exactly the qualifiers that are shown
  there, in one layer.** None is made up, and none is lost where nothing covers it.
-/

namespace TrapStub

/-- The qualifiers that a conversion keeps. -/
inductive Qualifier where
  | const
  | volatile
  deriving DecidableEq, Repr

/-- The type has the qualifier itself. -/
def ParsedType.has (type : ParsedType) : Qualifier → Bool
  | .const => type.const
  | .volatile => type.volatile

/-- The type has a qualifier itself. -/
def ParsedType.isQualified (type : ParsedType) : Bool := type.const || type.volatile

theorem ParsedType.isQualified_of_has {type : ParsedType} {q : Qualifier} (h : type.has q = true) :
    type.isQualified = true := by
  unfold isQualified
  cases q with
  | const => rw [show type.const = true from h]; rfl
  | volatile => rw [show type.volatile = true from h, Bool.or_true]

/-- The ways from a type to the types that it is made of. -/
inductive Way where
  | pointee
  | element
  | result
  | parameter (index : Nat)
  deriving DecidableEq, Repr

namespace CType

variable {t : CType} {way : Way}

/-- The qualifier is in the outermost layer. -/
def has : CType → Qualifier → Bool
  | qualified _ const _, .const => const
  | qualified _ _ volatile, .volatile => volatile
  | _, _ => false

/-- There are no qualifiers around the type, or one layer of them that is not empty. -/
def OneLayer (t : CType) : Prop :=
  t.unqualified = t ∨ ∃ base const volatile, t = .qualified base const volatile ∧ base.unqualified = base ∧
    (const || volatile) = true

/-- What a type without qualifiers is made of. -/
def part? : CType → Way → Option CType
  | pointer target, .pointee => some target
  | array element _, .element => some element
  | function result _ _, .result => some result
  | function _ parameters _, .parameter index => parameters[index]?
  | _, _ => none

/-- The type at the end of some ways. -/
def at? (t : CType) : List Way → Option CType
  | [] => some t
  | way :: path => (t.unqualified.part? way).bind fun part => part.at? path

theorem unqualified_ne_qualified (t base : CType) (const volatile : Bool) :
    t.unqualified ≠ .qualified base const volatile := by
  induction t using unqualified.induct with
  | case1 inner _ _ ih => exact ih
  | case2 t ht =>
    rw [unqualified]
    · exact fun h => ht _ _ _ h
    · exact ht

theorem has_of_unqualified (h : t.unqualified = t) (q : Qualifier) : t.has q = false := by
  cases t with
  | qualified base const volatile => exact absurd h (unqualified_ne_qualified _ _ _ _)
  | _ => rfl

end CType

namespace Source

variable {source : Source} {below : Conversion} {t next p : TypeId} {byValue : Bool} {s u : Findings}
  {type base : CType} {q : Qualifier} {way : Way} {limit : Nat}

/-! ## Qualifiers of a parsed type -/

/-- The type has the qualifier: itself, or by a type that it stands for. -/
inductive Has (source : Source) (q : Qualifier) : TypeId → Prop
  | own {t : TypeId} (h : (source.unit.type t).has q = true) : Has source q t
  | through {t next : TypeId} (hp : source.Passes t next) (h : Has source q next) : Has source q t

/-- The conversion of a type, but for the type's own qualifiers, is that of another one with that one's: an elaborated
type is converted as the one that it names, and other sugar as its canonical type is behind its qualifiers. -/
inductive Sees (source : Source) : TypeId → TypeId → Prop
  | elaborated {t : TypeId} (hk : (source.unit.type t).kind = .elaborated) :
    Sees source t (source.unit.type t).named
  | other {t next : TypeId} {name : Text} (hk : (source.unit.type t).kind = .other name)
    (h : Sees source (source.unit.canonical t) next) : Sees source t next

/-- The conversion of the type has the qualifier: the type has it itself, or it has none itself and the conversion is
that of another type. -/
inductive Shown (source : Source) (q : Qualifier) : TypeId → Prop
  | own {t : TypeId} (h : (source.unit.type t).has q = true) : Shown source q t
  | through {t next : TypeId} (hb : (source.unit.type t).isQualified = false) (hs : source.Sees t next)
    (h : Shown source q next) : Shown source q t

/-- On the way to the types that a type stands for nothing covers the qualifier: each step that leads to it is that of
an elaborated type without qualifiers, or comes from a type that has the qualifier as well. -/
def Uncovered (source : Source) (q : Qualifier) (t : TypeId) : Prop :=
  ∀ a b, Relation.ReflTransGen source.Passes t a → source.Passes a b → source.Has q b →
    (source.unit.type a).has q = true ∨
      (source.unit.type a).kind = .elaborated ∧ (source.unit.type a).isQualified = false

theorem Sees.has (h : source.Sees t next) (hq : source.Has q next) : source.Has q t := by
  induction h with
  | elaborated hk => exact .through (.elaborated hk) hq
  | other hk _ ih => exact .through (.other hk) (ih hq)

/-- No qualifier is made up. -/
theorem Shown.has (h : source.Shown q t) : source.Has q t := by
  induction h with
  | own h => exact .own h
  | through _ hs _ ih => exact hs.has ih

/-- A type stands for one type at most. -/
theorem Passes.unique {a b : TypeId} (ha : source.Passes t a) (hb : source.Passes t b) : a = b := by
  cases ha with
  | elaborated hk =>
    cases hb with
    | elaborated => rfl
    | system hk' => rw [hk] at hk'; cases hk'
    | other hk' => rw [hk] at hk'; cases hk'
  | system hk =>
    cases hb with
    | elaborated hk' => rw [hk] at hk'; cases hk'
    | system => rfl
    | other => rfl
  | other hk =>
    cases hb with
    | elaborated hk' => rw [hk] at hk'; cases hk'
    | system => rfl
    | other => rfl

/-- **What nothing covers is shown.** -/
theorem Has.shown (h : source.Has q t) (hu : source.Uncovered q t) : source.Shown q t := by
  induction h with
  | own h => exact .own h
  | @through t next hp h ih =>
    rcases hu t next .refl hp h with hown | ⟨hk, hbare⟩
    · exact .own hown
    · obtain rfl := hp.unique (.elaborated hk)
      exact .through hbare (.elaborated hk) (ih fun a b hab => hu a b (.head hp hab))

/-! ## The outermost layer -/

/-- The conversion of a leaf is arithmetic or `void`. -/
theorem leaf_part? (hk : source.IsLeaf t) (h : source.baseStep below t byValue s = .ok (type, u)) :
    type.unqualified = type ∧ ∀ way, type.part? way = none := by
  unfold baseStep at h
  rcases hk with hk | ⟨kind, hk⟩ | ⟨hk, ho, kind, hscalar⟩
  · simp only [hk] at h
    obtain ⟨rfl, -⟩ := Survey.pure_eq_ok.1 h
    exact ⟨rfl, fun _ => rfl⟩
  · simp only [hk] at h
    obtain ⟨rfl, -⟩ := Survey.pure_eq_ok.1 h
    exact ⟨rfl, fun _ => rfl⟩
  · unfold declared at ho
    simp only [hk, ho, hscalar, Bool.false_eq_true, if_false] at h
    obtain ⟨rfl, -⟩ := Survey.pure_eq_ok.1 h
    exact ⟨rfl, fun _ => rfl⟩

/-- The conversion of a typedef of the system, unless it is arithmetic, has no qualifiers. -/
theorem system_unqualified (hk : (source.unit.type t).kind = .typedef)
    (ho : (source.originOf? (source.declared t)).isSome = false)
    (hs : ∀ kind, (source.unit.type (source.unit.canonical t)).kind ≠ .scalar kind)
    (h : source.baseStep below t byValue s = .ok (type, u)) : type.unqualified = type := by
  unfold declared at ho
  unfold baseStep at h
  simp only [hk, ho, Bool.false_eq_true, if_false] at h
  obtain ⟨base, -, rfl⟩ := Survey.bind_pure_eq_ok.1 h
  exact base.unqualified_unqualified

theorem enumeration_named {c : Cursor} (h : source.enumeration c s = .ok (some type, u)) :
    ∃ key, type = .named key := by
  rcases enumeration_cases h with ⟨hnone, -⟩ | ⟨_, key, -, hsome, -⟩
  · cases hnone
  · exact ⟨key, Option.some.inj hsome⟩

/-- Where the outermost layer of a conversion without the type's own qualifiers comes from. -/
theorem baseStep_outermost (h : source.baseStep below t byValue s = .ok (type, u)) :
    ((source.unit.type t).kind = .elaborated ∧
        source.convertWith below (source.unit.type t).named byValue s = .ok (type, u)) ∨
      (∃ name, (source.unit.type t).kind = .other name ∧
        below (source.unit.canonical t) byValue s = .ok (type, u)) ∨
      (∀ next, ¬ source.Sees t next) ∧ type.unqualified = type := by
  cases hk : (source.unit.type t).kind with
  | elaborated =>
    unfold baseStep at h
    simp only [hk] at h
    exact .inl ⟨rfl, h⟩
  | other name =>
    unfold baseStep at h
    simp only [hk] at h
    split at h
    · cases h
    · exact .inr (.inl ⟨name, rfl, h⟩)
  | _ =>
    -- the others put a layer around their parts, or take their name, and a typedef of the system is stripped
    refine .inr (.inr ⟨?_, ?_⟩)
    · intro next hsees
      cases hsees with
      | elaborated hk' => rw [hk] at hk'; cases hk'
      | other hk' => rw [hk] at hk'; cases hk'
    · cases baseStep_cases h with
      | leaf hleaf => exact (leaf_part? hleaf h).1
      | passes hp =>
        cases hp with
        | elaborated hk' => rw [hk] at hk'; cases hk'
        | system hk' ho hs => exact system_unqualified hk' ho hs h
        | other hk' => rw [hk] at hk'; cases hk'
      | array => rfl
      | pointer => rfl
      | function => rfl
      | typedef _ _ h => rw [(typedef_cases h).1]; rfl
      | record _ _ h => rw [(record_cases h).1]; rfl
      | named _ _ h => rw [(recordNamed_cases h).1]; rfl
      | enumeration _ h =>
        obtain ⟨key, rfl⟩ := enumeration_named h
        rfl

theorem has_qualify (parsed : ParsedType) (base : CType) (q : Qualifier) :
    (qualify parsed base).has q = if parsed.isQualified then parsed.has q else base.has q := by
  unfold qualify ParsedType.isQualified
  split
  · cases q <;> rfl
  · rfl

theorem oneLayer_qualify (parsed : ParsedType) (h : base.OneLayer) : (qualify parsed base).OneLayer := by
  unfold qualify
  split
  · rename_i hq
    exact .inr ⟨_, _, _, rfl, base.unqualified_unqualified, hq⟩
  · exact h

/-- The outermost layer of a conversion, the type's own qualifiers apart, is that of the type it sees. -/
def Outermost (source : Source) (t : TypeId) (base : CType) : Prop :=
  base.OneLayer ∧ ∀ q, base.has q = true ↔ ∃ next, source.Sees t next ∧ source.Shown q next

/-- Putting a type's own qualifiers around makes the outermost layer what it should be. -/
theorem Outermost.qualify (h : source.Outermost t base) : (qualify (source.unit.type t) base).OneLayer ∧
    ∀ q, (Source.qualify (source.unit.type t) base).has q = true ↔ source.Shown q t := by
  refine ⟨oneLayer_qualify _ h.1, fun q => ?_⟩
  rw [has_qualify]
  cases hq : (source.unit.type t).isQualified with
  | true =>
    rw [if_pos rfl]
    constructor
    · exact .own
    · rintro (hown | ⟨hb, -, -⟩)
      · exact hown
      · rw [hq] at hb; cases hb
  | false =>
    rw [if_neg Bool.false_ne_true, h.2]
    constructor
    · rintro ⟨next, hs, hnext⟩
      exact .through hq hs hnext
    · rintro (hown | ⟨-, hs, hnext⟩)
      · rw [ParsedType.isQualified_of_has hown] at hq; cases hq
      · exact ⟨_, hs, hnext⟩

/-- **The outermost layer of a conversion**, by induction on the bound: only an elaborated type and other sugar hand
over the layer of another conversion. -/
theorem convertWithin_outermost (h : source.convertWithin limit t byValue s = .ok (type, u)) :
    source.Outermost t type := by
  induction limit generalizing t s u type with
  | zero => cases h
  | succ limit ih =>
    rcases baseStep_outermost h with ⟨hk, h⟩ | ⟨name, hk, h⟩ | ⟨hnone, hplain⟩
    · obtain ⟨base, hbase, rfl⟩ := convertWith_eq_ok.1 h
      obtain ⟨hlayer, hshown⟩ := (ih hbase).qualify
      refine ⟨hlayer, fun q => (hshown q).trans ⟨fun hq => ⟨_, .elaborated hk, hq⟩, ?_⟩⟩
      rintro ⟨next, hs, hq⟩
      cases hs with
      | elaborated => exact hq
      | other hk' => rw [hk] at hk'; cases hk'
    · obtain ⟨hlayer, hshown⟩ := ih h
      refine ⟨hlayer, fun q => (hshown q).trans ?_⟩
      constructor
      · rintro ⟨next, hs, hq⟩
        exact ⟨next, .other hk hs, hq⟩
      · rintro ⟨next, hs, hq⟩
        cases hs with
        | elaborated hk' => rw [hk] at hk'; cases hk'
        | other _ hs => exact ⟨next, hs, hq⟩
    · refine ⟨.inl hplain, fun q => ?_⟩
      rw [CType.has_of_unqualified hplain]
      refine ⟨fun h => absurd h Bool.false_ne_true, ?_⟩
      rintro ⟨next, hs, -⟩
      exact absurd hs (hnone next)

/-! ## The types inside -/

/-- Lists that are related element by element are related at each index. -/
theorem rel_getElem? {α β : Type} {R : α → β → Prop} {l : List α} {r : List β} (h : List.Forall₂ R l r)
    (index : Nat) : Option.Rel R l[index]? r[index]? := by
  induction h generalizing index with
  | nil => exact .none
  | cons hab _ ih =>
    cases index with
    | zero => exact .some hab
    | succ index => exact ih index

/-- The part of a type that a way leads to. -/
def part? (source : Source) (t : TypeId) (way : Way) : Option TypeId :=
  let type := source.unit.type t
  match type.kind, way with
  | .pointer, .pointee => some type.pointee
  | .constantArray, .element | .incompleteArray, .element | .variableArray, .element => some type.element
  | .functionProto, .result | .functionNoProto, .result => some type.result
  | .functionProto, .parameter index => type.arguments[index]?
  | _, _ => none

/-- The part of a type, or of the type that it stands for. -/
inductive HasPart (source : Source) (way : Way) : TypeId → TypeId → Prop
  | own {t next : TypeId} (h : source.part? t way = some next) : HasPart source way t next
  | through {t t' next : TypeId} (hp : source.Passes t t') (h : HasPart source way t' next) :
    HasPart source way t next

/-- The type at the end of some ways. -/
inductive At (source : Source) : TypeId → List Way → TypeId → Prop
  | here (t : TypeId) : At source t [] t
  | step {t next p : TypeId} {way : Way} {path : List Way} (hl : source.HasPart way t next)
    (h : At source next path p) : At source t (way :: path) p

/-- The type is the conversion of another one, within some bound and with some findings. -/
def Converts (source : Source) (t : TypeId) (type : CType) : Prop :=
  ∃ limit byValue s u, source.convertWith (source.convertWithin limit) t byValue s = .ok (type, u)

/-- A conversion is made of the conversions of the parts, and has no other parts. -/
structure Faces (source : Source) (t : TypeId) (type : CType) : Prop where
  converted : ∀ {way next}, source.HasPart way t next → ∃ part, type.unqualified.part? way = some part ∧
    source.Converts next part
  only : ∀ {way part}, type.unqualified.part? way = some part → ∃ next, source.HasPart way t next

/-- A type that stands for another one has no parts itself. -/
theorem Passes.part?_eq_none (hp : source.Passes t next) (way : Way) : source.part? t way = none := by
  unfold part?
  cases hp with
  | elaborated hk => simp only [hk]
  | system hk => simp only [hk]
  | other hk => simp only [hk]

theorem part?_array (hk : source.IsArray t) (way : Way) :
    source.part? t way = if way = .element then some (source.unit.type t).element else none := by
  unfold part?
  rcases hk with hk | hk | hk <;> simp only [hk] <;> cases way <;> rfl

theorem part?_pointer (hk : (source.unit.type t).kind = .pointer) (way : Way) :
    source.part? t way = if way = .pointee then some (source.unit.type t).pointee else none := by
  unfold part?
  simp only [hk]
  cases way <;> rfl

/-- A function without a prototype has a result and no parameters. -/
theorem part?_function
    (hk : (source.unit.type t).kind = .functionProto ∨ (source.unit.type t).kind = .functionNoProto) :
    source.part? t .result = some (source.unit.type t).result ∧ source.part? t .pointee = none ∧
      source.part? t .element = none ∧ ∀ index, source.part? t (.parameter index) =
        (if (source.unit.type t).kind = .functionProto then (source.unit.type t).arguments else [])[index]? := by
  unfold part?
  rcases hk with hk | hk <;> simp [hk]

theorem parts_ne_nil (h : source.part? t way = some next) : source.parts t true ≠ [] := by
  intro hnil
  unfold part? at h
  cases hk : (source.unit.type t).kind <;> simp [parts, hk] at hnil <;> simp [hk] at h

theorem HasPart.parts_ne_nil (h : source.HasPart way t next) : source.parts t true ≠ [] := by
  cases h with
  | own h => exact Source.parts_ne_nil h
  | through hp => exact List.ne_nil_of_mem (show source.Part _ true _ true from .passes hp).mem_parts

/-- A conversion without parts, of a type without parts. -/
theorem Faces.atom (ht : source.parts t true = []) (hn : ∀ way, type.unqualified.part? way = none) :
    source.Faces t type where
  converted h := absurd ht h.parts_ne_nil
  only h := by rw [hn] at h; cases h

/-- A conversion that is made of those of the type's own parts. -/
theorem Faces.of_parts (hpart : source.part? t way = some next) (hplain : type.unqualified = type)
    (hparts : ∀ way, Option.Rel source.Converts (source.part? t way) (type.part? way)) : source.Faces t type where
  converted {way n} hl := by
    cases hl with
    | own h =>
      have hrel := hparts way
      rw [h] at hrel
      rw [hplain]
      generalize type.part? way = part? at hrel
      cases hrel with
      | some hr => exact ⟨_, rfl, hr⟩
    | through hp => rw [hp.part?_eq_none] at hpart; cases hpart
  only {way part} h := by
    have hrel := hparts way
    rw [hplain] at h
    rw [h] at hrel
    generalize hn : source.part? t way = n? at hrel
    cases hrel with
    | some => exact ⟨_, .own hn⟩

theorem Faces.of_passes (hp : source.Passes t next) (h : source.Faces next base)
    (he : type.unqualified = base.unqualified) : source.Faces t type where
  converted hl := by
    rw [he]
    cases hl with
    | own hpart => rw [hp.part?_eq_none] at hpart; cases hpart
    | through hp' hl => exact h.converted (hp.unique hp' ▸ hl)
  only hpart := by
    rw [he] at hpart
    obtain ⟨n, hl⟩ := h.only hpart
    exact ⟨n, .through hp hl⟩

/-- **A conversion is made of the conversions of the parts**, by induction on the bound: a type that stands for another
one has that one's parts. -/
theorem convertWithin_faces (h : source.convertWithin limit t byValue s = .ok (type, u)) : source.Faces t type := by
  induction limit generalizing t byValue s u type with
  | zero => cases h
  | succ limit ih =>
    cases baseStep_cases h with
    | leaf hleaf =>
      obtain ⟨hplain, hnone⟩ := leaf_part? hleaf h
      exact .atom hleaf.parts_eq_nil (by rw [hplain]; exact hnone)
    | passes hp hbelow htype => exact .of_passes hp (ih hbelow) htype
    | array hk h =>
      refine .of_parts (part?_array hk .element) rfl fun way => ?_
      rw [part?_array hk]
      cases way with
      | element => exact .some ⟨limit, byValue, s, u, h⟩
      | _ => exact .none
    | pointer hk h =>
      refine .of_parts (part?_pointer hk .pointee) rfl fun way => ?_
      rw [part?_pointer hk]
      cases way with
      | pointee => exact .some ⟨limit, false, s, u, h⟩
      | _ => exact .none
    | @function _ _ _ _ v _ hk ha hr hp =>
      obtain ⟨hresult, hpointee, helement, hparameter⟩ := part?_function hk
      refine .of_parts hresult rfl fun way => ?_
      cases way with
      | result => rw [hresult]; exact .some ⟨limit, false, s, v, hr⟩
      | pointee => rw [hpointee]; exact .none
      | element => rw [helement]; exact .none
      | parameter index =>
        rw [hparameter, ← ha]
        refine rel_getElem? ((Survey.mapM_answers hp).imp fun a p h => ?_) index
        obtain ⟨s', u', h⟩ := h
        exact ⟨limit, false, s', u', h⟩
    | typedef hk ho h =>
      rw [(typedef_cases h).1]
      exact .atom (by simp [parts, hk, ho]) fun _ => rfl
    | record hk _ h =>
      rw [(record_cases h).1]
      exact .atom (by simp [parts, hk]) fun _ => rfl
    | named hk _ h =>
      rw [(recordNamed_cases h).1]
      exact .atom (by simp [parts, hk]) fun _ => rfl
    | enumeration hk h =>
      obtain ⟨key, rfl⟩ := enumeration_named h
      exact .atom (by simp [parts, hk]) fun _ => rfl

theorem Converts.faces (h : source.Converts t type) : source.Faces t type := by
  obtain ⟨limit, byValue, s, u, h⟩ := h
  obtain ⟨base, hbase, rfl⟩ := convertWith_eq_ok.1 h
  obtain ⟨hconverted, honly⟩ := convertWithin_faces hbase
  constructor
  · intro way next hl
    rw [unqualified_qualify]
    exact hconverted hl
  · intro way part h
    rw [unqualified_qualify] at h
    exact honly h

theorem Converts.outermost (h : source.Converts t type) :
    type.OneLayer ∧ ∀ q, type.has q = true ↔ source.Shown q t := by
  obtain ⟨limit, byValue, s, u, h⟩ := h
  obtain ⟨base, hbase, rfl⟩ := convertWith_eq_ok.1 h
  exact (convertWithin_outermost hbase).qualify

/-- **At each place inside a type stands the conversion of what is there**, and the conversion has no other places. -/
theorem Converts.places (path : List Way) (h : source.Converts t type) :
    (∀ p, source.At t path p → ∃ c, type.at? path = some c ∧ source.Converts p c) ∧
      ∀ c, type.at? path = some c → ∃ p, source.At t path p := by
  induction path generalizing t type with
  | nil =>
    refine ⟨fun p hp => ?_, fun c _ => ⟨t, .here t⟩⟩
    cases hp
    exact ⟨type, rfl, h⟩
  | cons way path ih =>
    constructor
    · intro p hp
      cases hp with
      | step hl hp =>
        obtain ⟨part, hpart, hconverts⟩ := h.faces.converted hl
        obtain ⟨c, hc, hconverts⟩ := (ih hconverts).1 p hp
        refine ⟨c, ?_, hconverts⟩
        rw [CType.at?, hpart]
        exact hc
    · intro c hc
      rw [CType.at?] at hc
      obtain ⟨part, hpart, hc⟩ := Option.bind_eq_some_iff.1 hc
      obtain ⟨next, hl⟩ := h.faces.only hpart
      -- the part there is the one that the conversion has
      obtain ⟨part', hpart', hconverts⟩ := h.faces.converted hl
      obtain rfl := Option.some.inj (hpart'.symm.trans hpart)
      obtain ⟨p, hp⟩ := (ih hconverts).2 c hc
      exact ⟨p, .step hl hp⟩

/-- **The qualifiers of a conversion** that answers, within `Source.limit` or any other bound, at the top and at each
pointee, element, result and parameter below. A conversion has the places of its type. At each of them there is one
layer at most, and a qualifier is in it just if it is shown: then the type there has it, and where nothing covers it
having it is enough. -/
theorem convertWith_qualifiers (h : source.convertWith (source.convertWithin limit) t byValue s = .ok (type, u))
    (path : List Way) :
    ((type.at? path).isSome = true ↔ ∃ p, source.At t path p) ∧
      ∀ p c, source.At t path p → type.at? path = some c → c.OneLayer ∧
        ∀ q, (c.has q = true ↔ source.Shown q p) ∧ (c.has q = true → source.Has q p) ∧
          (source.Uncovered q p → (c.has q = true ↔ source.Has q p)) := by
  have hconverts : source.Converts t type := ⟨limit, byValue, s, u, h⟩
  obtain ⟨hdown, hup⟩ := hconverts.places path
  constructor
  · rw [Option.isSome_iff_exists]
    constructor
    · rintro ⟨c, hc⟩
      exact hup c hc
    · rintro ⟨p, hp⟩
      obtain ⟨c, hc, -⟩ := hdown p hp
      exact ⟨c, hc⟩
  · intro p c hp hc
    obtain ⟨c', hc', hconverts⟩ := hdown p hp
    obtain rfl := Option.some.inj (hc'.symm.trans hc)
    obtain ⟨hlayer, hshown⟩ := hconverts.outermost
    refine ⟨hlayer, fun q => ⟨hshown q, fun hq => ((hshown q).1 hq).has, fun hu => ?_⟩⟩
    exact (hshown q).trans ⟨Shown.has, fun hq => hq.shown hu⟩

end Source

/-! A pointer to a `const` byte, by the name that the system has for bytes. -/

/-- A pointer to a type that stands for another one; the header has no definitions of its own. -/
def pointerSource (target : ParsedType) (rest : List ParsedType) : Source :=
  { staged := ⟨[], [("a.h", [])], []⟩
    unit :=
      { top := [], diagnostics := [], cursors := #[{ spelling := "uint8_t" }]
        types := ({ kind := .pointer, pointee := some 1, size := 4, align := 4 } :: target :: rest).toArray } }

def constByteSource : Source :=
  pointerSource { kind := .elaborated, const := true, named := some 2, spelling := "const uint8_t" }
    [{ kind := .typedef, canonical := some 3, declaration := some 0, spelling := "uint8_t" },
     { kind := .scalar .uchar, spelling := "unsigned char", size := 1, align := 1 }]

theorem constByteSource_const : ∃ type u, constByteSource.convert (some 0) Findings.empty = .ok (type, u) ∧
    type = .pointer (.qualified (.scalar ⟨"uint8_t", 1, false, false⟩) true false) ∧
    constByteSource.Has .const (some 1) ∧ ¬ constByteSource.Shown .volatile (some 1) := by
  have htype : (constByteSource.convert (some 0) Findings.empty).toOption.map (·.1) =
      some (.pointer (.qualified (.scalar ⟨"uint8_t", 1, false, false⟩) true false)) := by decide
  obtain ⟨⟨type, u⟩, h, rfl⟩ := exists_of_toOption_map htype
  have hat : constByteSource.At (some 0) [.pointee] (some 1) := .step (.own rfl) (.here _)
  obtain ⟨-, hplace⟩ := Source.convertWith_qualifiers h [.pointee]
  obtain ⟨-, hqualifiers⟩ := hplace (some 1) _ hat rfl
  refine ⟨_, u, h, rfl, (hqualifiers .const).2.1 rfl, fun hshown => ?_⟩
  exact absurd ((hqualifiers .volatile).1.2 hshown) Bool.false_ne_true

/-- A pointer to `typeof(const int)`, which is `const` by its canonical type only. -/
def typeofSource : Source :=
  pointerSource { kind := .other "Unexposed", canonical := some 2, spelling := "typeof(const int)" }
    [{ kind := .scalar .int, const := true, spelling := "const int", size := 4, align := 4 }]

/-- The conversion of what the pointer leads to is not `const`, and the type there is. -/
theorem typeofSource_bare : ∃ type u c, typeofSource.convert (some 0) Findings.empty = .ok (type, u) ∧
    typeofSource.At (some 0) [.pointee] (some 1) ∧ type.at? [.pointee] = some c ∧
    typeofSource.Has .const (some 1) ∧ c.has .const = false := by
  have htype : (typeofSource.convert (some 0) Findings.empty).toOption.map (·.1) =
      some (.pointer (.scalar ⟨"int", 4, true, false⟩)) := by decide
  obtain ⟨⟨type, u⟩, h, rfl⟩ := exists_of_toOption_map htype
  have hhas : typeofSource.Has .const (some 1) := .through (.other rfl) (.own rfl)
  exact ⟨_, u, _, h, .step (.own rfl) (.here _), rfl, hhas, rfl⟩

end TrapStub
