import TrapStub.Proofs.Survey.TypeGraph

/-!
# What a conversion answers

The findings decide what a conversion registers, and whether it fails, but not what it answers with: two
conversions of one type that answer, each after whatever findings and whether or not the type is used
by value, answer the same.

* `Survey.Agree`: two steps that answer the same, with its rules.
* `Source.record_answers`, `Source.enumeration_answers`, `Source.typedef_answers`: a definition answers with its key.
* `Source.convertWith_agree`: **the answer of a conversion does not depend on what was found before.**
-/

namespace TrapStub

variable {α β : Type}

namespace Survey

/-- Whenever both steps answer, after whatever findings each, they answer the same. -/
def Agree (x y : Survey α) : Prop := ∀ s t s' t' a a', x s = .ok (a, t) → y s' = .ok (a', t') → a = a'

/-- The step answers nothing but the given. -/
def Answers (x : Survey α) (a : α) : Prop := ∀ s b t, x s = .ok (b, t) → b = a

theorem answers_pure (a : α) : Answers (pure a) a := fun _ _ _ h => (pure_eq_ok.1 h).1.symm

theorem Answers.after {x : Survey α} {f : α → Survey β} {b : β} (h : ∀ a, Answers (f a) b) :
    Answers (x >>= f) b := by
  intro s b' t hrun
  obtain ⟨a, u, -, hf⟩ := bind_eq_ok.1 hrun
  exact h a u b' t hf

theorem Answers.agree {x y : Survey α} {a : α} (hx : Answers x a) (hy : Answers y a) : Agree x y :=
  fun s t s' t' b b' h h' => (hx s b t h).trans (hy s' b' t' h').symm

theorem agree_pure (a : α) : Agree (pure a) (pure a) := by
  intro s t s' t' b b' h h'
  obtain ⟨rfl, -⟩ := pure_eq_ok.1 h
  exact (pure_eq_ok.1 h').1

/-- A step that fails answers nothing. -/
theorem agree_throw (fault : Fault) (y : Survey α) : Agree (throw fault) y ∧ Agree y (throw fault) := by
  constructor
  · intro s t s' t' a a' h _
    cases h
  · intro s t s' t' a a' _ h
    cases h

/-- What follows on answers that are the same. -/
theorem Agree.bind {x y : Survey α} {f g : α → Survey β} (hxy : Agree x y) (hfg : ∀ a, Agree (f a) (g a)) :
    Agree (x >>= f) (y >>= g) := by
  intro s t s' t' b b' h h'
  obtain ⟨a, u, hx, hf⟩ := bind_eq_ok.1 h
  obtain ⟨a', u', hy, hg⟩ := bind_eq_ok.1 h'
  obtain rfl := hxy s u s' u' a a' hx hy
  exact hfg a u t u' t' b b' hf hg

theorem Agree.mapM {f g : α → Survey β} {l : List α} (h : ∀ a ∈ l, Agree (f a) (g a)) :
    Agree (l.mapM f) (l.mapM g) := by
  induction l with
  | nil => exact agree_pure []
  | cons a l ih =>
    rw [List.mapM_cons, List.mapM_cons]
    refine (h a List.mem_cons_self).bind fun b => ?_
    exact (ih fun c hc => h c (List.mem_cons_of_mem a hc)).bind fun bs => agree_pure (b :: bs)

end Survey

namespace Source

open Survey

variable {source : Source} {below below' : Conversion} {c : Cursor}

theorem record_answers (c : Cursor) : Answers (source.record below c) (.named (source.recordKey c)) :=
  fun _ _ _ h => (record_cases h).1

theorem recordNamed_answers (c : Cursor) : Answers (source.recordNamed below c) (.named (source.recordKey c)) :=
  fun _ _ _ h => (recordNamed_cases h).1

theorem typedef_answers (c : Cursor) (byValue : Bool) :
    Answers (source.typedef below c byValue) (.named c.spelling) :=
  fun _ _ _ h => (typedef_cases h).1

/-- Whether an enum holds trap numbers, and else its key, is a matter of its cursor. -/
theorem enumeration_answers (c : Cursor) : ∃ answer, Answers (source.enumeration c) answer := by
  unfold enumeration
  dsimp only
  generalize (if c.definition.isSome then source.unit.cursor c.definition else c) = definition
  split
  · exact ⟨none, .after fun _ => answers_pure none⟩
  · refine ⟨some (.named (source.keyOf definition "enum").1), .after fun s => ?_⟩
    split
    · exact answers_pure _
    · exact .after fun _ => .after fun _ => .after fun _ => answers_pure _

theorem enumeration_agree (c : Cursor) : Agree (source.enumeration c) (source.enumeration c) := by
  obtain ⟨answer, h⟩ := source.enumeration_answers c
  exact h.agree h

section Layer

variable (hb : ∀ t v w, Agree (below t v) (below' t w))

include hb

theorem convertWith_agree_of (t : TypeId) (v w : Bool) :
    Agree (source.convertWith below t v) (source.convertWith below' t w) :=
  (hb t v w).bind fun _ => agree_pure _

/-- **One layer of a conversion answers the same** if the conversions below it do. -/
theorem baseStep_agree (t : TypeId) (v w : Bool) : Agree (source.baseStep below t v) (source.baseStep below' t w) := by
  have hconvert : ∀ t v w, Agree (source.convertWith below t v) (source.convertWith below' t w) :=
    convertWith_agree_of hb
  unfold baseStep
  cases hk : (source.unit.type t).kind with
  | void => simp only [hk]; exact agree_pure _
  | scalar kind => simp only [hk]; exact agree_pure _
  | elaborated => simp only [hk]; exact hconvert _ v w
  | typedef =>
    simp only [hk]
    split
    · exact (typedef_answers _ v).agree (typedef_answers _ w)
    · split
      · exact agree_pure _
      · exact (hconvert _ v w).bind fun _ => agree_pure _
  | pointer => simp only [hk]; exact (hconvert _ false false).bind fun _ => agree_pure _
  | record =>
    simp only [hk]
    cases v <;> cases w
    · exact (recordNamed_answers _).agree (recordNamed_answers _)
    · exact (recordNamed_answers _).agree (record_answers _)
    · exact (record_answers _).agree (recordNamed_answers _)
    · exact (record_answers _).agree (record_answers _)
  | enumeration =>
    simp only [hk]
    refine (source.enumeration_agree _).bind fun answer => ?_
    cases answer with
    | some named => exact agree_pure named
    | none => exact (agree_throw _ _).1
  | constantArray | incompleteArray | variableArray =>
    simp only [hk]
    exact (hconvert _ v w).bind fun _ => agree_pure _
  | functionProto =>
    simp only [hk]
    refine (hconvert _ false false).bind fun result => ?_
    exact (Agree.mapM fun a _ => hconvert a false false).bind fun _ => agree_pure _
  | functionNoProto => simp only [hk]; exact (hconvert _ false false).bind fun _ => agree_pure _
  | other name =>
    simp only [hk]
    split
    · exact (agree_throw _ _).1
    · exact hb _ v w

end Layer

/-- Conversions answer the same, however many types each of them allows inside each other. -/
theorem convertWithin_agree (limit limit' : Nat) (t : TypeId) (v w : Bool) :
    Agree (source.convertWithin limit t v) (source.convertWithin limit' t w) := by
  induction limit generalizing limit' t v w with
  | zero => exact (agree_throw _ _).1
  | succ limit ih =>
    cases limit' with
    | zero => exact (agree_throw _ _).2
    | succ limit' => exact baseStep_agree (fun t v w => ih limit' t v w) t v w

/-- **The answer of a conversion does not depend on what was found before**, nor on how its type is used. -/
theorem convertWith_agree (limit limit' : Nat) (t : TypeId) (v w : Bool) :
    Agree (source.convertWith (source.convertWithin limit) t v)
      (source.convertWith (source.convertWithin limit') t w) :=
  convertWith_agree_of (convertWithin_agree limit limit') t v w

end Source

end TrapStub
