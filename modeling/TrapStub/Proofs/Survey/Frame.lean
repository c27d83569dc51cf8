import TrapStub.Proofs.Survey.TypeGraph

/-!
# What a conversion leaves alone

A conversion changes the findings in few ways: it registers definitions, notes what is started,
done and enumerated, and nothing else. So a relation between findings that holds along each of these
changes holds along every conversion that answers.

* `Survey.Preserves`, `Survey.Stable`: a relation along a step, and along those changes.
* `Source.convert_preserves`: **a conversion preserves every stable relation.**
-/

namespace TrapStub

variable {α β : Type} {R : Findings → Findings → Prop}

namespace Survey

/-- Whenever the step answers, the findings before and after it are related. -/
def Preserves (R : Findings → Findings → Prop) (step : Survey α) : Prop :=
  ∀ s a t, step s = .ok (a, t) → R s t

/-- The relation holds along steps in turn if it holds along each of them. -/
structure Chains (R : Findings → Findings → Prop) : Prop where
  refl : ∀ s, R s s
  trans : ∀ {s t u}, R s t → R t u → R s u

/-- The relation holds along every change that a conversion makes. -/
structure Stable (R : Findings → Findings → Prop) : Prop extends Chains R where
  register : ∀ s definition table stored, s.table.register definition = .ok (table, stored) →
    R s { s with table }
  start : ∀ s key, R s { s with started := key :: s.started }
  stop : ∀ s key, R s { s with started := s.started.filter (· != key) }
  finish : ∀ s key, R s { s with done := key :: s.done }
  enumerate : ∀ s (e : Enumeration) table stored, s.table.register (.enumeration e) = .ok (table, stored) →
    R s { s with enumerators := s.enumerators ++ e.variants.map (·.1), table }

namespace Chains

variable {x : Survey α} {f : α → Survey β}

theorem pure (hR : Chains R) (a : α) : Preserves R (Pure.pure a : Survey α) := by
  intro s b t h
  obtain ⟨rfl, rfl⟩ := Survey.pure_eq_ok.1 h
  exact hR.refl s

theorem bind (hR : Chains R) (hx : Preserves R x) (hf : ∀ a, Preserves R (f a)) : Preserves R (x >>= f) := by
  intro s b u h
  obtain ⟨a, t, ha, hb⟩ := Survey.bind_eq_ok.1 h
  exact hR.trans (hx s a t ha) (hf a t b u hb)

theorem lift (hR : Chains R) (answer : Except Fault α) : Preserves R (liftM answer : Survey α) := by
  intro s b t h
  obtain ⟨-, rfl⟩ := Survey.lift_eq_ok.1 h
  exact hR.refl s

/-- A list of steps preserves what each of them does. -/
theorem mapM (hR : Chains R) : ∀ {l : List α}, (∀ a ∈ l, Preserves R (f a)) → Preserves R (l.mapM f)
  | [], _ => by rw [List.mapM_nil]; exact hR.pure []
  | a :: l, h => by
    rw [List.mapM_cons]
    refine hR.bind (h a List.mem_cons_self) fun b => ?_
    exact hR.bind (hR.mapM fun c hc => h c (List.mem_cons_of_mem a hc)) fun _ => hR.pure _

end Chains

end Survey

namespace Source

open Survey

variable {source : Source} {below : Conversion}

section Layer

variable (hR : Stable R) (hb : ∀ t byValue, Preserves R (below t byValue))

include hR hb

theorem convertWith_preserves (t : TypeId) (byValue : Bool) :
    Preserves R (source.convertWith below t byValue) :=
  hR.bind (hb t byValue) fun _ => hR.pure _

theorem member_preserves (c : Cursor) : Preserves R (source.member below c) := by
  unfold member
  refine hR.bind (hR.lift _) fun explicit => ?_
  exact hR.bind (convertWith_preserves hR hb _ _) fun type => hR.pure _

theorem record_preserves (c : Cursor) : Preserves R (source.record below c) := by
  intro s type t h
  cases (record_cases h).2 with
  | known => exact hR.refl s
  | present => exact hR.refl s
  | named hn hd hc hr => exact hR.register s _ _ _ hr
  | @defined members u table stored hn hd hm hr =>
    have hmembers := hR.mapM (fun field _ => member_preserves hR hb _) _ members u hm
    -- the key is no longer started, then the record enters the table, then the key is done
    have hstop := hR.stop u (source.keyOf c (recordKind c).keyword).1
    have hreg := hR.trans hstop (hR.register _ _ _ _ hr)
    refine hR.trans (hR.start s _) (hR.trans hmembers (hR.trans hreg ?_))
    exact hR.finish _ (source.keyOf c (recordKind c).keyword).1

theorem recordNamed_preserves (c : Cursor) : Preserves R (source.recordNamed below c) := by
  intro s type t h
  cases (recordNamed_cases h).2 with
  | anonymous _ h => exact record_preserves hR hb c s _ t h
  | present => exact hR.refl s
  | named _ hr => exact hR.register s _ _ _ hr

theorem typedef_preserves (c : Cursor) (byValue : Bool) : Preserves R (source.typedef below c byValue) := by
  intro s type t h
  rcases (typedef_cases h).2 with ⟨-, rfl⟩ | ⟨-, target, u, table, stored, htarget, hr, rfl⟩
  · exact hR.refl s
  · refine hR.trans (convertWith_preserves hR hb _ _ s target u htarget) ?_
    exact hR.trans (hR.register u _ _ _ hr) (hR.finish _ _)

omit hb in
/-- An enum that is a type preserves the relation; one of trap numbers is none. -/
theorem enumeration_preserves {c : Cursor} {s t : Findings} {type : CType}
    (h : source.enumeration c s = .ok (some type, t)) : R s t := by
  rcases enumeration_cases h with ⟨h, -⟩ |
    ⟨-, key, -, -, ⟨-, rfl⟩ | ⟨-, e, table, stored, -, hr, rfl⟩⟩
  · cases h
  · exact hR.refl s
  · exact hR.trans (hR.enumerate s e table stored hr) (hR.finish _ key)

theorem baseStep_preserves (t : TypeId) (byValue : Bool) : Preserves R (source.baseStep below t byValue) := by
  have hconvert : ∀ t byValue, Preserves R (source.convertWith below t byValue) := convertWith_preserves hR hb
  intro s type u h
  cases baseStep_cases h with
  | leaf => exact hR.refl s
  | passes _ h => exact hb _ _ s _ u h
  | array _ h => exact hconvert _ _ s _ u h
  | pointer _ h => exact hconvert _ _ s _ u h
  | function _ _ hr hp =>
    exact hR.trans (hconvert _ _ s _ _ hr) (hR.mapM (fun _ _ => hconvert _ _) _ _ u hp)
  | typedef _ _ h => exact typedef_preserves hR hb _ _ s type u h
  | record _ _ h => exact record_preserves hR hb _ s type u h
  | named _ _ h => exact recordNamed_preserves hR hb _ s type u h
  | enumeration _ h => exact enumeration_preserves hR h

end Layer

/-- **A conversion preserves every stable relation**, however many types are inside each other. -/
theorem convertWithin_preserves (hR : Stable R) (limit : Nat) :
    ∀ t byValue, Preserves R (source.convertWithin limit t byValue) := by
  induction limit with
  | zero => intro t byValue s type u h; cases h
  | succ limit ih => exact baseStep_preserves hR ih

theorem convert_preserves (hR : Stable R) (t : TypeId) : Preserves R (source.convert t) :=
  convertWith_preserves hR (convertWithin_preserves hR source.limit) t true

end Source

end TrapStub
