import Mathlib.Data.List.Forall2
import TrapStub.Plan.Allocate

/-!
# Steps that may fail

A step of the program answers or fails. These lemmas take an answer apart into the answers of its
parts, so that no later proof opens the monad.

* `bind_eq_ok`, `map_eq_ok`: two steps in turn.
* `mapM_eq_ok`, `mapM_ok`, `mapM_eq_some`, `forM_eq_ok`, `forM_eq_error`: one step for each element of a list.
* `orRefuse_eq_ok`, `orMalformed_eq_ok`: a failure that is reported for a declaration.
-/

namespace TrapStub

variable {ε α β : Type}

theorem ok_bind {a : α} {f : α → Except ε β} : (Except.ok a >>= f) = f a := rfl

theorem bind_eq_ok {x : Except ε α} {f : α → Except ε β} {b : β} :
    (x >>= f) = .ok b ↔ ∃ a, x = .ok a ∧ f a = .ok b := by
  cases x with
  | error e => simp [bind, Except.bind]
  | ok a => simp [bind, Except.bind]

theorem bind_eq_error {x : Except ε α} {f : α → Except ε β} {e : ε} :
    (x >>= f) = .error e ↔ x = .error e ∨ ∃ a, x = .ok a ∧ f a = .error e := by
  cases x with
  | error e => simp [bind, Except.bind]
  | ok a => simp [bind, Except.bind]

theorem map_eq_ok {x : Except ε α} {f : α → β} {b : β} :
    (f <$> x) = .ok b ↔ ∃ a, x = .ok a ∧ f a = b := by
  cases x with
  | error e => simp [Functor.map, Except.map]
  | ok a => simp [Functor.map, Except.map]

theorem map_eq_error {x : Except ε α} {f : α → β} {e : ε} : (f <$> x) = .error e ↔ x = .error e := by
  cases x with
  | error e => simp [Functor.map, Except.map]
  | ok a => simp [Functor.map, Except.map]

theorem toOption_eq_some {x : Except ε α} {a : α} : x.toOption = some a ↔ x = .ok a := by
  cases x <;> simp [Except.toOption]

/-- What a step fails on. -/
def fault? : Except ε α → Option ε
  | .ok _ => none
  | .error fault => some fault

theorem fault?_eq_some {x : Except ε α} {fault : ε} : fault? x = some fault ↔ x = .error fault := by
  cases x <;> simp [fault?]

/-- What a step answers can be looked at without its failures. -/
theorem exists_of_toOption_map {x : Except ε α} {f : α → β} {b : β} (h : x.toOption.map f = some b) :
    ∃ a, x = .ok a ∧ f a = b := by
  obtain ⟨a, ha, hb⟩ := Option.map_eq_some_iff.1 h
  exact ⟨a, toOption_eq_some.1 ha, hb⟩

theorem exists_of_isSome {x : Except ε α} (h : x.toOption.isSome = true) : ∃ a, x = .ok a := by
  obtain ⟨a, ha⟩ := Option.isSome_iff_exists.1 h
  exact ⟨a, toOption_eq_some.1 ha⟩

theorem pure_eq_ok {a b : α} : (pure a : Except ε α) = .ok b ↔ a = b := by
  simp [pure, Except.pure]

/-- A list of steps answers when each of them does. -/
theorem mapM_eq_ok {f : α → Except ε β} {l : List α} {r : List β} :
    l.mapM f = .ok r ↔ List.Forall₂ (fun a b => f a = .ok b) l r := by
  induction l generalizing r with
  | nil => simp [pure, Except.pure, eq_comm]
  | cons a l ih =>
    rw [List.mapM_cons, bind_eq_ok, List.forall₂_cons_left_iff]
    constructor
    · rintro ⟨b, hb, h⟩
      obtain ⟨r', hr', h⟩ := bind_eq_ok.1 h
      exact ⟨b, r', hb, ih.1 hr', (pure_eq_ok.1 h).symm⟩
    · rintro ⟨b, r', hb, hr', rfl⟩
      exact ⟨b, hb, bind_eq_ok.2 ⟨r', ih.2 hr', rfl⟩⟩

theorem mapM_eq_some {f : α → Option β} {l : List α} {r : List β} :
    l.mapM f = some r ↔ List.Forall₂ (fun a b => f a = some b) l r := by
  induction l generalizing r with
  | nil => simp [eq_comm]
  | cons a l ih =>
    rw [List.mapM_cons, Option.bind_eq_bind, Option.bind_eq_some_iff, List.forall₂_cons_left_iff]
    constructor
    · rintro ⟨b, hb, h⟩
      obtain ⟨r', hr', h⟩ := Option.bind_eq_some_iff.1 h
      exact ⟨b, r', hb, ih.1 hr', (Option.some.inj h).symm⟩
    · rintro ⟨b, r', hb, hr', rfl⟩
      exact ⟨b, hb, Option.bind_eq_some_iff.2 ⟨r', ih.2 hr', rfl⟩⟩

theorem forall₂_exists_of_mem_right {R : α → β → Prop} {l : List α} {r : List β} (h : List.Forall₂ R l r)
    {b : β} (hb : b ∈ r) : ∃ a ∈ l, R a b := by
  induction h with
  | nil => cases hb
  | @cons a c l r hac _ ih =>
    rcases List.mem_cons.1 hb with rfl | hb
    · exact ⟨a, List.mem_cons_self, hac⟩
    · obtain ⟨x, hx, hxb⟩ := ih hb
      exact ⟨x, List.mem_cons_of_mem a hx, hxb⟩

theorem forall₂_exists_of_mem_left {R : α → β → Prop} {l : List α} {r : List β} (h : List.Forall₂ R l r)
    {a : α} (ha : a ∈ l) : ∃ b ∈ r, R a b :=
  forall₂_exists_of_mem_right h.flip ha

theorem forall₂_imp_of_mem {R S : α → β → Prop} {l : List α} {r : List β} (h : List.Forall₂ R l r)
    (himp : ∀ a ∈ l, ∀ b ∈ r, R a b → S a b) : List.Forall₂ S l r := by
  induction h with
  | nil => exact .nil
  | cons hab _ ih =>
    refine .cons (himp _ List.mem_cons_self _ List.mem_cons_self hab) (ih fun a ha b hb => ?_)
    exact himp a (List.mem_cons_of_mem _ ha) b (List.mem_cons_of_mem _ hb)

theorem map_eq_map_of_forall₂ {γ : Type} {f : α → γ} {g : β → γ} {l : List α} {r : List β}
    (h : List.Forall₂ (fun a b => f a = g b) l r) : l.map f = r.map g := by
  induction h with
  | nil => rfl
  | cons hab _ ih => rw [List.map_cons, List.map_cons, hab, ih]

/-- Of related lists, the elements that pass a test are related to some of the others, in order. -/
theorem forall₂_filter {R S : α → β → Prop} {p : β → Bool} {l : List α} {r : List β} (h : List.Forall₂ R l r)
    (hS : ∀ a b, R a b → p b = true → S a b) : ∃ l', l'.Sublist l ∧ List.Forall₂ S l' (r.filter p) := by
  induction h with
  | nil => exact ⟨[], .slnil, .nil⟩
  | @cons a b l r hab _ ih =>
    obtain ⟨l', hsub, hall⟩ := ih
    by_cases hb : p b = true
    · rw [List.filter_cons_of_pos hb]
      exact ⟨a :: l', hsub.cons_cons a, .cons (hS a b hab hb) hall⟩
    · rw [List.filter_cons_of_neg hb]
      exact ⟨l', hsub.cons a, hall⟩

/-- A list in between carries two relations. -/
theorem forall₂_through {γ : Type} {R : α → β → Prop} {S : β → γ → Prop} {l : List α} {r : List γ} :
    List.Forall₂ (fun a c => ∃ b, R a b ∧ S b c) l r ↔ ∃ m, List.Forall₂ R l m ∧ List.Forall₂ S m r := by
  constructor
  · intro h
    induction h with
    | nil => exact ⟨[], .nil, .nil⟩
    | cons hac _ ih =>
      obtain ⟨b, hab, hbc⟩ := hac
      obtain ⟨m, hl, hr⟩ := ih
      exact ⟨b :: m, .cons hab hl, .cons hbc hr⟩
  · rintro ⟨m, hl, hr⟩
    induction hl generalizing r with
    | nil => cases hr; exact .nil
    | cons hab _ ih =>
      cases hr with
      | cons hbc hrest => exact .cons ⟨_, hab, hbc⟩ (ih hrest)

theorem mapM_ok {f : α → Except ε β} {l : List α} (h : ∀ a ∈ l, ∃ b, f a = .ok b) :
    ∃ r, l.mapM f = .ok r := by
  induction l with
  | nil => exact ⟨[], rfl⟩
  | cons a l ih =>
    obtain ⟨b, hb⟩ := h a List.mem_cons_self
    obtain ⟨r, hr⟩ := ih fun x hx => h x (List.mem_cons_of_mem a hx)
    exact ⟨b :: r, by rw [List.mapM_cons, hb, hr]; rfl⟩

/-- Checks in turn pass when each of them does. -/
theorem forM_eq_ok {f : α → Except ε Unit} {l : List α} : l.forM f = .ok () ↔ ∀ a ∈ l, f a = .ok () := by
  induction l with
  | nil => exact ⟨fun _ => List.forall_mem_nil _, fun _ => rfl⟩
  | cons a l ih =>
    rw [List.forM_eq_forM, List.forM_cons, ← List.forM_eq_forM, bind_eq_ok, List.forall_mem_cons, ← ih]
    exact ⟨fun ⟨_, ha, hl⟩ => ⟨ha, hl⟩, fun ⟨ha, hl⟩ => ⟨(), ha, hl⟩⟩

/-- Checks in turn fail as one of them does. -/
theorem forM_eq_error {f : α → Except ε Unit} {l : List α} {e : ε} (h : l.forM f = .error e) :
    ∃ a ∈ l, f a = .error e := by
  induction l with
  | nil => cases h
  | cons a l ih =>
    rcases bind_eq_error.1 h with h | ⟨_, -, h⟩
    · exact ⟨a, List.mem_cons_self, h⟩
    · obtain ⟨b, hb, hfault⟩ := ih h
      exact ⟨b, List.mem_cons_of_mem a hb, hfault⟩

namespace Plan

theorem orRefuse_eq_ok {d : Declaration} {x : Except Unsupported α} {a : α} :
    orRefuse d x = .ok a ↔ x = .ok a := by
  cases x <;> simp [orRefuse]

theorem orMalformed_eq_ok {x : Except Malformed α} {a : α} : orMalformed x = .ok a ↔ x = .ok a := by
  cases x <;> simp [orMalformed]

end Plan

end TrapStub
