import Mathlib.Data.List.Basic
import TrapStub.Text

/-!
# Parentheses and lists in a text

A text whose parentheses match can be taken apart from its end: the last closing parenthesis tells
which one opens its group, and a comma outside of all groups tells where an item of a list ends.

* `Text.Nested`: the parentheses of a text match. `Text.group_unique`: a group at the end is unique.
* `Text.Item`: no comma stands outside of the parentheses. `Text.join_items`: **a list of items is
  read off their joined text.**
-/

namespace TrapStub.Text

/-- How many parentheses a text opens. -/
def opened (t : Text) : Nat := t.count (.char '(')

/-- How many parentheses a text closes. -/
def closed (t : Text) : Nat := t.count (.char ')')

/-- Every parenthesis of the text has its partner in it. -/
structure Nested (t : Text) : Prop where
  even : opened t = closed t
  heads : ∀ a b, t = a ++ b → closed a ≤ opened a

/-- The parentheses of the text match, and every comma stands inside of some. -/
structure Item (t : Text) : Prop extends Nested t where
  commas : ∀ a b, t = a ++ .char ',' :: b → closed a < opened a

variable {a b a' b' t u : Text}

theorem opened_append : opened (t ++ u) = opened t + opened u := List.count_append

theorem closed_append : closed (t ++ u) = closed t + closed u := List.count_append

theorem opened_opening : opened (.char '(' :: t) = opened t + 1 := List.count_cons_self

theorem closed_opening : closed (.char '(' :: t) = closed t := List.count_cons_of_ne (by decide)

theorem Nested.append (ht : Nested t) (hu : Nested u) : Nested (t ++ u) := by
  refine ⟨by rw [opened_append, closed_append, ht.even, hu.even], fun a b hab => ?_⟩
  rcases List.append_eq_append_iff.1 hab with ⟨c, rfl, hc⟩ | ⟨c, hc, -⟩
  · have := hu.heads c b hc
    have := ht.even
    rw [opened_append, closed_append]
    omega
  · exact ht.heads a c hc

/-- A part of a group from its start opens at least one parenthesis more than it closes, up to the end. -/
theorem Nested.group_heads (ht : Nested t) {g : Glyph} (h : .char '(' :: (t ++ [.char ')']) = g :: a ++ b)
    (hb : b ≠ []) : closed (g :: a) < opened (g :: a) := by
  obtain ⟨rfl, hrest⟩ := List.cons.inj h
  have hinside : closed a ≤ opened a := by
    rcases List.append_eq_append_iff.1 hrest with ⟨c, rfl, hc⟩ | ⟨c, hc, -⟩
    · cases c with
      | nil =>
        rw [List.append_nil]
        exact Nat.le_of_eq ht.even.symm
      | cons g c =>
        have hlen := congrArg List.length hc
        have := List.length_pos_iff.2 hb
        simp only [List.length_cons, List.length_nil, List.length_append] at hlen
        omega
    · exact ht.heads a c hc
  rw [opened_opening, closed_opening]
  exact Nat.lt_succ_of_le hinside

theorem Nested.group (ht : Nested t) : Nested (.char '(' :: (t ++ [.char ')'])) := by
  have heven : opened (.char '(' :: (t ++ [.char ')'])) = closed (.char '(' :: (t ++ [.char ')'])) := by
    rw [opened_opening, closed_opening, opened_append, closed_append, ht.even]
    rfl
  refine ⟨heven, fun a b hab => ?_⟩
  cases b with
  | nil =>
    rw [List.append_nil] at hab
    exact hab ▸ Nat.le_of_eq heven.symm
  | cons g b =>
    cases a with
    | nil => exact Nat.zero_le _
    | cons g' a => exact Nat.le_of_lt (ht.group_heads hab (List.cons_ne_nil _ _))

/-- A text without parentheses and commas. -/
theorem item_of_plain (h : ∀ g ∈ t, g ≠ .char '(' ∧ g ≠ .char ')' ∧ g ≠ .char ',') : Item t := by
  have hopened : ∀ s : Text, s ⊆ t → opened s = 0 := fun s hs =>
    List.count_eq_zero.2 fun hmem => (h _ (hs hmem)).1 rfl
  have hclosed : ∀ s : Text, s ⊆ t → closed s = 0 := fun s hs =>
    List.count_eq_zero.2 fun hmem => (h _ (hs hmem)).2.1 rfl
  refine ⟨⟨?_, fun a b hab => ?_⟩, fun a b hab => ?_⟩
  · rw [hopened t (List.Subset.refl t), hclosed t (List.Subset.refl t)]
  · rw [hclosed a (hab ▸ List.subset_append_left a b)]
    exact Nat.zero_le _
  · have hmem : Glyph.char ',' ∈ t := hab ▸ List.mem_append_right a List.mem_cons_self
    exact absurd rfl (h _ hmem).2.2

theorem Item.append (ht : Item t) (hu : Item u) : Item (t ++ u) := by
  refine ⟨ht.toNested.append hu.toNested, fun a b hab => ?_⟩
  rcases List.append_eq_append_iff.1 hab with ⟨c, rfl, hc⟩ | ⟨c, rfl, hc⟩
  · have := hu.commas c b hc
    have := ht.even
    rw [opened_append, closed_append]
    omega
  · cases c with
    | nil => exact absurd (hu.commas [] b hc.symm) (by decide)
    | cons g c =>
      obtain ⟨rfl, -⟩ := List.cons.inj hc
      exact ht.commas a c rfl

/-- A group is an item, whatever commas it holds. -/
theorem Nested.item_group (ht : Nested t) : Item (.char '(' :: (t ++ [.char ')'])) := by
  refine ⟨ht.group, fun a b hab => ?_⟩
  cases a with
  | nil => exact absurd (List.cons.inj hab).1 (by decide)
  | cons g a => exact ht.group_heads hab (List.cons_ne_nil _ _)

/-- **The group at the end of a text is unique.** -/
theorem group_unique (hb : Nested b) (hb' : Nested b')
    (h : a ++ .char '(' :: (b ++ [.char ')']) = a' ++ .char '(' :: (b' ++ [.char ')'])) : a = a' ∧ b = b' := by
  -- of two groups with one end, the longer would close a parenthesis too many before the shorter
  have hlonger : ∀ {a b a' b' c : Text}, Nested b → Nested b' → a' = a ++ c →
      .char '(' :: b = c ++ .char '(' :: b' → a = a' ∧ b = b' := by
    intro a b a' b' c hb hb' ha hc
    cases c with
    | nil => exact ⟨by rw [ha, List.append_nil], (List.cons.inj hc).2⟩
    | cons g c =>
      have hinside : b = c ++ .char '(' :: b' := (List.cons.inj hc).2
      have := hb.heads c _ hinside
      have heven := hb.even
      have := hb'.even
      rw [hinside, opened_append, closed_append, opened_opening, closed_opening] at heven
      omega
  have h' : a ++ .char '(' :: b = a' ++ .char '(' :: b' := by
    rw [← List.cons_append, ← List.cons_append, ← List.append_assoc, ← List.append_assoc] at h
    exact List.append_cancel_right h
  rcases List.append_eq_append_iff.1 h' with ⟨c, ha, hc⟩ | ⟨c, ha, hc⟩
  · exact hlonger hb hb' ha hc
  · obtain ⟨h1, h2⟩ := hlonger hb' hb ha hc
    exact ⟨h1.symm, h2.symm⟩

/-- An item ends at the first comma that stands outside of its parentheses. -/
theorem Item.unique (ht : Item t) (hu : Item u) (h : t ++ .char ',' :: a = u ++ .char ',' :: b) :
    t = u ∧ a = b := by
  have hlonger : ∀ {t u a b c : Text}, Item t → Item u → u = t ++ c →
      .char ',' :: a = c ++ .char ',' :: b → t = u ∧ a = b := by
    intro t u a b c ht hu hc h
    cases c with
    | nil => exact ⟨by rw [hc, List.append_nil], (List.cons.inj h).2⟩
    | cons g c =>
      obtain ⟨rfl, -⟩ := List.cons.inj h
      exact absurd ht.even (Nat.ne_of_gt (hu.commas t c hc))
  rcases List.append_eq_append_iff.1 h with ⟨c, hc, h⟩ | ⟨c, hc, h⟩
  · exact hlonger ht hu hc h
  · obtain ⟨h1, h2⟩ := hlonger hu ht hc h
    exact ⟨h1.symm, h2.symm⟩

theorem join_cons_cons (t u : Text) (l : List Text) :
    join ", " (t :: u :: l) = t ++ .char ',' :: .char ' ' :: join ", " (u :: l) := by
  rw [join, List.append_assoc]
  rfl

theorem Item.join : ∀ {l : List Text}, (∀ t ∈ l, Item t) → Nested (join ", " l)
  | [], _ => (item_of_plain fun g hg => absurd hg List.not_mem_nil).toNested
  | [t], h => (h t List.mem_cons_self).toNested
  | t :: u :: l, h => by
    have hrest := Item.join fun x hx => h x (List.mem_cons_of_mem t hx)
    have hcomma : Nested (", " : Text) := by
      refine ⟨by decide, fun a b hab => ?_⟩
      have hnone : closed a = 0 := List.count_eq_zero.2 fun hmem =>
        absurd (hab.symm ▸ List.mem_append_left b hmem) (by decide)
      rw [hnone]
      exact Nat.zero_le _
    exact ((h t List.mem_cons_self).toNested.append hcomma).append hrest

/-- **A list of items is read off their joined text.** -/
theorem join_items {l l' : List Text} (hl : ∀ t ∈ l, Item t) (hl' : ∀ t ∈ l', Item t) (hne : l ≠ [])
    (hne' : l' ≠ []) (h : Text.join ", " l = Text.join ", " l') : l = l' := by
  induction l generalizing l' with
  | nil => exact absurd rfl hne
  | cons t l ih =>
    cases l' with
    | nil => exact absurd rfl hne'
    | cons t' l' =>
      have ht := hl t List.mem_cons_self
      have ht' := hl' t' List.mem_cons_self
      cases l with
      | nil =>
        cases l' with
        | nil => exact congrArg (fun x => [x]) h
        | cons u' l' =>
          rw [join_cons_cons] at h
          exact absurd ht'.even (Nat.ne_of_gt (ht.commas _ _ h))
      | cons u l =>
        cases l' with
        | nil =>
          rw [join_cons_cons] at h
          exact absurd ht.even (Nat.ne_of_gt (ht'.commas _ _ h.symm))
        | cons u' l' =>
          rw [join_cons_cons, join_cons_cons] at h
          obtain ⟨rfl, htail⟩ := ht.unique ht' h
          have hrest := ih (fun x hx => hl x (List.mem_cons_of_mem _ hx))
            (fun x hx => hl' x (List.mem_cons_of_mem _ hx)) (List.cons_ne_nil _ _) (List.cons_ne_nil _ _)
            (List.cons.inj htail).2
          rw [hrest]

end TrapStub.Text
