import TrapStub.Proofs.Answer

/-!
# Placing parameters in registers

Parameters are placed one after the other behind what is already taken. Two facts about one
placement carry every statement about a plan:

* `Allocation.Tight` (an invariant): the slots and the padding fill the registers below the next
  free one, the slots in ascending order, and each padding register is odd and stands in front of
  the low word of a 64-bit parameter.
* `Lays`: the slots of one parameter, by the way it travels. The slots of an allocation are those
  it began with and then one such chunk for each parameter (`allocate_chunks`).
-/

namespace TrapStub

variable {a b : Allocation} {d : Declaration} {table : TypeTable}

namespace Allocation

@[simp] theorem add_slots (a : Allocation) (content : Content) :
    (a.add content).slots = a.slots ++ [⟨a.next, content⟩] := rfl

@[simp] theorem add_padding (a : Allocation) (content : Content) :
    (a.add content).padding = a.padding := rfl

@[simp] theorem add_next (a : Allocation) (content : Content) :
    (a.add content).next = a.next + 1 := rfl

@[simp] theorem align_slots (a : Allocation) : a.align.slots = a.slots := by
  unfold align; split <;> rfl

/-- Aligning skips one register or none. -/
theorem align_cases (a : Allocation) :
    (a.next % 2 = 0 ∧ a.align = a) ∨
      (a.next % 2 = 1 ∧ a.align.padding = a.padding ++ [a.next] ∧ a.align.next = a.next + 1) := by
  unfold align
  split
  · rename_i h; exact Or.inr ⟨h, rfl, rfl⟩
  · rename_i h; exact Or.inl ⟨by omega, rfl⟩

theorem align_even (a : Allocation) : a.align.next % 2 = 0 := by
  rcases a.align_cases with ⟨h, e⟩ | ⟨h, -, e⟩
  · rw [e]; exact h
  · rw [e]; omega

/-- The registers that are taken: those of the slots, then the padding. -/
def taken (a : Allocation) : List Nat := a.slots.map (·.register) ++ a.padding

/-- The registers below the next free one are each taken once, and the slots ascend. -/
structure Filled (a : Allocation) : Prop where
  fill : a.taken.Perm (List.range a.next)
  ascending : (a.slots.map (·.register)).Pairwise (· < ·)

theorem Filled.register_lt (ha : a.Filled) {r : Nat} (hr : r ∈ a.slots.map (·.register)) :
    r < a.next :=
  List.mem_range.1 (ha.fill.subset (List.mem_append_left _ hr))

theorem Filled.add (ha : a.Filled) (content : Content) : (a.add content).Filled where
  fill := by
    unfold taken
    rw [add_slots, add_padding, add_next, List.map_append, List.range_succ, List.append_assoc]
    -- the new register goes behind the padding
    refine (List.Perm.append_left _ List.perm_append_comm).trans ?_
    rw [← List.append_assoc]
    exact ha.fill.append_right _
  ascending := by
    rw [add_slots, List.map_append, List.pairwise_append]
    refine ⟨ha.ascending, List.pairwise_singleton _ _, ?_⟩
    intro r hr s hs
    rw [List.map_singleton, List.mem_singleton] at hs
    rw [hs]
    exact ha.register_lt hr

theorem Filled.align (ha : a.Filled) : a.align.Filled := by
  rcases a.align_cases with ⟨-, e⟩ | ⟨-, hp, hn⟩
  · rw [e]; exact ha
  · constructor
    · unfold taken
      rw [align_slots, hp, hn, List.range_succ, ← List.append_assoc]
      exact ha.fill.append_right _
    · rw [align_slots]; exact ha.ascending

/-- Each padding register is odd and stands in front of the low word of a 64-bit parameter, whose
high word follows. -/
def Padded (a : Allocation) : Prop :=
  ∀ r ∈ a.padding, r % 2 = 1 ∧ r + 2 < a.next ∧
    ∃ parameter index image, ⟨r + 1, .half parameter index .low image⟩ ∈ a.slots

/-- What every allocation satisfies between two parameters. -/
structure Tight (a : Allocation) : Prop extends a.Filled where
  padded : a.Padded

theorem Tight.add (ha : a.Tight) (content : Content) : (a.add content).Tight where
  toFilled := ha.toFilled.add content
  padded := by
    intro r hr
    obtain ⟨hodd, hlt, p, i, image, hm⟩ := ha.padded r hr
    exact ⟨hodd, by rw [add_next]; omega, p, i, image, by rw [add_slots]; exact List.mem_append_left _ hm⟩

/-- **A 64-bit parameter keeps an allocation tight**: what aligning skips is at once followed by
the low word. -/
theorem Tight.pair (ha : a.Tight) (parameter : Text) (index : Nat) (image : Bool) :
    ((a.align.add (.half parameter index .low image)).add (.half parameter index .high image)).Tight where
  toFilled := (ha.toFilled.align.add _).add _
  padded := by
    intro r hr
    simp only [add_padding] at hr
    simp only [add_slots, add_next, align_slots]
    rcases a.align_cases with ⟨-, e⟩ | ⟨hodd, hp, hn⟩
    · rw [e] at hr ⊢
      obtain ⟨hodd, hlt, p, i, im, hm⟩ := ha.padded r hr
      exact ⟨hodd, by omega, p, i, im, by simp [hm]⟩
    · rw [hp, List.mem_append, List.mem_singleton] at hr
      rw [hn]
      rcases hr with hr | rfl
      · obtain ⟨hodd, hlt, p, i, im, hm⟩ := ha.padded r hr
        exact ⟨hodd, by omega, p, i, im, by simp [hm]⟩
      -- the register that aligning skipped
      · exact ⟨hodd, by omega, parameter, index, image, by simp⟩

theorem empty_tight : (⟨[], [], 0⟩ : Allocation).Tight where
  fill := List.Perm.refl _
  ascending := List.Pairwise.nil
  padded := by intro r hr; simp at hr

/-- A placement that succeeds is of a value that travels in one register or in two. -/
theorem place_cases {parameter : Text} {index : Nat} {passing : Passing}
    (h : a.place parameter index passing = .ok b) :
    (∃ carriage, passing = .word carriage ∧ b = a.add (.whole parameter index carriage)) ∨
    (∃ image, passing = .pair image ∧
      b = (a.align.add (.half parameter index .low image)).add (.half parameter index .high image)) := by
  cases passing with
  | word carriage => exact Or.inl ⟨carriage, rfl, by simpa [place] using h.symm⟩
  | pair image => exact Or.inr ⟨image, rfl, by simpa [place] using h.symm⟩
  | nothing => simp [place] at h
  | memory bytes => simp [place] at h
  | impossible bytes => simp [place] at h

/-- **One placement keeps an allocation tight.** -/
theorem place_tight {parameter : Text} {index : Nat} {passing : Passing} (ha : a.Tight)
    (h : a.place parameter index passing = .ok b) : b.Tight := by
  rcases place_cases h with ⟨carriage, -, rfl⟩ | ⟨image, -, rfl⟩
  · exact ha.add _
  · exact ha.pair parameter index image

end Allocation

/-- The slots that one parameter gets, by the way it travels. -/
inductive Lays (parameter : Text) (index : Nat) : Passing → List Slot → Prop
  | word (register : Nat) (carriage : Carriage) :
    Lays parameter index (.word carriage) [⟨register, .whole parameter index carriage⟩]
  | pair (register : Nat) (image : Bool) (even : register % 2 = 0) :
    Lays parameter index (.pair image)
      [⟨register, .half parameter index .low image⟩, ⟨register + 1, .half parameter index .high image⟩]

theorem Lays.content {parameter : Text} {index : Nat} {passing : Passing} {chunk : List Slot}
    (h : Lays parameter index passing chunk) :
    ∀ slot ∈ chunk, slot.content.index? = some index ∧ slot.content.parameter? = some parameter := by
  intro slot hs
  cases h with
  | word => simp at hs; subst hs; exact ⟨rfl, rfl⟩
  | pair => simp at hs; rcases hs with rfl | rfl <;> exact ⟨rfl, rfl⟩

/-- A placement puts the slots of its parameter behind all others. -/
theorem Allocation.place_lays {parameter : Text} {index : Nat} {passing : Passing}
    (h : a.place parameter index passing = .ok b) :
    ∃ chunk, b.slots = a.slots ++ chunk ∧ Lays parameter index passing chunk := by
  rcases place_cases h with ⟨carriage, rfl, rfl⟩ | ⟨image, rfl, rfl⟩
  · exact ⟨_, rfl, .word _ _⟩
  · exact ⟨_, by rw [add_slots, add_slots, align_slots, List.append_assoc]; rfl,
      .pair _ _ a.align_even⟩

/-- The chunk of slots belongs to the parameter at its position. -/
def ChunkOf (table : TypeTable) (p : Parameter × Nat) (chunk : List Slot) : Prop :=
  ∃ passing, table.passing p.1.type = .ok passing ∧ Lays p.1.name p.2 passing chunk

namespace Plan

/-- One step of the loop over the parameters. -/
theorem allocate_cons {p : Parameter × Nat} {rest : List (Parameter × Nat)}
    (h : allocate d table a (p :: rest) = .ok b) :
    ∃ passing a', table.passing p.1.type = .ok passing ∧ a.place p.1.name p.2 passing = .ok a' ∧
      allocate d table a' rest = .ok b := by
  unfold allocate at h
  obtain ⟨passing, hp, h⟩ := bind_eq_ok.1 h
  obtain ⟨a', ha', h⟩ := bind_eq_ok.1 h
  exact ⟨passing, a', orMalformed_eq_ok.1 hp, orRefuse_eq_ok.1 ha', h⟩

/-- **Every allocation of a run over the parameters is tight.** -/
theorem allocate_tight {l : List (Parameter × Nat)} (ha : a.Tight)
    (h : allocate d table a l = .ok b) : b.Tight := by
  induction l generalizing a with
  | nil => rw [allocate, Except.ok.injEq] at h; rw [← h]; exact ha
  | cons p rest ih =>
    obtain ⟨passing, a', -, hplace, hrest⟩ := allocate_cons h
    exact ih (Allocation.place_tight ha hplace) hrest

/-- **The parameters get one chunk of slots each, in their order.** -/
theorem allocate_chunks {l : List (Parameter × Nat)} (h : allocate d table a l = .ok b) :
    ∃ chunks, b.slots = a.slots ++ chunks.flatten ∧ List.Forall₂ (ChunkOf table) l chunks := by
  induction l generalizing a with
  | nil =>
    rw [allocate, Except.ok.injEq] at h
    exact ⟨[], by simp [h], .nil⟩
  | cons p rest ih =>
    obtain ⟨passing, a', hp, hplace, hrest⟩ := allocate_cons h
    obtain ⟨chunk, hs, hl⟩ := Allocation.place_lays hplace
    obtain ⟨chunks, hs', hc⟩ := ih hrest
    refine ⟨chunk :: chunks, ?_, .cons ⟨passing, hp, hl⟩ hc⟩
    rw [hs', hs, List.append_assoc, List.flatten_cons]

end Plan

end TrapStub
