import TrapStub.Proofs.Plan.Placement

/-!
# What a register plan promises

`Plan.Valid` says which registers a plan may give out: r0 up to a highest one, each once, to slots
in the order of the parameters; two in a row from an even one for a 64-bit scalar and one for any
other value; an odd register left free only in front of such a pair; and r0 for the address of a
result in memory.

* `ofDeclaration_eq_ok`: when a declaration has a plan, and which.
* `ofDeclaration_valid`: **every plan is valid.**
-/

namespace TrapStub

variable {d : Declaration} {table : TypeTable} {plan : Plan}

namespace Shape

/-- A scalar or enum of eight bytes. -/
def isWide : Shape → Bool
  | scalar type => type.size = 8
  | enumeration e => e.size = 8
  | _ => false

/-- A pointer, or a type that decays to one. -/
def isAddress : Shape → Bool
  | pointer _ => true
  | array _ _ => true
  | function _ _ _ => true
  | _ => false

theorem passingOfSize_eq (size : Int) (floating : Bool) : passingOfSize size floating =
    if size ≤ 4 then .word (if floating then .image else .value)
    else if size = 8 then .pair floating else .impossible size := rfl

theorem passingOfSize_eq_word {size : Int} {floating : Bool} {carriage : Carriage} :
    passingOfSize size floating = .word carriage ↔
      size ≤ 4 ∧ carriage = if floating then .image else .value := by
  rw [passingOfSize_eq]
  by_cases h4 : size ≤ 4
  · simp [h4, eq_comm]
  · by_cases h8 : size = 8 <;> simp [h4, h8]

theorem passingOfSize_eq_pair {size : Int} {floating image : Bool} :
    passingOfSize size floating = .pair image ↔ size = 8 ∧ image = floating := by
  rw [passingOfSize_eq]
  by_cases h4 : size ≤ 4
  · simp only [h4, if_true, reduceCtorEq, false_iff, not_and]; omega
  · by_cases h8 : size = 8 <;> simp [h4, h8, eq_comm]

/-- A record travels in one register as its bytes, or in memory. -/
theorem record_passing_cases (r : Record) :
    (r.isComplete ∧ 0 < r.size ∧ r.size ≤ 4 ∧ (record r).passing = .word .image) ∨
      (record r).passing = .memory r.size := by
  have e : (record r).passing = if r.isComplete && decide (0 < r.size) && decide (r.size ≤ 4)
      then .word .image else .memory r.size := rfl
  by_cases h : (r.isComplete && decide (0 < r.size) && decide (r.size ≤ 4)) = true
  · rw [if_pos h] at e
    simp only [Bool.and_eq_true, decide_eq_true_eq] at h
    exact Or.inl ⟨h.1.1, h.1.2, h.2, e⟩
  · rw [if_neg h] at e
    exact Or.inr e

/-- What travels in two registers is wide. -/
theorem isWide_of_passing {shape : Shape} {image : Bool} (h : shape.passing = .pair image) :
    shape.isWide = true := by
  cases shape with
  | scalar type => simp [isWide, (passingOfSize_eq_pair.1 h).1]
  | enumeration e => simp [isWide, (passingOfSize_eq_pair.1 h).1]
  | record r => rcases record_passing_cases r with ⟨-, -, -, e⟩ | e <;> rw [e] at h <;> cases h
  | _ => cases h

/-- What travels in one register is not wide. -/
theorem not_isWide_of_passing {shape : Shape} {carriage : Carriage}
    (h : shape.passing = .word carriage) : shape.isWide = false := by
  cases shape with
  | scalar type => have := (passingOfSize_eq_word.1 h).1; simp only [isWide, decide_eq_false_iff_not]; omega
  | enumeration e => have := (passingOfSize_eq_word.1 h).1; simp only [isWide, decide_eq_false_iff_not]; omega
  | _ => rfl

/-- What travels in one register travels as an address just if its shape is one. -/
theorem isAddress_iff_of_passing {shape : Shape} {carriage : Carriage}
    (h : shape.passing = .word carriage) : shape.isAddress = true ↔ carriage = .address := by
  cases shape with
  | scalar type =>
    obtain ⟨-, rfl⟩ := passingOfSize_eq_word.1 h
    cases type.floating <;> simp [isAddress]
  | enumeration e =>
    obtain ⟨-, rfl⟩ := passingOfSize_eq_word.1 h
    simp [isAddress]
  | record r =>
    rcases record_passing_cases r with ⟨-, -, -, e⟩ | e
    · rw [e] at h; cases h; simp [isAddress]
    · rw [e] at h; cases h
  | void => cases h
  | _ => cases h; simp [isAddress]

end Shape

theorem TypeTable.passing_eq_ok {t : CType} {passing : Passing} :
    table.passing t = .ok passing ↔ ∃ shape, table.lookup t = .ok shape ∧ shape.passing = passing := by
  unfold TypeTable.passing
  rw [bind_eq_ok]
  simp only [pure_eq_ok]

namespace Plan

theorem passing_ok {t : CType} {shape : Shape} (h : table.lookup t = .ok shape) :
    orMalformed (table.passing t) = .ok shape.passing :=
  orMalformed_eq_ok.2 (TypeTable.passing_eq_ok.2 ⟨shape, h, rfl⟩)

/-- The slots of the parameter at a position. -/
def slotsOf (plan : Plan) (index : Nat) : List Slot :=
  plan.slots.filter fun slot => slot.content.index? = some index

/-- What a plan promises about the registers of its declaration. -/
structure Valid (plan : Plan) (table : TypeTable) : Prop where
  /-- No register is given out twice. -/
  nodup : (plan.slots.map (·.register) ++ plan.padding).Nodup
  /-- The registers given out are those below the register count. -/
  mem_iff : ∀ r, r ∈ plan.slots.map (·.register) ++ plan.padding ↔ r < plan.registerCount
  count_le : plan.registerCount ≤ 4
  /-- The slots are in ascending order of their registers. -/
  ascending : (plan.slots.map (·.register)).Pairwise (· < ·)
  /-- The slots follow the order of the parameters. -/
  inOrder : (plan.slots.filterMap (·.content.index?)).Pairwise (· ≤ ·)
  /-- A slot with a position belongs to the parameter there. -/
  named : ∀ slot ∈ plan.slots, ∀ index, slot.content.index? = some index →
    ∃ p, plan.declaration.parameters[index]? = some p ∧ slot.content.parameter? = some p.name
  resolved : ∀ p ∈ plan.declaration.parameters, ∃ shape, table.lookup p.type = .ok shape
  /-- A 64-bit scalar or enum has an even register for its low word and the next for its high. -/
  wide : ∀ index p shape, plan.declaration.parameters[index]? = some p →
    table.lookup p.type = .ok shape → shape.isWide = true →
    ∃ register image, register % 2 = 0 ∧
      plan.slotsOf index = [⟨register, .half p.name index .low image⟩,
        ⟨register + 1, .half p.name index .high image⟩]
  /-- Any other value has one register, as a reference just if it is an address. -/
  whole : ∀ index p shape, plan.declaration.parameters[index]? = some p →
    table.lookup p.type = .ok shape → shape.isWide = false →
    ∃ slot, plan.slotsOf index = [slot] ∧ slot.content.half? = none ∧
      (slot.content.kindName = "reference" ↔ shape.isAddress = true)
  /-- Padding is an odd register without a slot in front of the low word of a parameter. -/
  padding : ∀ r ∈ plan.padding, r % 2 = 1 ∧ r ∉ plan.slots.map (·.register) ∧
    ∃ parameter index image, ⟨r + 1, .half parameter index .low image⟩ ∈ plan.slots
  padding_cases : plan.padding = [] ∨ plan.padding = [1]
  /-- There is a slot for the address of the result just if the result is in memory. -/
  storage_iff : (∃ slot ∈ plan.slots, slot.content = .resultAddress) ↔ plan.returns = .storage
  /-- That slot is then the first, it is r0 and the only one, and no register holds a result. -/
  storage_first : plan.returns = .storage → plan.resultRegisters = [] ∧
    ∃ rest, plan.slots = ⟨0, .resultAddress⟩ :: rest ∧ ∀ slot ∈ rest, slot.content ≠ .resultAddress

/-- **When a declaration has a plan, and which.** -/
theorem ofDeclaration_eq_ok : ofDeclaration d table = .ok plan ↔
    d.variadic = false ∧ ∃ result returns a, table.passing d.returnType = .ok result ∧
      returnOf result = .ok returns ∧
      allocate d table (start returns) d.parameters.zipIdx = .ok a ∧
      a.next ≤ argumentRegisters ∧ plan = ⟨d, a.slots, returns, a.padding⟩ := by
  unfold ofDeclaration
  cases hv : d.variadic with
  | true => simp
  | false =>
    simp only [Bool.false_eq_true, if_false, true_and, bind_eq_ok, orMalformed_eq_ok,
      orRefuse_eq_ok]
    constructor
    · rintro ⟨result, hr, returns, ht, a, ha, h⟩
      split at h
      · cases h
      · exact ⟨result, returns, a, hr, ht, ha, by omega, (pure_eq_ok.1 h).symm⟩
    · rintro ⟨result, returns, a, hr, ht, ha, hn, rfl⟩
      refine ⟨result, hr, returns, ht, a, ha, ?_⟩
      rw [if_neg (by omega)]
      rfl

/-- The allocation before any parameter is tight, and empty unless the result is in memory. -/
theorem start_tight (returns : Return) : (start returns).Tight := by
  cases returns with
  | storage => exact Allocation.empty_tight.add _
  | _ => exact Allocation.empty_tight

theorem start_slots (returns : Return) :
    (start returns).slots = if returns = .storage then [⟨0, .resultAddress⟩] else [] := by
  cases returns <;> rfl

/-! ## Counting registers -/

theorem lt_foldl_max_succ (l : List Nat) (used k : Nat) :
    k < l.foldl (fun used r => max used (r + 1)) used ↔ k < used ∨ ∃ r ∈ l, k ≤ r := by
  induction l generalizing used with
  | nil => simp
  | cons r l ih =>
    rw [List.foldl_cons, ih]
    simp only [List.mem_cons, exists_eq_or_imp, ← or_assoc]
    refine or_congr ?_ Iff.rfl
    omega

/-- If the registers given out are those below `n`, the count is `n`. -/
theorem registerCount_of_perm {n : Nat}
    (h : (plan.slots.map (·.register) ++ plan.padding).Perm (List.range n)) :
    plan.registerCount = n := by
  -- the count is known by the numbers below it
  have key : ∀ k, k < plan.registerCount ↔ k < n := by
    intro k
    unfold registerCount
    rw [lt_foldl_max_succ]
    constructor
    · rintro (hk | ⟨r, hr, hk⟩)
      · omega
      · have := List.mem_range.1 (h.subset hr); omega
    · intro hk
      exact Or.inr ⟨k, h.symm.subset (List.mem_range.2 hk), Nat.le_refl k⟩
  have h1 := key n
  have h2 := key plan.registerCount
  omega

/-! ## Slots by parameter -/

section Chunks

variable {ps : List Parameter} {k : Nat} {chunks : List (List Slot)}

/-- Every slot of the chunks belongs to a parameter, at a position from `k` on. -/
theorem chunk_owner (h : List.Forall₂ (ChunkOf table) (ps.zipIdx k) chunks) :
    ∀ slot ∈ chunks.flatten, ∃ i p, ps[i]? = some p ∧ slot.content.index? = some (k + i) ∧
      slot.content.parameter? = some p.name := by
  induction ps generalizing k chunks with
  | nil => cases h; intro slot hs; simp at hs
  | cons p ps ih =>
    rw [List.zipIdx_cons] at h
    cases h with
    | @cons _ chunk _ rest hc hrest =>
      intro slot hs
      rw [List.flatten_cons, List.mem_append] at hs
      rcases hs with hs | hs
      · obtain ⟨passing, -, hl⟩ := hc
        obtain ⟨hi, hp⟩ := hl.content slot hs
        exact ⟨0, p, rfl, hi, hp⟩
      · obtain ⟨i, q, hq, hi, hp⟩ := ih hrest slot hs
        exact ⟨i + 1, q, by simpa using hq, by rw [hi]; congr 1; omega, hp⟩

/-- The slots of the chunks are in the order of their positions. -/
theorem chunk_order (h : List.Forall₂ (ChunkOf table) (ps.zipIdx k) chunks) :
    (chunks.flatten.filterMap (·.content.index?)).Pairwise (· ≤ ·) := by
  induction ps generalizing k chunks with
  | nil => cases h; exact List.Pairwise.nil
  | cons p ps ih =>
    rw [List.zipIdx_cons] at h
    cases h with
    | @cons _ chunk _ rest hc hrest =>
      obtain ⟨passing, -, hl⟩ := hc
      rw [List.flatten_cons, List.filterMap_append, List.pairwise_append]
      -- one chunk has one position, and those behind it have later ones
      have hfirst : ∀ i ∈ chunk.filterMap (·.content.index?), i = k := by
        intro i hi
        obtain ⟨slot, hs, hi⟩ := List.mem_filterMap.1 hi
        rw [(hl.content slot hs).1] at hi
        exact (Option.some.inj hi).symm
      refine ⟨List.pairwise_of_forall_mem_list ?_, ih hrest, ?_⟩
      · intro i hi j hj
        exact Nat.le_of_eq ((hfirst i hi).trans (hfirst j hj).symm)
      · intro i hi j hj
        obtain ⟨slot, hs, hj⟩ := List.mem_filterMap.1 hj
        obtain ⟨m, q, -, hm, -⟩ := chunk_owner hrest slot hs
        rw [hm] at hj
        have := Option.some.inj hj
        rw [hfirst i hi]; omega

/-- The slots of a position are the chunk of the parameter there. -/
theorem chunk_filter (h : List.Forall₂ (ChunkOf table) (ps.zipIdx k) chunks) {i : Nat} {p : Parameter}
    (hp : ps[i]? = some p) :
    ChunkOf table (p, k + i) (chunks.flatten.filter fun slot => slot.content.index? = some (k + i)) := by
  induction ps generalizing k chunks i with
  | nil => simp at hp
  | cons q ps ih =>
    rw [List.zipIdx_cons] at h
    cases h with
    | @cons _ chunk _ rest hc hrest =>
      rw [List.flatten_cons, List.filter_append]
      cases i with
      | zero =>
        obtain rfl : q = p := by simpa using hp
        have hall : chunk.filter (fun slot => slot.content.index? = some (k + 0)) = chunk := by
          obtain ⟨passing, -, hl⟩ := hc
          exact List.filter_eq_self.2 fun slot hs => by simp [(hl.content slot hs).1]
        -- later chunks have later positions
        have hnone : rest.flatten.filter (fun slot => slot.content.index? = some (k + 0)) = [] := by
          refine List.filter_eq_nil_iff.2 fun slot hs => ?_
          obtain ⟨m, -, -, hm, -⟩ := chunk_owner hrest slot hs
          rw [hm]
          simp only [decide_eq_true_eq, Option.some.injEq]
          omega
        rw [hall, hnone, List.append_nil]
        exact hc
      | succ i =>
        -- the first chunk has the first position only
        have hnone : chunk.filter (fun slot => slot.content.index? = some (k + (i + 1))) = [] := by
          obtain ⟨passing, -, hl⟩ := hc
          refine List.filter_eq_nil_iff.2 fun slot hs => ?_
          rw [(hl.content slot hs).1]
          simp only [decide_eq_true_eq, Option.some.injEq]
          omega
        have := ih hrest (i := i) (by simpa using hp)
        rw [hnone, List.nil_append]
        rw [show k + 1 + i = k + (i + 1) by omega] at this
        exact this

end Chunks

/-! ## The parts of a plan -/

section Chunk

variable {p : Parameter} {index : Nat} {chunk : List Slot} {shape : Shape}

theorem chunkOf_lays (h : ChunkOf table (p, index) chunk) :
    ∃ shape, table.lookup p.type = .ok shape ∧ Lays p.name index shape.passing chunk := by
  obtain ⟨passing, hp, hl⟩ := h
  obtain ⟨shape, hs, rfl⟩ := TypeTable.passing_eq_ok.1 hp
  exact ⟨shape, hs, hl⟩

theorem lays_of_chunkOf (h : ChunkOf table (p, index) chunk) (hs : table.lookup p.type = .ok shape) :
    Lays p.name index shape.passing chunk := by
  obtain ⟨shape', hs', hl⟩ := chunkOf_lays h
  obtain rfl := Except.ok.inj (hs.symm.trans hs')
  exact hl

/-- What a wide parameter is given. -/
theorem chunkOf_wide (h : ChunkOf table (p, index) chunk) (hs : table.lookup p.type = .ok shape)
    (hw : shape.isWide = true) : ∃ register image, shape.passing = .pair image ∧ register % 2 = 0 ∧
      chunk = [⟨register, .half p.name index .low image⟩, ⟨register + 1, .half p.name index .high image⟩] := by
  have hl := lays_of_chunkOf h hs
  generalize hpass : shape.passing = passing at hl
  cases hl with
  | word register carriage => rw [Shape.not_isWide_of_passing hpass] at hw; cases hw
  | pair register image even => exact ⟨register, image, rfl, even, rfl⟩

theorem kindName_whole (parameter : Text) (index : Nat) (carriage : Carriage) :
    (Content.whole parameter index carriage).kindName = "reference" ↔ carriage = .address := by
  cases carriage with
  | address => exact ⟨fun _ => rfl, fun _ => rfl⟩
  | value => exact ⟨fun h => absurd h (show ("value" : Text) ≠ "reference" by decide), nofun⟩
  | image => exact ⟨fun h => absurd h (show ("value" : Text) ≠ "reference" by decide), nofun⟩

/-- What any other parameter is given. -/
theorem chunkOf_whole (h : ChunkOf table (p, index) chunk) (hs : table.lookup p.type = .ok shape)
    (hw : shape.isWide = false) : ∃ slot, chunk = [slot] ∧ slot.content.half? = none ∧
      (slot.content.kindName = "reference" ↔ shape.isAddress = true) := by
  have hl := lays_of_chunkOf h hs
  generalize hpass : shape.passing = passing at hl
  cases hl with
  | word register carriage =>
    refine ⟨_, rfl, rfl, ?_⟩
    rw [kindName_whole, Shape.isAddress_iff_of_passing hpass]
  | pair register image even => rw [Shape.isWide_of_passing hpass] at hw; cases hw

end Chunk

/-- A plan is a tight allocation of at most four registers: the address of the result, if it is in
memory, and then a chunk of slots for each parameter. -/
structure Built (plan : Plan) (table : TypeTable) (a : Allocation) (chunks : List (List Slot)) : Prop where
  tight : a.Tight
  next_le : a.next ≤ 4
  slots : plan.slots = a.slots
  padding : plan.padding = a.padding
  chunked : plan.slots = (start plan.returns).slots ++ chunks.flatten
  owned : List.Forall₂ (ChunkOf table) plan.declaration.parameters.zipIdx chunks

theorem ofDeclaration_built (h : ofDeclaration d table = .ok plan) :
    plan.declaration = d ∧ ∃ a chunks, plan.Built table a chunks := by
  obtain ⟨-, result, returns, a, -, -, halloc, hnext, rfl⟩ := ofDeclaration_eq_ok.1 h
  obtain ⟨chunks, hslots, hchunks⟩ := allocate_chunks halloc
  exact ⟨rfl, a, chunks, allocate_tight (start_tight returns) halloc, hnext, rfl, rfl, hslots, hchunks⟩

namespace Built

variable {a : Allocation} {chunks : List (List Slot)}

theorem fill (hb : plan.Built table a chunks) :
    (plan.slots.map (·.register) ++ plan.padding).Perm (List.range a.next) := by
  rw [hb.slots, hb.padding]; exact hb.tight.fill

theorem registerCount (hb : plan.Built table a chunks) : plan.registerCount = a.next :=
  registerCount_of_perm hb.fill

theorem nodup (hb : plan.Built table a chunks) :
    (plan.slots.map (·.register) ++ plan.padding).Nodup :=
  hb.fill.nodup_iff.2 List.nodup_range

theorem ascending (hb : plan.Built table a chunks) :
    (plan.slots.map (·.register)).Pairwise (· < ·) := by
  rw [hb.slots]; exact hb.tight.ascending

theorem register_lt (hb : plan.Built table a chunks) {slot : Slot} (hs : slot ∈ plan.slots) :
    slot.register < 4 := by
  rw [hb.slots] at hs
  have := hb.tight.register_lt (List.mem_map_of_mem (f := Slot.register) hs)
  have := hb.next_le
  omega

/-- A slot holds the address of the result, or it belongs to the parameter at its position. -/
theorem slot_cases (hb : plan.Built table a chunks) {slot : Slot} (hs : slot ∈ plan.slots) :
    (plan.returns = .storage ∧ slot = ⟨0, .resultAddress⟩) ∨
      ∃ i p, plan.declaration.parameters[i]? = some p ∧ slot.content.index? = some i ∧
        slot.content.parameter? = some p.name := by
  rw [hb.chunked, List.mem_append, start_slots] at hs
  rcases hs with hs | hs
  · split at hs
    · rename_i hr; exact Or.inl ⟨hr, List.mem_singleton.1 hs⟩
    · cases hs
  · obtain ⟨i, p, hp, hi, hn⟩ := chunk_owner hb.owned slot hs
    exact Or.inr ⟨i, p, hp, by rw [hi, Nat.zero_add], hn⟩

/-- The slots of a position are the chunk of the parameter there. -/
theorem slotsOf (hb : plan.Built table a chunks) {index : Nat} {p : Parameter}
    (hp : plan.declaration.parameters[index]? = some p) : ChunkOf table (p, index) (plan.slotsOf index) := by
  have hc := chunk_filter hb.owned hp
  rw [Nat.zero_add] at hc
  have hstart : (start plan.returns).slots.filter (fun slot => slot.content.index? = some index) = [] := by
    rw [start_slots]; split <;> rfl
  rw [Plan.slotsOf, hb.chunked, List.filter_append, hstart, List.nil_append]
  exact hc

theorem inOrder (hb : plan.Built table a chunks) :
    (plan.slots.filterMap (·.content.index?)).Pairwise (· ≤ ·) := by
  have hstart : (start plan.returns).slots.filterMap (·.content.index?) = [] := by
    rw [start_slots]; split <;> rfl
  rw [hb.chunked, List.filterMap_append, hstart, List.nil_append]
  exact chunk_order hb.owned

theorem resolved (hb : plan.Built table a chunks) {p : Parameter}
    (hp : p ∈ plan.declaration.parameters) : ∃ shape, table.lookup p.type = .ok shape := by
  obtain ⟨index, hi⟩ := List.getElem?_of_mem hp
  obtain ⟨shape, hs, -⟩ := chunkOf_lays (hb.slotsOf hi)
  exact ⟨shape, hs⟩

/-- Padding is odd, in front of a low word, and belongs to no slot. -/
theorem mem_padding (hb : plan.Built table a chunks) {r : Nat} (hr : r ∈ plan.padding) :
    r % 2 = 1 ∧ r ∉ plan.slots.map (·.register) ∧
      ∃ parameter index image, ⟨r + 1, .half parameter index .low image⟩ ∈ plan.slots := by
  have hdisjoint := (List.nodup_append.1 hb.nodup).2.2
  obtain ⟨hodd, -, hlow⟩ := hb.tight.padded r (hb.padding ▸ hr)
  exact ⟨hodd, fun hs => hdisjoint r hs r hr rfl, by rw [hb.slots]; exact hlow⟩

theorem padding_cases (hb : plan.Built table a chunks) : plan.padding = [] ∨ plan.padding = [1] := by
  -- padding is odd and has a pair behind it, below the fourth register
  have hone : ∀ r ∈ plan.padding, r = 1 := by
    intro r hr
    obtain ⟨hodd, hlt, -⟩ := hb.tight.padded r (hb.padding ▸ hr)
    have := hb.next_le
    omega
  have hnodup := (List.nodup_append.1 hb.nodup).2.1
  match hp : plan.padding with
  | [] => exact Or.inl rfl
  | [r] => rw [hone r (by simp [hp])]; exact Or.inr rfl
  | r :: s :: rest =>
    rw [hp] at hnodup
    have hr := hone r (by simp [hp])
    have hs := hone s (by simp [hp])
    simp [hr, hs] at hnodup

/-- The slots of parameters do not hold the address of the result. -/
theorem not_resultAddress (hb : plan.Built table a chunks) :
    ∀ slot ∈ chunks.flatten, slot.content ≠ .resultAddress := by
  intro slot hs he
  obtain ⟨i, p, -, hi, -⟩ := chunk_owner hb.owned slot hs
  rw [he] at hi
  cases hi

theorem storage_iff (hb : plan.Built table a chunks) :
    (∃ slot ∈ plan.slots, slot.content = .resultAddress) ↔ plan.returns = .storage := by
  constructor
  · rintro ⟨slot, hs, he⟩
    rcases hb.slot_cases hs with ⟨hr, -⟩ | ⟨i, p, -, hi, -⟩
    · exact hr
    · rw [he] at hi; cases hi
  · intro hr
    refine ⟨⟨0, .resultAddress⟩, ?_, rfl⟩
    rw [hb.chunked, start_slots, if_pos hr]
    exact List.mem_cons_self

theorem storage_first (hb : plan.Built table a chunks) (hr : plan.returns = .storage) :
    ∃ rest, plan.slots = ⟨0, .resultAddress⟩ :: rest ∧ ∀ slot ∈ rest, slot.content ≠ .resultAddress := by
  refine ⟨chunks.flatten, ?_, hb.not_resultAddress⟩
  rw [hb.chunked, start_slots, if_pos hr, List.singleton_append]

end Built

/-- **Every plan is valid.** -/
theorem ofDeclaration_valid (h : ofDeclaration d table = .ok plan) :
    plan.declaration = d ∧ plan.Valid table := by
  obtain ⟨hd, a, chunks, hb⟩ := ofDeclaration_built h
  refine ⟨hd, ?_⟩
  constructor
  case nodup => exact hb.nodup
  case mem_iff =>
    intro r
    rw [hb.registerCount, ← List.mem_range]
    exact hb.fill.mem_iff
  case count_le => rw [hb.registerCount]; exact hb.next_le
  case ascending => exact hb.ascending
  case inOrder => exact hb.inOrder
  case named =>
    intro slot hs index hi
    rcases hb.slot_cases hs with ⟨-, rfl⟩ | ⟨i, p, hp, hi', hn⟩
    · cases hi
    · obtain rfl : i = index := Option.some.inj (hi'.symm.trans hi)
      exact ⟨p, hp, hn⟩
  case resolved => exact fun p hp => hb.resolved hp
  case wide =>
    intro index p shape hp hs hw
    obtain ⟨register, image, -, heven, hslots⟩ := chunkOf_wide (hb.slotsOf hp) hs hw
    exact ⟨register, image, heven, hslots⟩
  case whole => exact fun index p shape hp hs hw => chunkOf_whole (hb.slotsOf hp) hs hw
  case padding => exact fun r hr => hb.mem_padding hr
  case padding_cases => exact hb.padding_cases
  case storage_iff => exact hb.storage_iff
  case storage_first =>
    intro hr
    exact ⟨by rw [resultRegisters, hr], hb.storage_first hr⟩

/-! A result of three words and a 64-bit parameter: the address of the result takes r0, so r1 stays
free. -/

/-- A struct of three words. -/
def timeRecord : Record :=
  { key := "struct time", kind := .struct, size := 12, align := 4, packed := false
    members := some [⟨"words", .array (.scalar ⟨"uint32_t", 4, false, false⟩) (some 3), none, some 0, false, none⟩]
    aligned := false, pack := none, anonymous := false, origin := "time.h", comment := none }

/-- `struct time sd_time_get(uint64_t offset)`. -/
def timeGet : Declaration :=
  { name := "sd_time_get", trapNumber := 0x60, returnType := .named "struct time"
    parameters := [⟨"offset", .scalar ⟨"uint64_t", 8, false, false⟩⟩]
    symbol := "SD_TIME_GET", origin := "time.h", line := 9, variadic := false, comment := none }

/-- The plan of `timeGet`. -/
def timePlan : Plan :=
  { declaration := timeGet
    slots := [⟨0, .resultAddress⟩, ⟨2, .half "offset" 0 .low false⟩, ⟨3, .half "offset" 0 .high false⟩]
    returns := .storage, padding := [1] }

theorem timePlan_valid :
    ofDeclaration timeGet ⟨[.record timeRecord], true⟩ = .ok timePlan ∧
      timePlan.Valid ⟨[.record timeRecord], true⟩ := by
  have h : ofDeclaration timeGet ⟨[.record timeRecord], true⟩ = .ok timePlan :=
    toOption_eq_some.1 (by decide +kernel)
  exact ⟨h, (ofDeclaration_valid h).2⟩

end Plan

end TrapStub
