import TrapStub.Proofs.Answer

/-!
# The layout rule

How C lays out a struct or union whose members may be packed or aligned, under a `#pragma pack` or
none. The members of a record and its packing can be written in more than one way for one layout:
`layout_written` says which changes keep it.

* `LayoutMember`, `layout`: the rule.
* `LayoutMember.Written`: a member as it is, or with an alignment inferred from its place.
* `layout_written`: **the layout stays the same** with such members and the packing inferred from them.
-/

namespace TrapStub

/-- What the layout rule reads of a member. -/
structure LayoutMember where
  /-- The alignment of its type. -/
  align : Nat
  /-- The size of its type. -/
  size : Nat
  /-- What it is explicitly aligned to. -/
  explicit : Option Nat
  packed : Bool
  deriving DecidableEq, Repr

namespace LayoutMember

/-- The alignment that a member asks for. -/
def requested (m : LayoutMember) : Nat :=
  match m.packed, m.explicit with
  | true, none => 1
  | true, some e => e
  | false, none => m.align
  | false, some e => max m.align e

/-- The alignment of a member under a packing. -/
def effective (pack : Option Nat) (m : LayoutMember) : Nat :=
  match pack with
  | none => m.requested
  | some p => min m.requested p

end LayoutMember

/-- Where the members of a record are, and its size and alignment. -/
@[ext] structure Layout where
  offsets : List Nat
  size : Nat
  align : Nat
  deriving DecidableEq, Repr

/-- The first multiple of `a` from `n` on. -/
def nextMultiple (n a : Nat) : Nat := (n + a - 1) / a * a

/-- The offsets of members one after the other from `position` on, and the end of the last. -/
def offsetsFrom (pack : Option Nat) (position : Nat) : List LayoutMember → List Nat × Nat
  | [] => ([], position)
  | m :: rest =>
    let offset := nextMultiple position (m.effective pack)
    let (offsets, stop) := offsetsFrom pack (offset + m.size) rest
    (offset :: offsets, stop)

/-- The largest of some numbers, and of one to start with. -/
def largest (start : Nat) (l : List Nat) : Nat := l.foldl max start

/-- The layout of a struct or union under a packing. -/
def layout (kind : RecordKind) (pack : Option Nat) (ms : List LayoutMember) : Layout :=
  let align := largest 1 (ms.map (·.effective pack))
  match kind with
  | .struct =>
    let (offsets, stop) := offsetsFrom pack 0 ms
    ⟨offsets, nextMultiple stop align, align⟩
  | .union => ⟨ms.map fun _ => 0, nextMultiple (largest 0 (ms.map (·.size))) align, align⟩

/-- Where the last member of a record ends. -/
def extent (kind : RecordKind) (pack : Option Nat) (ms : List LayoutMember) : Nat :=
  match kind with
  | .struct => (offsetsFrom pack 0 ms).2
  | .union => largest 0 (ms.map (·.size))

/-! ## Numbers -/

section Numbers

variable {a b n start : Nat} {l : List Nat}

theorem largest_le_iff : largest start l ≤ b ↔ start ≤ b ∧ ∀ x ∈ l, x ≤ b := by
  unfold largest
  induction l generalizing start with
  | nil => simp
  | cons x l ih =>
    rw [List.foldl_cons, ih, List.forall_mem_cons, Nat.max_le, and_assoc]

theorem start_le_largest : start ≤ largest start l := (largest_le_iff.1 (Nat.le_refl _)).1

theorem le_largest (h : a ∈ l) : a ≤ largest start l := (largest_le_iff.1 (Nat.le_refl _)).2 a h

/-- The largest of some numbers is one of them. -/
theorem largest_mem : largest start l = start ∨ largest start l ∈ l := by
  unfold largest
  induction l generalizing start with
  | nil => exact Or.inl rfl
  | cons x l ih =>
    rw [List.foldl_cons]
    have hrest : l.foldl max (max start x) = max start x ∨ l.foldl max (max start x) ∈ l := ih
    rcases hrest with h | h
    · rw [h]
      rcases Nat.le_total start x with hle | hle
      · rw [Nat.max_eq_right hle]; exact Or.inr List.mem_cons_self
      · rw [Nat.max_eq_left hle]; exact Or.inl rfl
    · exact Or.inr (List.mem_cons_of_mem x h)

theorem dvd_nextMultiple : a ∣ nextMultiple n a := Nat.dvd_mul_left a _

theorem nextMultiple_bounds (ha : 0 < a) : n ≤ nextMultiple n a ∧ nextMultiple n a < n + a := by
  have hdiv := Nat.div_add_mod' (n + a - 1) a
  have hmod := Nat.mod_lt (n + a - 1) ha
  unfold nextMultiple
  omega

/-- The next multiple is the only multiple in reach. -/
theorem nextMultiple_unique (hb : b ∣ a) (hle : n ≤ a) (hlt : a < n + b) : nextMultiple n b = a := by
  obtain ⟨k, rfl⟩ := hb
  have hdiv : (n + b - 1) / b = k := by
    refine Nat.div_eq_of_lt_le ?_ ?_
    · rw [Nat.mul_comm]; omega
    · rw [Nat.add_mul, Nat.mul_comm k b]; omega
  unfold nextMultiple
  rw [hdiv, Nat.mul_comm]

/-- **A coarser alignment has the same next multiple** if that is one of its multiples. -/
theorem nextMultiple_eq (ha : 0 < a) (hab : a ∣ b) (hpos : 0 < b) (hb : b ∣ nextMultiple n a) :
    nextMultiple n b = nextMultiple n a := by
  have hbounds := nextMultiple_bounds (n := n) ha
  have hle := Nat.le_of_dvd hpos hab
  exact nextMultiple_unique hb hbounds.1 (by omega)

/-- Rounding up to an alignment and then to a coarser one is rounding up to the coarser one. -/
theorem nextMultiple_nextMultiple (ha : 0 < a) (hb : 0 < b) (hab : a ∣ b) :
    nextMultiple (nextMultiple n a) b = nextMultiple n b := by
  have hfine := nextMultiple_bounds (n := n) ha
  have hcoarse := nextMultiple_bounds (n := n) hb
  have hdvd : a ∣ nextMultiple n b := Nat.dvd_trans hab dvd_nextMultiple
  have hle : nextMultiple n a ≤ nextMultiple n b :=
    Nat.le_of_lt_add_of_dvd (by omega) dvd_nextMultiple hdvd
  exact nextMultiple_unique dvd_nextMultiple hle (by omega)

/-- Of two powers of two the smaller divides the other. -/
theorem dvd_of_le_of_isPowerOfTwo (ha : a.isPowerOfTwo) (hb : b.isPowerOfTwo) (h : a ≤ b) : a ∣ b := by
  obtain ⟨i, rfl⟩ := ha
  obtain ⟨j, rfl⟩ := hb
  exact Nat.pow_dvd_pow 2 ((Nat.pow_le_pow_iff_right (by decide)).1 h)

theorem isPowerOfTwo_max (ha : a.isPowerOfTwo) (hb : b.isPowerOfTwo) : (max a b).isPowerOfTwo := by
  rcases Nat.le_total a b with h | h
  · rwa [Nat.max_eq_right h]
  · rwa [Nat.max_eq_left h]

theorem isPowerOfTwo_min (ha : a.isPowerOfTwo) (hb : b.isPowerOfTwo) : (min a b).isPowerOfTwo := by
  rcases Nat.le_total a b with h | h
  · rwa [Nat.min_eq_left h]
  · rwa [Nat.min_eq_right h]

end Numbers

/-! ## Members written otherwise -/

/-- A power of two that no alignment of a type goes beyond. -/
def IsAlignment (a : Nat) : Prop := a.isPowerOfTwo ∧ a ≤ 8

theorem eq_of_dvd_eight {a : Nat} (h : a ∣ 8) : a = 1 ∨ a = 2 ∨ a = 4 ∨ a = 8 := by
  have hall : ∀ a ≤ 8, a ∣ 8 → a = 1 ∨ a = 2 ∨ a = 4 ∨ a = 8 := by decide
  exact hall a (Nat.le_of_dvd (by decide) h) h

theorem isAlignment_iff {a : Nat} : IsAlignment a ↔ a ∣ 8 := by
  constructor
  · exact fun h => dvd_of_le_of_isPowerOfTwo h.1 ⟨3, rfl⟩ h.2
  · intro h
    rcases eq_of_dvd_eight h with rfl | rfl | rfl | rfl
    · exact ⟨⟨0, rfl⟩, by decide⟩
    · exact ⟨⟨1, rfl⟩, by decide⟩
    · exact ⟨⟨2, rfl⟩, by decide⟩
    · exact ⟨⟨3, rfl⟩, by decide⟩

/-- The alignment that a member's place shows; the first place shows that of its record. -/
def shownAlignment (align offset : Nat) : Nat := if offset = 0 then align else Nat.gcd offset 8

/-- The packing that explains why a record is aligned below what its members ask for. -/
def explainedPack (align : Nat) (ms : List LayoutMember) : Option Nat :=
  if align < largest 1 (ms.map (·.requested)) then some align else none

namespace LayoutMember

/-- The alignments of a member are alignments. -/
structure Regular (m : LayoutMember) : Prop where
  align : IsAlignment m.align
  explicit : ∀ e ∈ m.explicit, IsAlignment e

/-- A member as it is, or with the explicit alignment that its place in a record shows. -/
inductive Written (align offset : Nat) (m : LayoutMember) : LayoutMember → Prop
  | same : Written align offset m m
  | shown (h : m.explicit.isSome = true) :
      Written align offset m { m with explicit := some (shownAlignment align offset) }

variable {m m' : LayoutMember} {pack : Option Nat} {align offset : Nat}

theorem Regular.requested (hm : m.Regular) : IsAlignment m.requested := by
  unfold LayoutMember.requested
  split
  · exact ⟨⟨0, rfl⟩, by decide⟩
  · rename_i e he
    exact hm.explicit _ he
  · exact hm.align
  · rename_i e he
    have := hm.explicit _ he
    exact ⟨isPowerOfTwo_max hm.align.1 this.1, Nat.max_le.2 ⟨hm.align.2, this.2⟩⟩

theorem Regular.effective (hm : m.Regular) (hpack : ∀ p ∈ pack, p.isPowerOfTwo) :
    IsAlignment (m.effective pack) := by
  unfold LayoutMember.effective
  cases pack with
  | none => exact hm.requested
  | some p =>
    exact ⟨isPowerOfTwo_min hm.requested.1 (hpack p rfl), Nat.le_trans (Nat.min_le_left _ _) hm.requested.2⟩

/-- What a member asks for, cut off at the alignment of its record, is its effective alignment: the
packing lies between the two. -/
theorem min_requested (hpack : ∀ p ∈ pack, align ≤ p) (hle : m.effective pack ≤ align) :
    min m.requested align = m.effective pack := by
  unfold LayoutMember.effective at hle ⊢
  cases pack with
  | none => exact Nat.min_eq_left hle
  | some p =>
    have := hpack p rfl
    dsimp only at hle ⊢
    omega

/-- The alignment that a place shows is no smaller than the one it was chosen for. -/
theorem le_shownAlignment {a : Nat} (ha : IsAlignment a) (hle : a ≤ align) (hoff : a ∣ offset) :
    a ≤ shownAlignment align offset := by
  unfold shownAlignment
  split
  · exact hle
  · have hdvd := Nat.dvd_gcd hoff (isAlignment_iff.1 ha)
    exact Nat.le_of_dvd (Nat.gcd_pos_of_pos_right offset (by decide)) hdvd

theorem shownAlignment_isAlignment (offset : Nat) (ha : IsAlignment align) :
    IsAlignment (shownAlignment align offset) := by
  unfold shownAlignment
  split
  · exact ha
  · exact isAlignment_iff.2 (Nat.gcd_dvd_right offset 8)

/-- What a member asks for with a shown alignment: that alone if it is packed, and otherwise no less
than its type does. -/
theorem requested_shown {e : Nat} : { m with explicit := some e }.requested =
    if m.packed then e else max m.align e := by
  unfold LayoutMember.requested
  cases m.packed <;> rfl

theorem align_le_requested (h : m.packed = false) : m.align ≤ m.requested := by
  unfold LayoutMember.requested
  rw [h]
  cases m.explicit with
  | none => exact Nat.le_refl _
  | some e => exact Nat.le_max_left _ _

/-- **A member written otherwise fits its place**: cut off at the alignment of its record, what it asks
for is a power of two, a multiple of the effective alignment, and divides the offset. -/
theorem Written.fits (h : Written align offset m m') (hm : m.Regular) (halign : IsAlignment align)
    (hpow : ∀ p ∈ pack, p.isPowerOfTwo) (hpack : ∀ p ∈ pack, align ≤ p) (hle : m.effective pack ≤ align)
    (hoff : m.effective pack ∣ offset) :
    (min m'.requested align).isPowerOfTwo ∧ m.effective pack ∣ min m'.requested align ∧
      min m'.requested align ∣ offset := by
  have heff := hm.effective hpow
  have hmin := min_requested hpack hle
  cases h with
  | same => rw [hmin]; exact ⟨heff.1, Nat.dvd_refl _, hoff⟩
  | shown hsome =>
    have hshown := shownAlignment_isAlignment offset halign
    have hge := le_shownAlignment heff hle hoff
    -- the shown alignment, and what the type asks for below the packing, divide the offset
    have hdvd : min (shownAlignment align offset) align ∣ offset := by
      unfold shownAlignment
      split
      · rename_i h0; rw [h0]; exact Nat.dvd_zero _
      · have hgcd := isAlignment_iff.2 (Nat.gcd_dvd_right offset 8)
        have := dvd_of_le_of_isPowerOfTwo (isPowerOfTwo_min hgcd.1 halign.1) hgcd.1 (Nat.min_le_left _ _)
        exact Nat.dvd_trans this (Nat.gcd_dvd_left offset 8)
    -- a type asks for no more than its member does
    have htype : m.packed = false → min m.align align ∣ offset := by
      intro hp
      have hlow : min m.align align ≤ m.effective pack := by
        have := align_le_requested hp
        omega
      have hpower := isPowerOfTwo_min hm.align.1 halign.1
      exact Nat.dvd_trans (dvd_of_le_of_isPowerOfTwo hpower heff.1 hlow) hoff
    rw [requested_shown]
    cases hp : m.packed with
    | true =>
      rw [if_pos rfl]
      have hpower := isPowerOfTwo_min hshown.1 halign.1
      exact ⟨hpower, dvd_of_le_of_isPowerOfTwo heff.1 hpower (by omega), hdvd⟩
    | false =>
      rw [if_neg Bool.false_ne_true]
      have hpower := isPowerOfTwo_min (isPowerOfTwo_max hm.align.1 hshown.1) halign.1
      refine ⟨hpower, dvd_of_le_of_isPowerOfTwo heff.1 hpower (by omega), ?_⟩
      rcases Nat.le_total m.align (shownAlignment align offset) with hcmp | hcmp
      · rw [Nat.max_eq_right hcmp]; exact hdvd
      · rw [Nat.max_eq_left hcmp]; exact htype hp

end LayoutMember

/-! ## The layout -/

/-- What a member written otherwise does in its place under another packing. -/
structure Refits (pack pack' : Option Nat) (align offset : Nat) (m m' : LayoutMember) : Prop where
  size : m'.size = m.size
  positive : 0 < m'.effective pack'
  coarser : m.effective pack ∣ m'.effective pack'
  fits : m'.effective pack' ∣ offset
  le : m'.effective pack' ≤ align

section Layout

variable {pack pack' : Option Nat} {align position : Nat} {ms ms' : List LayoutMember}

theorem length_offsetsFrom (pack : Option Nat) (position : Nat) (ms : List LayoutMember) :
    (offsetsFrom pack position ms).1.length = ms.length := by
  induction ms generalizing position with
  | nil => rfl
  | cons m ms ih => rw [offsetsFrom, List.length_cons, List.length_cons, ih]

/-- Each member of a struct is at a multiple of its effective alignment. -/
theorem dvd_offsetsFrom : ∀ {position : Nat} {ms : List LayoutMember},
    ∀ x ∈ ms.zip (offsetsFrom pack position ms).1, x.1.effective pack ∣ x.2
  | _, [], x, hx => by simp at hx
  | position, m :: ms, x, hx => by
    rw [offsetsFrom, List.zip_cons_cons] at hx
    rcases List.mem_cons.1 hx with rfl | hx
    · exact dvd_nextMultiple
    · exact dvd_offsetsFrom x hx

/-- **Members that fit their places stay there.** -/
theorem offsetsFrom_eq (h : List.Forall₂ (fun x m' => Refits pack pack' align x.2 x.1 m')
    (ms.zip (offsetsFrom pack position ms).1) ms') :
    offsetsFrom pack' position ms' = offsetsFrom pack position ms := by
  induction ms generalizing position ms' with
  | nil => cases h; rfl
  | cons m ms ih =>
    rw [offsetsFrom, List.zip_cons_cons] at h
    cases h with
    | @cons _ m' _ rest hm hrest =>
      have hpos := Nat.pos_of_dvd_of_pos hm.coarser hm.positive
      -- the place is a multiple of the new alignment too, so it is the next one for both
      have hoffset := nextMultiple_eq hpos hm.coarser hm.positive hm.fits
      rw [offsetsFrom, offsetsFrom, hoffset, hm.size, ih hrest]

theorem layout_align (kind : RecordKind) :
    (layout kind pack ms).align = largest 1 (ms.map (·.effective pack)) := by
  cases kind <;> rfl

theorem layout_size (kind : RecordKind) (pack : Option Nat) (ms : List LayoutMember) :
    (layout kind pack ms).size = nextMultiple (extent kind pack ms) (layout kind pack ms).align := by
  cases kind <;> rfl

theorem layout_align_pos (kind : RecordKind) : 0 < (layout kind pack ms).align := by
  rw [layout_align]
  exact start_le_largest

theorem effective_le_align (kind : RecordKind) {m : LayoutMember} (hm : m ∈ ms) :
    m.effective pack ≤ (layout kind pack ms).align := by
  rw [layout_align]
  exact le_largest (List.mem_map_of_mem hm)

theorem length_offsets (kind : RecordKind) : (layout kind pack ms).offsets.length = ms.length := by
  cases kind with
  | struct => exact length_offsetsFrom pack 0 ms
  | union => exact List.length_map _

/-- Each member is at a multiple of its effective alignment. -/
theorem dvd_offsets (kind : RecordKind) :
    ∀ x ∈ ms.zip (layout kind pack ms).offsets, x.1.effective pack ∣ x.2 := by
  cases kind with
  | struct => exact dvd_offsetsFrom
  | union =>
    intro x hx
    obtain ⟨m, -, h0⟩ := List.mem_map.1 (List.of_mem_zip hx).2
    rw [← h0]
    exact Nat.dvd_zero _

/-- What holds of members and their offsets holds of the members. -/
theorem forall₂_of_zip {R : LayoutMember → Nat → LayoutMember → Prop} {offsets : List Nat}
    (hlen : offsets.length = ms.length) (h : List.Forall₂ (fun x m' => R x.1 x.2 m') (ms.zip offsets) ms') :
    List.Forall₂ (fun m m' => ∃ offset, R m offset m') ms ms' := by
  induction ms generalizing offsets ms' with
  | nil => cases h; exact .nil
  | cons m ms ih =>
    cases offsets with
    | nil => simp at hlen
    | cons offset offsets =>
      rw [List.zip_cons_cons] at h
      cases h with
      | cons hm hrest => exact .cons ⟨offset, hm⟩ (ih (by simpa using hlen) hrest)

/-- Members that fit their places keep them, and the last of them ends where it did. -/
theorem places_eq (h : List.Forall₂ (fun x m' => Refits pack pack' align x.2 x.1 m')
    (ms.zip (layout kind pack ms).offsets) ms') :
    (layout kind pack' ms').offsets = (layout kind pack ms).offsets ∧
      extent kind pack' ms' = extent kind pack ms := by
  cases kind with
  | struct =>
    have hplaces := offsetsFrom_eq h
    exact ⟨congrArg Prod.fst hplaces, congrArg Prod.snd hplaces⟩
  | union =>
    have hmembers := forall₂_of_zip (R := fun m offset m' => Refits pack pack' align offset m m')
      (length_offsets .union) h
    have hzeros := map_eq_map_of_forall₂ (hmembers.imp fun m m' _ => (rfl : (fun _ => 0) m = (fun _ => 0) m'))
    have hsizes := map_eq_map_of_forall₂ (hmembers.imp fun m m' ⟨_, hm⟩ => hm.size.symm)
    exact ⟨hzeros.symm, congrArg (largest 0) hsizes.symm⟩

/-- Members that fit their places are aligned no less together, and no more than their record. -/
theorem align_bounds (halign : 0 < align) (h : List.Forall₂ (fun x m' => Refits pack pack' align x.2 x.1 m')
    (ms.zip (layout kind pack ms).offsets) ms') :
    (layout kind pack ms).align ≤ (layout kind pack' ms').align ∧ (layout kind pack' ms').align ≤ align := by
  have hmembers := forall₂_of_zip (R := fun m offset m' => Refits pack pack' align offset m m')
    (length_offsets kind) h
  constructor
  · rw [layout_align, largest_le_iff]
    refine ⟨layout_align_pos kind, fun b hb => ?_⟩
    obtain ⟨m, hm, rfl⟩ := List.mem_map.1 hb
    obtain ⟨m', hm', offset, hfit⟩ := forall₂_exists_of_mem_left hmembers hm
    exact Nat.le_trans (Nat.le_of_dvd hfit.positive hfit.coarser) (effective_le_align kind hm')
  · rw [layout_align, largest_le_iff]
    refine ⟨halign, fun b hb => ?_⟩
    obtain ⟨m', hm', rfl⟩ := List.mem_map.1 hb
    obtain ⟨m, -, offset, hfit⟩ := forall₂_exists_of_mem_right hmembers hm'
    exact hfit.le

/-- **A record whose members fit their places has the same layout.** -/
theorem layout_eq {kind : RecordKind} (h : List.Forall₂
    (fun x m' => Refits pack pack' (layout kind pack ms).align x.2 x.1 m')
    (ms.zip (layout kind pack ms).offsets) ms') : layout kind pack' ms' = layout kind pack ms := by
  obtain ⟨hplaces, hextent⟩ := places_eq h
  obtain ⟨hlow, hhigh⟩ := align_bounds (layout_align_pos kind) h
  have halign := Nat.le_antisymm hhigh hlow
  have hsize : (layout kind pack' ms').size = (layout kind pack ms).size := by
    rw [layout_size, layout_size, hextent, halign]
  exact Layout.ext hplaces hsize halign

/-- Under the packing that explains an alignment, the members get what they ask for, cut off at it. -/
theorem effective_explainedPack (align : Nat) {m : LayoutMember} (hm : m ∈ ms) :
    m.effective (explainedPack align ms) = min m.requested align := by
  unfold explainedPack
  split
  · rfl
  · rename_i hle
    have : m.requested ≤ largest 1 (ms.map (·.requested)) := le_largest (List.mem_map_of_mem hm)
    unfold LayoutMember.effective
    dsimp only
    omega

/-- The alignment of a record is one, or the effective alignment of a member. -/
theorem layout_isAlignment (kind : RecordKind) (hpow : ∀ p ∈ pack, p.isPowerOfTwo) (hms : ∀ m ∈ ms, m.Regular) :
    IsAlignment (layout kind pack ms).align := by
  rw [layout_align]
  rcases largest_mem (l := ms.map (·.effective pack)) with h1 | hmem
  · rw [h1]; exact ⟨⟨0, rfl⟩, by decide⟩
  · obtain ⟨m, hm, he⟩ := List.mem_map.1 hmem
    rw [← he]; exact (hms m hm).effective hpow

/-- **A layout does not change when members are written with the alignments that their places show**
and the record under the packing that explains its alignment. -/
theorem layout_written {kind : RecordKind} (hpow : ∀ p ∈ pack, p.isPowerOfTwo) (hms : ∀ m ∈ ms, m.Regular)
    (h : List.Forall₂ (fun x m' => LayoutMember.Written (layout kind pack ms).align x.2 x.1 m')
      (ms.zip (layout kind pack ms).offsets) ms') :
    layout kind (explainedPack (layout kind pack ms).align ms') ms' = layout kind pack ms := by
  have halign := layout_isAlignment kind hpow hms
  -- no member is aligned beyond the packing, so the record is not
  have hpack : ∀ p ∈ pack, (layout kind pack ms).align ≤ p := by
    intro p hp
    rw [layout_align, largest_le_iff]
    refine ⟨Nat.pos_of_isPowerOfTwo (hpow p hp), fun a ha => ?_⟩
    obtain ⟨m, -, rfl⟩ := List.mem_map.1 ha
    rw [Option.mem_def.1 hp]
    exact Nat.min_le_right _ _
  refine layout_eq (forall₂_imp_of_mem h fun x hx m' hm' hwritten => ?_)
  have hx' := (List.of_mem_zip hx).1
  have hregular := hms x.1 hx'
  have hfits := hwritten.fits hregular halign hpow hpack (effective_le_align kind hx') (dvd_offsets kind x hx)
  have hmin := effective_explainedPack (layout kind pack ms).align hm'
  constructor
  case size => cases hwritten <;> rfl
  case positive => rw [hmin]; exact Nat.pos_of_isPowerOfTwo hfits.1
  case coarser => rw [hmin]; exact hfits.2.1
  case fits => rw [hmin]; exact hfits.2.2
  case le => rw [hmin]; exact Nat.min_le_right _ _

end Layout

end TrapStub
