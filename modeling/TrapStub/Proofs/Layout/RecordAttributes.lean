import TrapStub.Proofs.Layout.Rule

/-!
# Attributes of records

A struct or union may be packed or aligned as a whole, under a `#pragma pack` or none. When its
attributes are kept and its packing is lost, the layout is the same only if every member stays in its
place.

* `RecordAttributes`, `attributedLayout`: the layout rule with the attributes of a record.
* `RecordAttributes.Fits`: a member asks for no more than its place and its record give.
* `attributedLayout_plain`: without attributes it is the rule for members.
* `attributedLayout_written`: **without the packing the layout is the same exactly when each member fits.**
-/

namespace TrapStub

/-! ## The layout rule -/

/-- The attributes of a record. -/
structure RecordAttributes where
  packed : Bool
  /-- What it is aligned to. -/
  aligned : Option Nat
  deriving DecidableEq, Repr

namespace RecordAttributes

def plain : RecordAttributes := ⟨false, none⟩

/-- A member of a record with the attributes: every member of a packed record is packed. -/
def member (a : RecordAttributes) (m : LayoutMember) : LayoutMember :=
  { m with packed := m.packed || a.packed }

/-- The attributes as they are recorded: it is the record that tells what it is aligned to. -/
def alignedTo (a : RecordAttributes) (align : Nat) : RecordAttributes :=
  { a with aligned := a.aligned.map fun _ => align }

/-- A member stays in its place without a packing: it asks for no more than the place and the record
give. -/
def Fits (a : RecordAttributes) (align : Nat) (m : LayoutMember) (offset : Nat) : Prop :=
  (a.member m).requested ∣ offset ∧ (a.member m).requested ≤ align

end RecordAttributes

/-- The layout of a struct or union with attributes under a packing. An alignment of the record adds to
those of its members, and the size is rounded up to it. -/
def attributedLayout (kind : RecordKind) (pack : Option Nat) (a : RecordAttributes) (ms : List LayoutMember) :
    Layout :=
  let inner := layout kind pack (ms.map a.member)
  let align := max inner.align (a.aligned.getD 1)
  ⟨inner.offsets, nextMultiple inner.size align, align⟩

/-! ## Members written otherwise -/

namespace LayoutMember

variable {m m' : LayoutMember} {pack : Option Nat} {align offset : Nat}

theorem effective_le_requested : m.effective pack ≤ m.requested := by
  cases pack with
  | none => exact Nat.le_refl _
  | some p => exact Nat.min_le_left _ _

theorem Written.regular (h : Written align offset m m') (hm : m.Regular) (halign : IsAlignment align) :
    m'.Regular := by
  cases h with
  | same => exact hm
  | shown hsome =>
    refine ⟨hm.align, ?_⟩
    rintro _ ⟨⟩
    exact shownAlignment_isAlignment offset halign

/-- A member written otherwise asks for no less than it got. -/
theorem Written.effective_dvd (h : Written align offset m m') (hm : m.Regular) (halign : IsAlignment align)
    (hpow : ∀ p ∈ pack, p.isPowerOfTwo) (hle : m.effective pack ≤ align) (hoff : m.effective pack ∣ offset) :
    m.effective pack ∣ m'.requested := by
  have heff := hm.effective hpow
  have hrequested := (h.regular hm halign).requested
  have hless : m.effective pack ≤ m'.requested := by
    cases h with
    | same => exact effective_le_requested
    | shown hsome =>
      have hshown := le_shownAlignment heff hle hoff
      rw [requested_shown]
      cases m.packed with
      | true => rwa [if_pos rfl]
      | false =>
        rw [if_neg Bool.false_ne_true]
        exact Nat.le_trans hshown (Nat.le_max_right _ _)
  exact dvd_of_le_of_isPowerOfTwo heff.1 hrequested.1 hless

/-- A member whose alignment is read as it is, is written as it is. -/
theorem Written.eq_of_explicit (h : Written align offset m m') (he : m'.explicit = m.explicit) : m' = m := by
  cases h with
  | same => rfl
  | shown hsome =>
    obtain ⟨_, _, _, _⟩ := m
    cases he
    rfl

end LayoutMember

/-- What holds of related members and of the places of the one holds of both. -/
theorem forall₂_zip_and {R : LayoutMember × Nat → LayoutMember → Prop} {P : LayoutMember → Nat → Prop}
    {ms ms' : List LayoutMember} {offsets : List Nat} (h : List.Forall₂ R (ms.zip offsets) ms')
    (hP : ∀ y ∈ ms'.zip offsets, P y.1 y.2) :
    List.Forall₂ (fun x m' => R x m' ∧ P m' x.2) (ms.zip offsets) ms' := by
  induction ms generalizing offsets ms' with
  | nil => cases h; exact .nil
  | cons m ms ih =>
    cases offsets with
    | nil => cases h; exact .nil
    | cons offset offsets =>
      rw [List.zip_cons_cons] at h ⊢
      cases h with
      | cons hm hrest =>
        rw [List.zip_cons_cons] at hP
        have hplaces := List.forall_mem_cons.1 hP
        exact .cons ⟨hm, hplaces.1⟩ (ih hrest hplaces.2)

namespace RecordAttributes

variable {a : RecordAttributes} {m m' : LayoutMember} {align offset : Nat}

theorem member_regular (hm : m.Regular) : (a.member m).Regular := ⟨hm.align, hm.explicit⟩

theorem member_written (h : LayoutMember.Written align offset m m') :
    LayoutMember.Written align offset (a.member m) (a.member m') := by
  cases h with
  | same => exact .same
  | shown hsome => exact .shown hsome

theorem member_plain (ms : List LayoutMember) : ms.map plain.member = ms := by
  refine (List.map_congr_left fun m _ => ?_).trans ms.map_id
  unfold member plain
  rw [Bool.or_false, id]

end RecordAttributes

section AttributedLayout

variable {pack : Option Nat} {a : RecordAttributes} {ms ms' : List LayoutMember} {kind : RecordKind}

/-- Without attributes it is the layout of the members. -/
theorem attributedLayout_plain (kind : RecordKind) (pack : Option Nat) (ms : List LayoutMember) :
    attributedLayout kind pack .plain ms = layout kind pack ms := by
  have hpos : 0 < (layout kind pack ms).align := layout_align_pos kind
  have halign : max (layout kind pack ms).align 1 = (layout kind pack ms).align := Nat.max_eq_left hpos
  have hsize : nextMultiple (layout kind pack ms).size (layout kind pack ms).align = (layout kind pack ms).size := by
    rw [layout_size]
    exact nextMultiple_nextMultiple hpos hpos (Nat.dvd_refl _)
  unfold attributedLayout
  rw [RecordAttributes.member_plain]
  dsimp only [RecordAttributes.plain, Option.getD_none]
  rw [halign, hsize]

theorem length_attributedOffsets : (attributedLayout kind pack a ms).offsets.length = ms.length :=
  (length_offsets kind).trans (List.length_map _)

/-- The members of a record are aligned to an alignment together, and so is the record. -/
theorem attributedLayout_isAlignment (kind : RecordKind) (hpow : ∀ p ∈ pack, p.isPowerOfTwo)
    (hms : ∀ m ∈ ms, m.Regular) (ha : ∀ n ∈ a.aligned, IsAlignment n) :
    IsAlignment (layout kind pack (ms.map a.member)).align ∧ IsAlignment (attributedLayout kind pack a ms).align := by
  have hinner : IsAlignment (layout kind pack (ms.map a.member)).align := by
    refine layout_isAlignment kind hpow fun _ hmem => ?_
    obtain ⟨m, hm, rfl⟩ := List.mem_map.1 hmem
    exact RecordAttributes.member_regular (hms m hm)
  have hown : IsAlignment (a.aligned.getD 1) := by
    cases he : a.aligned with
    | none => exact ⟨⟨0, rfl⟩, by decide⟩
    | some n => exact ha n he
  exact ⟨hinner, isPowerOfTwo_max hinner.1 hown.1, Nat.max_le.2 ⟨hinner.2, hown.2⟩⟩

/-- The size of a record is where its last member ends, rounded up once. -/
theorem attributedLayout_size (kind : RecordKind) (hpow : ∀ p ∈ pack, p.isPowerOfTwo)
    (hms : ∀ m ∈ ms, m.Regular) (ha : ∀ n ∈ a.aligned, IsAlignment n) :
    (attributedLayout kind pack a ms).size =
      nextMultiple (extent kind pack (ms.map a.member)) (attributedLayout kind pack a ms).align := by
  obtain ⟨hinner, halign⟩ := attributedLayout_isAlignment kind hpow hms ha
  have hdvd := dvd_of_le_of_isPowerOfTwo hinner.1 halign.1 (Nat.le_max_left _ _)
  have hsize : (attributedLayout kind pack a ms).size =
    nextMultiple (layout kind pack (ms.map a.member)).size (attributedLayout kind pack a ms).align := rfl
  rw [hsize, layout_size]
  exact nextMultiple_nextMultiple (Nat.pos_of_isPowerOfTwo hinner.1) (Nat.pos_of_isPowerOfTwo halign.1) hdvd

/-- Each member is at a multiple of its effective alignment, and its record is aligned no less. -/
theorem attributedLayout_place : ∀ x ∈ ms.zip (attributedLayout kind pack a ms).offsets,
    (a.member x.1).effective pack ∣ x.2 ∧
      (a.member x.1).effective pack ≤ (attributedLayout kind pack a ms).align := by
  intro x hx
  have hmem : a.member x.1 ∈ ms.map a.member := List.mem_map_of_mem (List.of_mem_zip hx).1
  have hzip : (a.member x.1, x.2) ∈ (ms.map a.member).zip (layout kind pack (ms.map a.member)).offsets := by
    rw [List.zip_map_left]
    exact List.mem_map_of_mem hx
  exact ⟨dvd_offsets kind _ hzip, Nat.le_trans (effective_le_align kind hmem) (Nat.le_max_left _ _)⟩

/-- In a layout without a packing each member fits its place. -/
theorem fits_of_attributedLayout {a' : RecordAttributes} {L : Layout} (ha' : a'.packed = a.packed)
    (h : attributedLayout kind none a' ms' = L) : ∀ y ∈ ms'.zip L.offsets, a.Fits L.align y.1 y.2 := by
  subst h
  intro y hy
  have hsame : a'.member y.1 = a.member y.1 := by
    unfold RecordAttributes.member
    rw [ha']
  have hplace := attributedLayout_place y hy
  rw [hsame] at hplace
  exact hplace

/-- Members that a packing does not cut fit their places. -/
theorem fits_of_uncut {L : Layout} (hL : attributedLayout kind pack a ms = L)
    (huncut : ∀ p ∈ pack, ∀ m ∈ ms, (a.member m).requested ≤ p) :
    ∀ x ∈ ms.zip L.offsets, a.Fits L.align x.1 x.2 := by
  subst hL
  intro x hx
  have heff : (a.member x.1).effective pack = (a.member x.1).requested := by
    cases hp : pack with
    | none => rfl
    | some p => exact Nat.min_eq_left (huncut p hp x.1 (List.of_mem_zip hx).1)
  have hplace := attributedLayout_place x hx
  rw [heff] at hplace
  exact hplace

/-- Members that fit and are written with the alignments that their places show keep their places. -/
theorem refits_of_fits {L : Layout} (hL : attributedLayout kind pack a ms = L)
    (hpow : ∀ p ∈ pack, p.isPowerOfTwo) (hms : ∀ m ∈ ms, m.Regular) (ha : ∀ n ∈ a.aligned, IsAlignment n)
    (h : List.Forall₂ (fun x m' => LayoutMember.Written L.align x.2 x.1 m') (ms.zip L.offsets) ms')
    (hfits : ∀ y ∈ ms'.zip L.offsets, a.Fits L.align y.1 y.2) :
    List.Forall₂ (fun x m' => Refits pack none L.align x.2 x.1 m')
      ((ms.map a.member).zip (layout kind pack (ms.map a.member)).offsets) (ms'.map a.member) := by
  have halign := (attributedLayout_isAlignment kind hpow hms ha).2
  subst hL
  rw [List.zip_map_left, List.forall₂_map_left_iff, List.forall₂_map_right_iff]
  refine forall₂_imp_of_mem (forall₂_zip_and h hfits) fun x hx m' _ ⟨hwritten, hfit⟩ => ?_
  have hregular := RecordAttributes.member_regular (a := a) (hms x.1 (List.of_mem_zip hx).1)
  have hwritten' := RecordAttributes.member_written (a := a) hwritten
  obtain ⟨hoffset, hle⟩ := attributedLayout_place x hx
  constructor
  case size => cases hwritten <;> rfl
  case positive => exact Nat.pos_of_isPowerOfTwo (hwritten'.regular hregular halign).requested.1
  case coarser => exact hwritten'.effective_dvd hregular halign hpow hle hoffset
  case fits => exact hfit.1
  case le => exact hfit.2

/-- What the members ask for without a packing lies between what they got and the alignment of the
record, so the record is aligned as before. -/
theorem attributedLayout_align_eq {L : Layout} (hL : attributedLayout kind pack a ms = L)
    (hlow : (layout kind pack (ms.map a.member)).align ≤ (layout kind none (ms'.map a.member)).align)
    (hhigh : (layout kind none (ms'.map a.member)).align ≤ L.align) :
    (attributedLayout kind none (a.alignedTo L.align) ms').align = L.align := by
  have hrecord : max (layout kind pack (ms.map a.member)).align (a.aligned.getD 1) = L.align := by
    rw [← hL]
    rfl
  show max (layout kind none (ms'.map a.member)).align ((a.aligned.map fun _ => L.align).getD 1) = L.align
  cases he : a.aligned with
  | none =>
    have hpos : 0 < (layout kind pack (ms.map a.member)).align := layout_align_pos kind
    rw [he, Option.getD_none] at hrecord
    rw [Option.map_none, Option.getD_none]
    omega
  | some n =>
    rw [Option.map_some, Option.getD_some]
    exact Nat.max_eq_right hhigh

/-- **A record with attributes loses no more than its packing.** Its members are written with the
alignments that their places show, and the record with its own alignment. Without the packing the
layout is the same exactly when each member fits its place. -/
theorem attributedLayout_written {L : Layout} (hL : attributedLayout kind pack a ms = L)
    (hpow : ∀ p ∈ pack, p.isPowerOfTwo) (hms : ∀ m ∈ ms, m.Regular) (ha : ∀ n ∈ a.aligned, IsAlignment n)
    (h : List.Forall₂ (fun x m' => LayoutMember.Written L.align x.2 x.1 m') (ms.zip L.offsets) ms') :
    attributedLayout kind none (a.alignedTo L.align) ms' = L ↔
      ∀ y ∈ ms'.zip L.offsets, a.Fits L.align y.1 y.2 := by
  refine ⟨fits_of_attributedLayout rfl, fun hfits => ?_⟩
  have hrefits := refits_of_fits hL hpow hms ha h hfits
  have halign : IsAlignment L.align := hL ▸ (attributedLayout_isAlignment kind hpow hms ha).2
  have hms' : ∀ m' ∈ ms', m'.Regular := by
    intro m' hm'
    obtain ⟨x, hx, hwritten⟩ := forall₂_exists_of_mem_right h hm'
    exact hwritten.regular (hms x.1 (List.of_mem_zip hx).1) halign
  have ha' : ∀ n ∈ (a.alignedTo L.align).aligned, IsAlignment n := by
    intro n hn
    obtain ⟨_, -, rfl⟩ := Option.map_eq_some_iff.1 hn
    exact halign
  have hnone : ∀ p ∈ (none : Option Nat), p.isPowerOfTwo := fun p hp => absurd hp (Option.not_mem_none p)
  obtain ⟨hplaces, hextent⟩ := places_eq hrefits
  obtain ⟨hlow, hhigh⟩ := align_bounds (Nat.pos_of_isPowerOfTwo halign.1) hrefits
  have hwhole := attributedLayout_align_eq hL hlow hhigh
  have hoffsets : (attributedLayout kind none (a.alignedTo L.align) ms').offsets = L.offsets := by
    rw [← hL]
    exact hplaces
  have hsize : (attributedLayout kind none (a.alignedTo L.align) ms').size = L.size := calc
    _ = nextMultiple (extent kind none (ms'.map a.member)) L.align := by
      rw [attributedLayout_size kind hnone hms' ha', hwhole]
      rfl
    _ = nextMultiple (extent kind pack (ms.map a.member)) L.align := by rw [hextent]
    _ = L.size := by rw [← hL, attributedLayout_size kind hpow hms ha]
  exact Layout.ext hoffsets hsize hwhole

end AttributedLayout

end TrapStub
