import Mathlib.Data.List.Induction
import TrapStub.Proofs.Layout.Rule
import TrapStub.Proofs.Text.Identifiers
import TrapStub.Survey.Convert

/-!
# Alignment attributes

What an `aligned` attribute asks for, as C reads it, and what the survey reads of it. The number of an
attribute that comes out of a macro is not seen; what stands for it is the alignment that the
member's place shows.

* `Alignment.Spells`, `Alignment.Reads`: the numbers that literals and arguments spell in C.
* `Alignment.ofArgument_of_reads`: **an alignment is read as C reads it.**
* `Source.AlignedAttribute`, `Source.HasArgument`: the forms of an attribute, with `Source.alignmentText?_eq` and
  `Source.alignmentText?_argument` for their texts.
* `Source.memberAttributes_eq`: the attributes of a member.
-/

namespace TrapStub

namespace Alignment

/-- The number that C reads in a decimal or hexadecimal literal. -/
inductive Spells : Text → Nat → Prop
  | decimal {n : Nat} {suffix : Text} (hn : 0 < n) (hs : ∀ g ∈ suffix, isSuffix g = true) :
      Spells (Text.natural n ++ suffix) n
  | hexadecimal {x : Glyph} {digits suffix : Text} {values : List Nat}
      (hx : x = .char 'x' ∨ x = .char 'X') (hne : digits ≠ []) (hd : digits.mapM hexDigit? = some values)
      (hs : ∀ g ∈ suffix, isSuffix g = true) :
      Spells (.char '0' :: x :: digits ++ suffix) (ofDigits 16 values)

/-- What C reads in the argument of an `aligned` attribute, if there is one. -/
inductive Reads : Option Text → Option Nat → Prop
  | absent : Reads none none
  | bare : Reads (some []) (some 8)
  | number {w : Text} {e : Nat} (h : Spells w e) : Reads (some w) (some e)

theorem isSuffix_iff {g : Glyph} :
    isSuffix g = true ↔ g = .char 'u' ∨ g = .char 'U' ∨ g = .char 'l' ∨ g = .char 'L' := by
  simp only [isSuffix, Glyph.is, Bool.or_eq_true, beq_iff_eq, or_assoc]

/-- A hexadecimal digit is no letter of a suffix. -/
theorem not_isSuffix_of_hexDigit? {g : Glyph} (h : (hexDigit? g).isSome = true) : isSuffix g = false := by
  rw [Bool.eq_false_iff]
  intro hs
  rcases isSuffix_iff.1 hs with rfl | rfl | rfl | rfl <;> exact absurd h (by decide)

theorem not_isAsciiDigit_of_isSuffix {g : Glyph} (h : isSuffix g = true) : g.isAsciiDigit = false := by
  rcases isSuffix_iff.1 h with rfl | rfl | rfl | rfl <;> decide

theorem isSome_of_mapM {f : Glyph → Option Nat} {t : Text} {values : List Nat} (h : t.mapM f = some values) :
    ∀ g ∈ t, (f g).isSome = true := by
  intro g hg
  obtain ⟨v, -, hv⟩ := forall₂_exists_of_mem_left (mapM_eq_some.1 h) hg
  rw [hv]
  rfl

theorem not_isSuffix_getLast {x : Glyph} {digits : Text} {values : List Nat} (hne : digits ≠ [])
    (hd : digits.mapM hexDigit? = some values) :
    ∀ g ∈ (Glyph.char '0' :: x :: digits).getLast?, isSuffix g = false := by
  intro g hg
  obtain ⟨d, rest, rfl⟩ := List.exists_cons_of_ne_nil hne
  rw [List.getLast?_cons_cons, List.getLast?_cons_cons] at hg
  exact not_isSuffix_of_hexDigit? (isSome_of_mapM hd g (List.mem_of_getLast? hg))

theorem hexDigits?_of_mark {x : Glyph} {digits : Text} {values : List Nat} (hx : x = .char 'x' ∨ x = .char 'X')
    (hne : digits ≠ []) (hd : digits.mapM hexDigit? = some values) :
    hexDigits? (.char '0' :: x :: digits) = some values := by
  have hmark : (x.is 'x' || x.is 'X') = true := by rcases hx with rfl | rfl <;> decide
  have hsome : digits.isEmpty = false := by rwa [List.isEmpty_eq_false_iff]
  have hzero : (Glyph.char '0').is '0' = true := by decide
  simp only [hexDigits?, hzero, hmark, hsome, Bool.not_false, Bool.and_true, if_true]
  exact hd

theorem number?_hexadecimal {x : Glyph} {digits suffix : Text} {values : List Nat}
    (hx : x = .char 'x' ∨ x = .char 'X') (hne : digits ≠ []) (hd : digits.mapM hexDigit? = some values)
    (hs : ∀ g ∈ suffix, isSuffix g = true) :
    number? (.char '0' :: x :: digits ++ suffix) = .ok (some (ofDigits 16 values)) := by
  simp only [number?, Text.trimEnd_append hs (not_isSuffix_getLast hne hd), hexDigits?_of_mark hx hne hd]

/-- An alignment in decimal digits. -/
theorem number?_decimal {n : Nat} {suffix : Text} (hn : IsAlignment n)
    (hs : ∀ g ∈ suffix, isSuffix g = true) : number? (Text.natural n ++ suffix) = .ok (some (n : Int)) := by
  have hlast : ∀ n, n = 1 ∨ n = 2 ∨ n = 4 ∨ n = 8 → ∀ g ∈ (Text.natural n).getLast?, isSuffix g = false := by
    rintro n (rfl | rfl | rfl | rfl) <;> decide
  have hcases := eq_of_dvd_eight (isAlignment_iff.1 hn)
  unfold number?
  rw [Text.trimEnd_append hs (hlast n hcases)]
  rcases hcases with rfl | rfl | rfl | rfl <;> rfl

theorem number?_of_spells {w : Text} {e : Nat} (h : Spells w e) (he : IsAlignment e) :
    number? w = .ok (some (e : Int)) := by
  cases h with
  | decimal hn hs => exact number?_decimal he hs
  | hexadecimal hx hne hd hs => exact number?_hexadecimal hx hne hd hs

/-- **An alignment is read as C reads it**, and without failing. -/
theorem ofArgument_of_reads {argument : Option Text} {e : Option Nat} (h : Reads argument e)
    (he : ∀ n ∈ e, IsAlignment n) : ofArgument argument = .ok (e.map Int.ofNat) := by
  cases h with
  | absent => rfl
  | bare => rfl
  | @number w n h =>
    have hread := number?_of_spells h (he n rfl)
    cases w with
    | nil =>
      -- an empty text is no number
      rw [show number? [] = .ok none from rfl] at hread
      cases hread
    | cons g w => exact hread

/-- A number opens with a digit. -/
theorem head_of_spells {w : Text} {e : Nat} (h : Spells w e) :
    ∃ d rest, w = .char d :: rest ∧ d.isDigit = true := by
  cases h with
  | @decimal _ suffix hn hs =>
    obtain ⟨d, rest, hd⟩ := List.exists_cons_of_ne_nil (Nat.toDigits_ne_nil (n := e) (b := 10))
    have hdigit := Nat.isDigit_of_mem_toDigits (b := 10) (n := e) (by decide) (by decide) (hd ▸ List.mem_cons_self)
    refine ⟨d, rest.map .char ++ suffix, ?_, hdigit⟩
    rw [Text.natural, hd, List.map_cons, List.cons_append]
  | hexadecimal => exact ⟨'0', _, rfl, by decide⟩

/-- A number is no parenthesis. -/
theorem ne_of_spells {w : Text} {e : Nat} (h : Spells w e) {g : Char} (hg : g.isDigit = false) :
    w ≠ [.char g] := by
  obtain ⟨d, rest, rfl, hd⟩ := head_of_spells h
  intro heq
  injection heq with hhead
  injection hhead with hchar
  rw [hchar, hg] at hd
  cases hd

/-- A number is known by the decimal digits in front of it and, when it is hexadecimal, by what is left
without its suffix. -/
theorem digits_of_spells {w : Text} {e : Nat} (h : Spells w e) :
    w.takeWhile Glyph.isAsciiDigit = Text.natural e ∧ 0 < e ∨
      w.takeWhile Glyph.isAsciiDigit = Text.natural 0 ∧ ∃ x digits values,
        Text.trimEnd isSuffix w = .char '0' :: x :: digits ∧ digits.mapM hexDigit? = some values ∧
          e = ofDigits 16 values := by
  cases h with
  | @decimal _ suffix hn hs =>
    refine Or.inl ⟨?_, hn⟩
    -- the suffix has no digits
    rw [List.takeWhile_append_of_pos (Text.natural_digits e)]
    cases suffix with
    | nil => rw [List.takeWhile_nil, List.append_nil]
    | cons g suffix =>
      have hg := not_isAsciiDigit_of_isSuffix (hs g List.mem_cons_self)
      rw [List.takeWhile_cons_of_neg (by rw [hg]; exact Bool.false_ne_true), List.append_nil]
  | @hexadecimal x digits suffix values hx hne hd hs =>
    refine Or.inr ⟨?_, x, digits, values, Text.trimEnd_append hs (not_isSuffix_getLast hne hd), hd, rfl⟩
    rcases hx with rfl | rfl <;> rfl

/-- **A text spells one number.** -/
theorem Spells.unique {w : Text} {m n : Nat} (hm : Spells w m) (hn : Spells w n) : m = n := by
  rcases digits_of_spells hm with ⟨hd, hpos⟩ | ⟨hd, x, digits, values, htrim, hvalues, rfl⟩ <;>
    rcases digits_of_spells hn with ⟨hd', hpos'⟩ | ⟨hd', x', digits', values', htrim', hvalues', rfl⟩
  · exact Text.natural_injective (hd.symm.trans hd')
  · exact absurd (Text.natural_injective (hd.symm.trans hd')) (by omega)
  · exact absurd (Text.natural_injective (hd'.symm.trans hd)) (by omega)
  · rw [htrim] at htrim'
    cases htrim'
    rw [hvalues] at hvalues'
    cases hvalues'
    rfl

/-- **An argument is read in one way.** -/
theorem Reads.unique {argument : Option Text} {m n : Option Nat} (hm : Reads argument m)
    (hn : Reads argument n) : m = n := by
  cases hm with
  | absent => cases hn; rfl
  | bare =>
    cases hn with
    | bare => rfl
    | number h => obtain ⟨_, _, hnil, -⟩ := head_of_spells h; cases hnil
  | number h =>
    cases hn with
    | bare => obtain ⟨_, _, hnil, -⟩ := head_of_spells h; cases hnil
    | number h' => rw [h.unique h']

theorem decimal_natural (n : Nat) : Text.decimal n = Text.natural n := by
  unfold Text.decimal
  rw [if_neg (by omega), Int.natAbs_natCast]

/-- What stands for an alignment that is not seen. -/
theorem spells_decimal {n : Nat} (hn : 0 < n) : Spells (Text.decimal n) n := by
  rw [decimal_natural, ← List.append_nil (Text.natural n)]
  exact .decimal hn nofun

end Alignment

namespace Source

variable {source : Source} {c : Cursor}

/-- The word that opens the tokens of an attribute when these are its own. -/
def IsAligned (word : Token) : Prop := Text.trim (·.is '_') word.spelling = "aligned"

instance (word : Token) : Decidable (IsAligned word) := inferInstanceAs (Decidable (_ = _))

/-- The forms of an attribute that asks for an alignment. The argument as written is that of the tokens,
and of the bytes that they stand at if those are at hand. -/
inductive AlignedAttribute (source : Source) (c : Cursor) : Option Text → Nat → Prop
  /-- It has no argument. -/
  | bare {word : Token} {rest : List Token} (ht : c.tokens = word :: rest) (hw : IsAligned word)
      (hr : ∀ next ∈ rest.head?, next.spelling ≠ "(") : AlignedAttribute source c (some []) 8
  /-- Its argument is a number. -/
  | literal {word opening number closing : Token} {rest : List Token} {e : Nat}
      (ht : c.tokens = word :: opening :: number :: closing :: rest) (hw : IsAligned word)
      (ho : opening.spelling = "(") (hc : closing.spelling = ")") (hn : Alignment.Spells number.spelling e)
      (hb : ∀ bytes, (c.tokenFile.bind fun file => (source.staged.relative? file).bind source.staged.bytes?) =
        some bytes → Utf8.decode (Macro.slice bytes number.start number.stop) = number.spelling) :
      AlignedAttribute source c (some number.spelling) e
  /-- It comes out of a macro, and its tokens are those of the macro. -/
  | hidden {e : Nat} (ht : ∀ word ∈ c.tokens.head?, ¬ IsAligned word) : AlignedAttribute source c none e

/-- The argument of an attribute is this text, in one token. -/
structure HasArgument (source : Source) (c : Cursor) (text : Text) : Prop where
  tokens : ∃ word opening number closing rest, c.tokens = word :: opening :: number :: closing :: rest ∧
    IsAligned word ∧ opening.spelling = "(" ∧ closing.spelling = ")" ∧ number.spelling = text ∧
    ∀ bytes, (c.tokenFile.bind fun file => (source.staged.relative? file).bind source.staged.bytes?) = some bytes →
      Utf8.decode (Macro.slice bytes number.start number.stop) = text

theorem alignmentText?_argument {text : Text} (h : source.HasArgument c text) (hopens : text ≠ "(")
    (hcloses : text ≠ ")") : source.alignmentText? c = some text := by
  obtain ⟨word, opening, number, closing, rest, ht, hw, ho, hc, rfl, hb⟩ := h.tokens
  -- the argument is no parenthesis, so the next token closes it
  have hclose : closing? (c.tokens.map (·.spelling)) 1 = some 3 := by
    have hdistinct : (")" : Text) ≠ "(" := by decide
    simp [ht, closing?, closingFrom, ho, hc, hopens, hcloses, hdistinct]
  unfold alignmentText?
  rw [ht] at hclose ⊢
  dsimp only at hclose ⊢
  rw [if_neg (by simpa [IsAligned] using hw), if_neg (by simpa using ho), hclose]
  dsimp only [List.take, List.drop, List.head?, List.getLast?, List.map, List.getLast, Text.join]
  split
  · rfl
  · rename_i bytes hbytes
    rw [hb bytes hbytes]

theorem alignmentText?_eq {text : Option Text} {e : Nat} (h : AlignedAttribute source c text e) :
    source.alignmentText? c = text := by
  cases h with
  | bare ht hw hr =>
    unfold alignmentText?
    rw [ht]
    dsimp only
    rw [if_neg (by simpa [IsAligned] using hw)]
    split
    · rfl
    · rename_i opening tail
      rw [if_pos (by simpa using hr opening rfl)]
  | @literal word opening number closing rest e ht hw ho hc hn hb =>
    have hargument : source.HasArgument c number.spelling :=
      ⟨word, opening, number, closing, rest, ht, hw, ho, hc, rfl, hb⟩
    exact alignmentText?_argument hargument (Alignment.ne_of_spells hn (by decide))
      (Alignment.ne_of_spells hn (by decide))
  | hidden ht =>
    unfold alignmentText?
    split
    · rfl
    · rename_i word rest htokens
      rw [if_pos (by simpa [IsAligned, htokens] using ht)]

/-- The children of a cursor. -/
def childrenOf (source : Source) (c : Cursor) : List Cursor := c.children.map source.unit.cursor

/-- The attributes of a member: it is packed if one of them says so, and the last that asks for an
alignment counts. -/
theorem memberAttributes_eq (offset : Option Int) : source.memberAttributes c offset =
    ((source.childrenOf c).any (·.kind == .packedAttr),
      ((source.childrenOf c).filter (·.kind == .alignedAttr)).getLast?.map fun child =>
        (source.alignmentText? child).getD
          (Text.decimal (Alignment.inferred offset (source.unit.type (source.unit.cursor c.parent).type).align))) := by
  unfold memberAttributes
  dsimp only
  change (source.childrenOf c).foldl _ _ = _
  induction source.childrenOf c using List.reverseRecOn with
  | nil => rfl
  | append_singleton rest child ih =>
    rw [List.foldl_append, ih, List.any_append, List.filter_append]
    cases hk : child.kind <;> simp [hk]

end Source

end TrapStub
