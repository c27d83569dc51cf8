import TrapStub.Proofs.Text.Runs
import TrapStub.Proofs.Word.Halves

/-!
# C expressions over words

The words of a 64-bit value are computed by casts, a shift by the width of a word and a bitwise or. Here such
expressions are trees with the text that C reads them from, and their values are those of C's unsigned arithmetic.

* `WordTerm.read?`: a text as an expression. A cast binds closer than a shift, a shift closer than the or.
* `WordTerm.value`: the value of an expression; none if C leaves it open.
* `WordTerm.Fits.read?_text`: **an expression is read off its text.**
-/

namespace TrapStub

open Text

/-- The unsigned types of a word and of two. -/
inductive Width where
  | word
  | wide
  deriving DecidableEq, Repr

/-- The name of a width's type. -/
def Width.typeName : Width → Text
  | word => "uint32_t"
  | wide => "uint64_t"

/-- The width whose type has this name. -/
def Width.ofName? (name : Text) : Option Width := [word, wide].find? (·.typeName == name)

/-- A value in C. Of an `integer` only the number is known, its type may be any integer type. -/
inductive CValue where
  | integer (n : Int)
  | word (bits : BitVec 32)
  | wide (bits : BitVec 64)
  deriving DecidableEq, Repr

/-- The number that a value stands for. -/
def CValue.toInt : CValue → Int
  | integer n => n
  | word bits => bits.toNat
  | wide bits => bits.toNat

/-- A conversion to an unsigned type keeps the number modulo the width. -/
def Width.convert (width : Width) (value : CValue) : CValue :=
  match width with
  | word => .word (BitVec.ofInt 32 value.toInt)
  | wide => .wide (BitVec.ofInt 64 value.toInt)

/-- A C expression over words. Every shift is by the width of a word. -/
inductive WordTerm where
  | named (name : Text)
  | group (inner : WordTerm)
  | cast (width : Width) (operand : WordTerm)
  | shiftLeft (operand : WordTerm)
  | shiftRight (operand : WordTerm)
  | bitOr (left right : WordTerm)
  deriving DecidableEq, Repr

/-- What a text can be read as: an operand of a cast, of a shift or of an or. -/
inductive TermLevel where
  | unary
  | shift
  | bitOr
  deriving DecidableEq, Repr

/-- How much fuel a level leaves to those above it. -/
def TermLevel.spare : TermLevel → Nat
  | .unary => 2
  | .shift => 1
  | .bitOr => 0

namespace WordTerm

/-- The text of an expression. -/
def text : WordTerm → Text
  | named name => name
  | group inner => .char '(' :: (inner.text ++ ")")
  | cast width operand => .char '(' :: (width.typeName ++ .char ')' :: operand.text)
  | shiftLeft operand => operand.text ++ " << 32"
  | shiftRight operand => operand.text ++ " >> 32"
  | bitOr left right => left.text ++ (" | " ++ right.text)

/-! ## Reading -/

/-- The expression that a text starts with, and the rest. Operators are not chained without parentheses. -/
@[simp]
def read : Nat → TermLevel → Text → Option (WordTerm × Text)
  | 0, _, _ => none
  | fuel + 1, .unary, .char '(' :: text =>
    match Width.ofName? (text.takeWhile Glyph.isWord) with
    | some width => do
      let rest ← after? ")" (text.dropWhile Glyph.isWord)
      let (operand, rest) ← read fuel .unary rest
      return (cast width operand, rest)
    | none => do
      let (inner, rest) ← read fuel .bitOr text
      let rest ← after? ")" rest
      return (group inner, rest)
  | _ + 1, .unary, text =>
    let name := text.takeWhile Glyph.isWord
    if name = [] then none else some (named name, text.dropWhile Glyph.isWord)
  | fuel + 1, .shift, text => do
    let (operand, rest) ← read fuel .unary text
    match after? " << 32" rest, after? " >> 32" rest with
    | some rest, _ => return (shiftLeft operand, rest)
    | none, some rest => return (shiftRight operand, rest)
    | none, none => return (operand, rest)
  | fuel + 1, .bitOr, text => do
    let (left, rest) ← read fuel .shift text
    match after? " | " rest with
    | some rest => do
      let (right, rest) ← read fuel .shift rest
      return (bitOr left right, rest)
    | none => return (left, rest)

/-- The expression with the given text. -/
def read? (text : Text) : Option WordTerm :=
  match read (3 * text.length) .bitOr text with
  | some (term, []) => some term
  | _ => none

/-- The text can name a variable: it is a word, and not the name of a type of words. -/
structure IsVariable (name : Text) : Prop where
  ne_nil : name ≠ []
  word : ∀ g ∈ name, g.isWord = true
  not_type : Width.ofName? name = none

/-- The expression may stand where a text is read at the level. -/
inductive Fits : TermLevel → WordTerm → Prop
  | named {name : Text} (h : IsVariable name) : Fits .unary (named name)
  | group {inner : WordTerm} (h : Fits .bitOr inner) : Fits .unary (group inner)
  | cast {operand : WordTerm} (width : Width) (h : Fits .unary operand) : Fits .unary (cast width operand)
  | unary {term : WordTerm} (h : Fits .unary term) : Fits .shift term
  | shiftLeft {operand : WordTerm} (h : Fits .unary operand) : Fits .shift (shiftLeft operand)
  | shiftRight {operand : WordTerm} (h : Fits .unary operand) : Fits .shift (shiftRight operand)
  | shift {term : WordTerm} (h : Fits .shift term) : Fits .bitOr term
  | bitOr {left right : WordTerm} (hl : Fits .shift left) (hr : Fits .shift right) : Fits .bitOr (bitOr left right)

/-- Behind an expression of the level the text does not go on with it. -/
def Stops : TermLevel → Text → Prop
  | .unary, rest => ∀ g ∈ rest.head?, g.isWord = false
  | .shift, rest => rest = [] ∨ (∃ t, rest = .char ')' :: t) ∨ ∃ t, rest = " | " ++ t
  | .bitOr, rest => rest = [] ∨ ∃ t, rest = .char ')' :: t

variable {term : WordTerm} {level : TermLevel} {rest t : Text} {name : Text}

theorem Stops.shift (h : Stops .bitOr rest) : Stops .shift rest := h.imp_right .inl

theorem Stops.unary (h : Stops .shift rest) : Stops .unary rest := by
  rcases h with rfl | ⟨t, rfl⟩ | ⟨t, rfl⟩
  · nofun
  · exact forall_head_cons (isWord_of_apart (by decide)) t
  · exact forall_head_cons (isWord_of_apart (by decide)) _

theorem Stops.of_apart {separator : Text} (hs : ∀ g ∈ separator, g.isWord = false) (hne : separator ≠ []) (t : Text) :
    Stops .unary (separator ++ t) := by
  obtain ⟨g, separator, rfl⟩ := List.exists_cons_of_ne_nil hne
  exact forall_head_cons (hs g List.mem_cons_self) _

/-- The name of a width's type is a word. -/
theorem isWord_typeName (width : Width) : ∀ g ∈ width.typeName, g.isWord = true :=
  forall_isWord (by cases width <;> decide)

theorem ofName?_typeName (width : Width) : Width.ofName? width.typeName = some width := by cases width <;> decide

/-- An expression opens with a parenthesis or with the name of a variable. -/
theorem Fits.head (h : Fits level term) : (∃ t, term.text = .char '(' :: t) ∨
    ∃ name t, IsVariable name ∧ term.text = name ++ t ∧ Stops .unary t := by
  -- what an operator puts behind an operand does not change how the operand opens
  have happend : ∀ {operand : WordTerm} (separator t : Text), (∀ g ∈ separator, g.isWord = false) → separator ≠ [] →
      ((∃ t, operand.text = .char '(' :: t) ∨
        ∃ name t, IsVariable name ∧ operand.text = name ++ t ∧ Stops .unary t) →
      (∃ u, operand.text ++ (separator ++ t) = .char '(' :: u) ∨
        ∃ name u, IsVariable name ∧ operand.text ++ (separator ++ t) = name ++ u ∧ Stops .unary u := by
    rintro operand separator t hs hne (⟨u, hu⟩ | ⟨name, u, hname, hu, hstops⟩)
    · exact .inl ⟨u ++ (separator ++ t), by rw [hu, List.cons_append]⟩
    · refine .inr ⟨name, u ++ (separator ++ t), hname, by rw [hu, List.append_assoc], ?_⟩
      cases u with
      | nil => exact Stops.of_apart hs hne t
      | cons g u => exact forall_head_cons (hstops g rfl) _
  induction h with
  | named hname => exact .inr ⟨_, [], hname, (List.append_nil _).symm, nofun⟩
  | group => exact .inl ⟨_, rfl⟩
  | cast => exact .inl ⟨_, rfl⟩
  | unary _ ih => exact ih
  | shiftLeft _ ih => exact happend " << " "32" (apart (by decide)) (by decide) ih
  | shiftRight _ ih => exact happend " >> " "32" (apart (by decide)) (by decide) ih
  | shift _ ih => exact ih
  | bitOr _ _ ih => exact happend " | " _ (apart (by decide)) (by decide) ih

/-- No expression opens with the name of a type. -/
theorem Fits.ofName?_head (h : Fits level term) (hrest : Stops .unary rest) :
    Width.ofName? ((term.text ++ rest).takeWhile Glyph.isWord) = none := by
  rcases h.head with ⟨t, ht⟩ | ⟨name, t, hname, ht, hstops⟩
  · have hopening : Glyph.isWord (.char '(') = false := isWord_of_apart (by decide)
    rw [ht, List.cons_append, List.takeWhile_cons_of_neg (by rw [hopening]; exact Bool.false_ne_true)]
    decide
  · rw [ht, List.append_assoc, takeWhile_run hname.word]
    · exact hname.not_type
    · cases t with
      | nil => exact hrest
      | cons g t => exact forall_head_cons (hstops g rfl) _

theorem Fits.length_pos (h : Fits level term) : 0 < term.text.length := by
  rcases h.head with ⟨t, ht⟩ | ⟨name, t, hname, ht, -⟩
  · rw [ht]
    exact Nat.succ_pos _
  · rw [ht, List.length_append]
    exact Nat.add_pos_left (List.length_pos_iff.2 hname.ne_nil) _

theorem read_group {fuel : Nat} (hname : Width.ofName? (t.takeWhile Glyph.isWord) = none) {rest : Text}
    (h : read fuel .bitOr t = some (term, .char ')' :: rest)) :
    read (fuel + 1) .unary (.char '(' :: t) = some (group term, rest) := by
  rw [read, hname]
  simp only [h, Option.bind_eq_bind, Option.bind_some]
  rfl

theorem read_cast {fuel : Nat} (width : Width) (h : read fuel .unary t = some (term, rest)) :
    read (fuel + 1) .unary (.char '(' :: (width.typeName ++ .char ')' :: t)) = some (cast width term, rest) := by
  have hclosing : ∀ g ∈ (Glyph.char ')' :: t).head?, g.isWord = false :=
    forall_head_cons (isWord_of_apart (by decide)) t
  have hafter : after? ")" (.char ')' :: t) = some t := after?_eq_some.2 rfl
  rw [read, takeWhile_run (isWord_typeName width) hclosing, ofName?_typeName,
    dropWhile_run (isWord_typeName width) hclosing]
  simp only [hafter, h, Option.bind_eq_bind, Option.bind_some]
  rfl

theorem read_named {fuel : Nat} (hname : IsVariable name) (hrest : Stops .unary rest) :
    read (fuel + 1) .unary (name ++ rest) = some (named name, rest) := by
  have hopening : Glyph.isWord (.char '(') = false := isWord_of_apart (by decide)
  obtain ⟨g, more, rfl⟩ := List.exists_cons_of_ne_nil hname.ne_nil
  have hne : g ≠ .char '(' := by
    rintro rfl
    rw [hname.word _ List.mem_cons_self] at hopening
    cases hopening
  have hrun := takeWhile_run hname.word hrest
  have hleft := dropWhile_run hname.word hrest
  rw [List.cons_append] at hrun hleft ⊢
  rw [read]
  · simp only [hrun, hleft, if_neg hname.ne_nil]
  · exact fun text h => hne (List.cons.inj h).1

theorem read_shift {fuel : Nat} (h : read fuel .unary t = some (term, rest)) (hrest : Stops .shift rest) :
    read (fuel + 1) .shift t = some (term, rest) := by
  have hnone : ∀ stem ∈ [(" << 32" : Text), " >> 32"], after? stem rest = none := by
    intro stem hstem
    rcases hrest with rfl | ⟨t, rfl⟩ | ⟨t, rfl⟩
    · revert stem
      decide
    · simp only [List.mem_cons, List.not_mem_nil, or_false] at hstem
      rcases hstem with rfl | rfl <;> rfl
    · simp only [List.mem_cons, List.not_mem_nil, or_false] at hstem
      rcases hstem with rfl | rfl <;> rfl
  rw [read]
  simp only [h, Option.bind_eq_bind, Option.bind_some, hnone _ List.mem_cons_self,
    hnone _ (List.mem_cons_of_mem _ List.mem_cons_self)]
  rfl

theorem read_shiftLeft {fuel : Nat} (h : read fuel .unary t = some (term, " << 32" ++ rest)) :
    read (fuel + 1) .shift t = some (shiftLeft term, rest) := by
  have hafter : after? " << 32" (" << 32" ++ rest) = some rest := after?_eq_some.2 rfl
  rw [read]
  simp only [h, Option.bind_eq_bind, Option.bind_some, hafter]
  rfl

theorem read_shiftRight {fuel : Nat} (h : read fuel .unary t = some (term, " >> 32" ++ rest)) :
    read (fuel + 1) .shift t = some (shiftRight term, rest) := by
  have hleft : after? " << 32" (" >> 32" ++ rest) = none := rfl
  have hafter : after? " >> 32" (" >> 32" ++ rest) = some rest := after?_eq_some.2 rfl
  rw [read]
  simp only [h, Option.bind_eq_bind, Option.bind_some, hleft, hafter]
  rfl

theorem read_bitOr {fuel : Nat} {right : WordTerm} {middle : Text}
    (hl : read fuel .shift t = some (term, " | " ++ middle)) (hr : read fuel .shift middle = some (right, rest)) :
    read (fuel + 1) .bitOr t = some (bitOr term right, rest) := by
  have hafter : after? " | " (" | " ++ middle) = some middle := after?_eq_some.2 rfl
  rw [read]
  simp only [hl, hr, Option.bind_eq_bind, Option.bind_some, hafter]
  rfl

theorem read_of_shift {fuel : Nat} (h : read fuel .shift t = some (term, rest)) (hrest : Stops .bitOr rest) :
    read (fuel + 1) .bitOr t = some (term, rest) := by
  have hnone : after? " | " rest = none := by
    rcases hrest with rfl | ⟨t, rfl⟩ <;> rfl
  rw [read]
  simp only [h, Option.bind_eq_bind, Option.bind_some, hnone]
  rfl

/-- Fuel for three levels in front of each glyph is enough for one step more. -/
theorem Fits.exists_fuel (h : Fits level term) {fuel : Nat}
    (hfuel : 3 * term.text.length ≤ fuel + TermLevel.spare level) : ∃ less, fuel = less + 1 := by
  have hpos := h.length_pos
  have hspare : TermLevel.spare level ≤ 2 := by cases level <;> decide
  exact Nat.exists_eq_succ_of_ne_zero (by omega)

/-- **An expression is read where its text starts**, with fuel for three levels in front of each glyph. -/
theorem Fits.read_append (h : Fits level term) : ∀ {fuel : Nat} {rest : Text},
    3 * term.text.length ≤ fuel + TermLevel.spare level → Stops level rest →
    read fuel level (term.text ++ rest) = some (term, rest) := by
  induction h with
  | named hname =>
    intro fuel rest hfuel hrest
    obtain ⟨fuel, rfl⟩ := (Fits.named hname).exists_fuel hfuel
    exact read_named hname hrest
  | @group inner h ih =>
    intro fuel rest hfuel hrest
    obtain ⟨fuel, rfl⟩ := h.group.exists_fuel hfuel
    have hclosing : Stops .bitOr (.char ')' :: rest) := .inr ⟨rest, rfl⟩
    have htext : (WordTerm.group inner).text ++ rest = .char '(' :: (inner.text ++ .char ')' :: rest) := by
      rw [text, List.cons_append, List.append_assoc]
      rfl
    rw [htext]
    refine read_group (h.ofName?_head hclosing.shift.unary) (ih ?_ hclosing)
    simp only [text, TermLevel.spare, List.length_cons, List.length_append] at hfuel ⊢
    omega
  | @cast operand width h ih =>
    intro fuel rest hfuel hrest
    obtain ⟨fuel, rfl⟩ := (h.cast width).exists_fuel hfuel
    have htext : (WordTerm.cast width operand).text ++ rest =
        .char '(' :: (width.typeName ++ .char ')' :: (operand.text ++ rest)) := by
      rw [text, List.cons_append, List.append_assoc, List.cons_append]
    rw [htext]
    refine read_cast width (ih ?_ hrest)
    simp only [text, TermLevel.spare, List.length_cons, List.length_append] at hfuel ⊢
    omega
  | unary h ih =>
    intro fuel rest hfuel hrest
    obtain ⟨fuel, rfl⟩ := h.unary.exists_fuel hfuel
    refine read_shift (ih ?_ hrest.unary) hrest
    simpa only [TermLevel.spare] using hfuel
  | @shiftLeft operand h ih =>
    intro fuel rest hfuel hrest
    obtain ⟨fuel, rfl⟩ := h.shiftLeft.exists_fuel hfuel
    rw [text, List.append_assoc]
    have hstops : Stops .unary (" << " ++ ("32" ++ rest)) := .of_apart (apart (by decide)) (by decide) _
    refine read_shiftLeft (ih ?_ hstops)
    simp only [text, TermLevel.spare, List.length_append] at hfuel ⊢
    omega
  | @shiftRight operand h ih =>
    intro fuel rest hfuel hrest
    obtain ⟨fuel, rfl⟩ := h.shiftRight.exists_fuel hfuel
    rw [text, List.append_assoc]
    have hstops : Stops .unary (" >> " ++ ("32" ++ rest)) := .of_apart (apart (by decide)) (by decide) _
    refine read_shiftRight (ih ?_ hstops)
    simp only [text, TermLevel.spare, List.length_append] at hfuel ⊢
    omega
  | shift h ih =>
    intro fuel rest hfuel hrest
    obtain ⟨fuel, rfl⟩ := h.shift.exists_fuel hfuel
    refine read_of_shift (ih ?_ hrest.shift) hrest
    simpa only [TermLevel.spare] using hfuel
  | @bitOr left right hl hr ihl ihr =>
    intro fuel rest hfuel hrest
    obtain ⟨fuel, rfl⟩ := (hl.bitOr hr).exists_fuel hfuel
    rw [text, List.append_assoc, List.append_assoc]
    simp only [text, TermLevel.spare, List.length_append] at hfuel
    refine read_bitOr (ihl ?_ (.inr (.inr ⟨_, rfl⟩))) (ihr ?_ hrest.shift)
    · rw [TermLevel.spare]
      omega
    · rw [TermLevel.spare]
      omega

/-- **An expression is read off its text.** -/
theorem Fits.read?_text (h : Fits .bitOr term) : read? term.text = some term := by
  have hread : read (3 * term.text.length) .bitOr (term.text ++ []) = some (term, []) :=
    h.read_append (Nat.le_refl _) (.inl rfl)
  rw [List.append_nil] at hread
  rw [read?, hread]

/-! ## Values -/

/-- The value of an expression, from those of its variables. A word has no value shifted by its own width, and
neither have operations on an integer whose type is not known. -/
def value (assignment : Text → CValue) : WordTerm → Option CValue
  | named name => some (assignment name)
  | group inner => inner.value assignment
  | cast width operand => do return width.convert (← operand.value assignment)
  | shiftLeft operand => do
    match ← operand.value assignment with
    | .wide bits => some (.wide (bits <<< registerBits))
    | _ => none
  | shiftRight operand => do
    match ← operand.value assignment with
    | .wide bits => some (.wide (bits >>> registerBits))
    | _ => none
  | bitOr left right => do
    match ← left.value assignment, ← right.value assignment with
    | .word l, .word r => some (.word (l ||| r))
    | .wide l, .wide r => some (.wide (l ||| r))
    | .wide l, .word r => some (.wide (l ||| r.setWidth 64))
    | .word l, .wide r => some (.wide (l.setWidth 64 ||| r))
    | _, _ => none

end WordTerm

end TrapStub
