import Mathlib.Data.Nat.Digits.Defs
import TrapStub.Proofs.Layout.Inference
import TrapStub.Proofs.Text.Runs

/-!
# Alignment literals

An alignment is mostly written as an integer literal. C has decimal, octal and hexadecimal ones, with a suffix
for their type. What the survey takes for a number is close to that, and it is not the same: the letters behind
the digits may be any, the digits those of any script, and an octal number is an error.

* `Alignment.Literal`: the integer literals of C, with `Alignment.valueIn` for the number of one.
* `Alignment.Taken`: what is taken for a number, with `Alignment.number?_eq_none_iff` and
  `Alignment.number?_taken`: **what is read of it.**
* `Alignment.Refused`: what is taken for a number and not read, with `Alignment.number?_eq_error_iff`.
* `Alignment.Lookalike`, `Alignment.literal_or_lookalike`: what is taken for a number and is none in C.
* `Source.member_literal`: **a member asks for the alignment that its literal has in C.**
* `Alignment.reads_literals`: **how literals and other texts are read**, for every text.
-/

namespace TrapStub

namespace Alignment

/-! ## Literals in C -/

/-- The value of a digit in a base of at most sixteen. -/
def digitIn? (base : Nat) (g : Glyph) : Option Nat := (hexDigit? g).filter (· < base)

/-- The number that digits stand for, the highest first. -/
def valueIn (base : Nat) (digits : List Nat) : Nat := Nat.ofDigits base digits.reverse

/-- The suffixes of integer literals: for unsigned, long or very long numbers, or none. -/
def suffixes : List Text :=
  let unsigned : List Text := ["u", "U"]
  let long : List Text := ["l", "L", "ll", "LL"]
  [] :: unsigned ++ long ++ unsigned.flatMap (fun u => long.map (u ++ ·)) ++
    long.flatMap fun l => unsigned.map (l ++ ·)

/-- The integer literals of C with their bases and digits. Zero is an octal number. -/
inductive Literal : Text → Nat → List Nat → Prop
  | decimal {digits suffix : Text} {first : Nat} {rest : List Nat}
    (hd : digits.mapM (digitIn? 10) = some (first :: rest)) (hfirst : first ≠ 0) (hs : suffix ∈ suffixes) :
    Literal (digits ++ suffix) 10 (first :: rest)
  | octal {digits suffix : Text} {rest : List Nat} (hd : digits.mapM (digitIn? 8) = some (0 :: rest))
    (hs : suffix ∈ suffixes) : Literal (digits ++ suffix) 8 (0 :: rest)
  | hexadecimal {x : Glyph} {digits suffix : Text} {values : List Nat} (hx : x = .char 'x' ∨ x = .char 'X')
    (hne : digits ≠ []) (hd : digits.mapM (digitIn? 16) = some values) (hs : suffix ∈ suffixes) :
    Literal (.char '0' :: x :: digits ++ suffix) 16 values

/-! ## What is taken for a number -/

/-- What is taken for a number: a text of digits and some letters behind them. -/
inductive Taken : Text → Text → Nat → List Nat → Prop
  | decimal {digits letters : Text} {values : List Nat} (hne : digits ≠ [])
    (hd : digits.mapM Glyph.digit? = some values) (hl : ∀ g ∈ letters, isSuffix g = true) :
    Taken digits letters 10 values
  | hexadecimal {x : Glyph} {digits letters : Text} {values : List Nat} (hx : x = .char 'x' ∨ x = .char 'X')
    (hne : digits ≠ []) (hd : digits.mapM hexDigit? = some values) (hl : ∀ g ∈ letters, isSuffix g = true) :
    Taken (.char '0' :: x :: digits) letters 16 values

/-- What is taken for a number and is none in C. -/
inductive Lookalike (digits letters : Text) (base : Nat) (values : List Nat) : Prop
  /-- The letters are no suffix. -/
  | letters (h : letters ∉ suffixes)
  /-- A digit is of another script. -/
  | script {g : Glyph} (hbase : base = 10) (hg : g ∈ digits) (h : g.isAsciiDigit = false)
  /-- An octal number has a digit eight or nine. -/
  | octal {v : Nat} {rest : List Nat} (hbase : base = 10) (hv : values = 0 :: rest) (hmem : v ∈ rest) (h : 8 ≤ v)

/-- Decimal digits that are not read, and the fault that tells so. -/
inductive Refused : Text → Fault → Prop
  | tooLong {digits letters : Text} {values : List Nat} (h : Taken digits letters 10 values)
    (hlong : mostDigits < values.length) : Refused (digits ++ letters) (.literalTooLong (digits ++ letters))
  | leadingZeros {digits letters : Text} {values : List Nat} (h : Taken digits letters 10 values)
    (hshort : values.length ≤ mostDigits) (hzero : values.head? = some 0) (hvalue : ∃ v ∈ values, v ≠ 0) :
    Refused (digits ++ letters) (.leadingZeros (digits ++ letters))

variable {t digits letters : Text} {base v : Nat} {values : List Nat} {g : Glyph}

/-! ## Digits -/

theorem ofDigits_eq (base : Nat) (values : List Nat) : ofDigits base values = valueIn base values := by
  have hstep : (fun n d => n * base + d) = fun n d : Nat => d + base * n := by
    funext n d
    rw [Nat.mul_comm, Nat.add_comm]
  unfold ofDigits valueIn
  rw [Nat.ofDigits_eq_foldr, List.foldr_reverse, hstep]
  rfl

theorem digitIn?_eq_some : digitIn? base g = some v ↔ hexDigit? g = some v ∧ v < base := by
  simp [digitIn?, Option.filter_eq_some_iff]

/-- The digits of C are decimal digits. -/
theorem digit?_of_isAsciiDigit (h : g.isAsciiDigit = true) : g.digit? = some (g.code - 0x30) := by
  have hrange : 0x30 ≤ g.code ∧ g.code < 0x30 + 10 := by
    simp only [Glyph.isAsciiDigit, Bool.and_eq_true, decide_eq_true_eq] at h
    omega
  have hfirst : (decide (0x30 ≤ g.code) && decide (g.code < 0x30 + 10)) = true := by simp [hrange]
  unfold Glyph.digit? digitZeros
  rw [List.findSome?_cons, if_pos hfirst]

theorem hexDigit?_of_isAsciiDigit (h : g.isAsciiDigit = true) : hexDigit? g = some (g.code - 0x30) := if_pos h

/-- The digits up to nine are decimal digits, and no other script has them. -/
theorem digitIn?_iff (hbase : base ≤ 10) : digitIn? base g = some v ↔
    g.digit? = some v ∧ g.isAsciiDigit = true ∧ v < base := by
  rw [digitIn?_eq_some]
  constructor
  · rintro ⟨hv, hlt⟩
    by_cases hg : g.isAsciiDigit = true
    · rw [hexDigit?_of_isAsciiDigit hg, ← digit?_of_isAsciiDigit hg] at hv
      exact ⟨hv, hg, hlt⟩
    · -- the letters stand for ten and more
      rw [hexDigit?, if_neg hg] at hv
      split at hv
      · have := Option.some.inj hv
        omega
      · split at hv
        · have := Option.some.inj hv
          omega
        · cases hv
  · rintro ⟨hv, hg, hlt⟩
    rw [digit?_of_isAsciiDigit hg, ← hexDigit?_of_isAsciiDigit hg] at hv
    exact ⟨hv, hlt⟩

theorem hexDigit?_lt (h : hexDigit? g = some v) : v < 16 := by
  unfold hexDigit? at h
  split at h
  · rename_i hg
    simp only [Glyph.isAsciiDigit, Bool.and_eq_true, decide_eq_true_eq] at hg
    have := Option.some.inj h
    omega
  · split at h
    · rename_i hg
      simp only [Bool.and_eq_true, decide_eq_true_eq] at hg
      have := Option.some.inj h
      omega
    · split at h
      · rename_i hg
        simp only [Bool.and_eq_true, decide_eq_true_eq] at hg
        have := Option.some.inj h
        omega
      · cases h

/-- Digits of C up to nine, each by itself. -/
theorem mapM_digitIn? (hbase : base ≤ 10) : digits.mapM (digitIn? base) = some values ↔
    digits.mapM Glyph.digit? = some values ∧ (∀ g ∈ digits, g.isAsciiDigit = true) ∧ ∀ v ∈ values, v < base := by
  rw [mapM_eq_some, mapM_eq_some]
  constructor
  · intro h
    refine ⟨h.imp fun g v hv => ((digitIn?_iff hbase).1 hv).1, fun g hg => ?_, fun v hv => ?_⟩
    · obtain ⟨v, -, hv⟩ := forall₂_exists_of_mem_left h hg
      exact ((digitIn?_iff hbase).1 hv).2.1
    · obtain ⟨g, -, hg⟩ := forall₂_exists_of_mem_right h hv
      exact ((digitIn?_iff hbase).1 hg).2.2
  · rintro ⟨h, hascii, hlt⟩
    exact forall₂_imp_of_mem h fun g hg v hv hgv => (digitIn?_iff hbase).2 ⟨hgv, hascii g hg, hlt v hv⟩

theorem mapM_hexDigit? : digits.mapM (digitIn? 16) = digits.mapM hexDigit? := by
  have hall : digitIn? 16 = hexDigit? := by
    funext g
    cases h : hexDigit? g with
    | none => rw [digitIn?, h, Option.filter_none]
    | some v => rw [digitIn?, h, Option.filter_some, if_pos (by simpa using hexDigit?_lt h)]
  rw [hall]

theorem valueIn_eq_zero (hbase : 0 < base) : valueIn base values = 0 ↔ ∀ v ∈ values, v = 0 := by
  have hall : ∀ l : List Nat, Nat.ofDigits base l = 0 ↔ ∀ v ∈ l, v = 0 := by
    intro l
    induction l with
    | nil => simp
    | cons v l ih => simp [Nat.ofDigits_cons, ih, hbase.ne']
  unfold valueIn
  rw [hall]
  simp

/-! ## The forms of a number -/

/-- A decimal digit is no letter of a suffix. -/
theorem not_isSuffix_of_digit? (h : g.digit?.isSome = true) : isSuffix g = false := by
  rw [Bool.eq_false_iff]
  intro hs
  rcases isSuffix_iff.1 hs with rfl | rfl | rfl | rfl <;> exact absurd h (by decide)

theorem hexDigits?_eq_some : hexDigits? t = some values ↔ ∃ x digits, t = .char '0' :: x :: digits ∧
    (x = .char 'x' ∨ x = .char 'X') ∧ digits ≠ [] ∧ digits.mapM hexDigit? = some values := by
  constructor
  · intro h
    unfold hexDigits? at h
    split at h
    · rename_i mark x digits
      split at h
      · rename_i hmark
        simp only [Glyph.is, Bool.and_eq_true, Bool.or_eq_true, beq_iff_eq, Bool.not_eq_true',
          List.isEmpty_eq_false_iff] at hmark
        obtain ⟨⟨rfl, hx⟩, hne⟩ := hmark
        exact ⟨x, digits, rfl, hx, hne, h⟩
      · cases h
    · cases h
  · rintro ⟨x, digits, rfl, hx, hne, hd⟩
    exact hexDigits?_of_mark hx hne hd

theorem decimalDigits?_eq_some : decimalDigits? t = some values ↔ t ≠ [] ∧ t.mapM Glyph.digit? = some values := by
  unfold decimalDigits?
  cases t with
  | nil => simp
  | cons g t => simp

namespace Taken

theorem forall_letters (h : Taken digits letters base values) : ∀ g ∈ letters, isSuffix g = true := by
  cases h with
  | decimal _ _ hl => exact hl
  | hexadecimal _ _ _ hl => exact hl

/-- The letters are all that is cut off. -/
theorem core (h : Taken digits letters base values) : Text.trimEnd isSuffix (digits ++ letters) = digits := by
  cases h with
  | decimal hne hd hl =>
    refine Text.trimEnd_append hl fun g hg => ?_
    exact not_isSuffix_of_digit? (isSome_of_mapM hd g (List.mem_of_getLast? hg))
  | hexadecimal hx hne hd hl => exact Text.trimEnd_append hl (not_isSuffix_getLast hne hd)

/-- **A text is taken for one number.** -/
theorem unique {digits' letters' : Text} {base' : Nat} {values' : List Nat} (h : Taken digits letters base values)
    (h' : Taken digits' letters' base' values') (ht : digits ++ letters = digits' ++ letters') :
    digits = digits' ∧ base = base' ∧ values = values' := by
  have hdigits : digits = digits' := by rw [← h.core, ht, h'.core]
  subst hdigits
  -- the mark of a hexadecimal number is no digit
  have hmark : ∀ {x : Glyph} {rest : Text} {values : List Nat}, x = .char 'x' ∨ x = .char 'X' →
      (Glyph.char '0' :: x :: rest).mapM Glyph.digit? ≠ some values := by
    intro x rest values hx hd
    have hdigit := isSome_of_mapM hd x (List.mem_cons_of_mem _ List.mem_cons_self)
    rcases hx with rfl | rfl <;> exact absurd hdigit (by decide)
  cases h with
  | decimal _ hd _ =>
    cases h' with
    | decimal _ hd' _ => exact ⟨rfl, rfl, Option.some.inj (hd.symm.trans hd')⟩
    | hexadecimal hx _ _ _ => exact absurd hd (hmark hx)
  | hexadecimal hx _ hd _ =>
    cases h' with
    | decimal _ hd' _ => exact absurd hd' (hmark hx)
    | hexadecimal _ _ hd' _ => exact ⟨rfl, rfl, Option.some.inj (hd.symm.trans hd')⟩

end Taken

/-- **What is taken for a decimal number is read**, unless it has too many digits, or starts with a zero and is
not zero. -/
theorem number?_decimal_eq (h : Taken digits letters 10 values) : number? (digits ++ letters) =
    if mostDigits < values.length then .error (.literalTooLong (digits ++ letters))
    else if values.head? = some 0 ∧ ∃ v ∈ values, v ≠ 0 then .error (.leadingZeros (digits ++ letters))
    else .ok (some (valueIn 10 values)) := by
  -- a text is taken for one number, and the mark would make it another one
  have hhex : hexDigits? digits = none := by
    cases hfound : hexDigits? digits with
    | none => rfl
    | some values' =>
      obtain ⟨x, rest, rfl, hx, hne, hd⟩ := hexDigits?_eq_some.1 hfound
      have hbase := (h.unique (.hexadecimal hx hne hd h.forall_letters) rfl).2.1
      omega
  have hdecimal : decimalDigits? digits = some values := by
    cases h with
    | decimal hne hd _ => exact decimalDigits?_eq_some.2 ⟨hne, hd⟩
  unfold number?
  dsimp only
  rw [h.core, hhex, hdecimal]
  simp [ofDigits_eq]

/-- **What is taken for a hexadecimal number is read.** -/
theorem number?_hexadecimal_eq (h : Taken digits letters 16 values) :
    number? (digits ++ letters) = .ok (some (valueIn 16 values)) := by
  cases h with
  | hexadecimal hx hne hd hl => rw [number?_hexadecimal hx hne hd hl, ofDigits_eq]

/-- **Nothing is read of all other texts.** -/
theorem number?_eq_none_iff :
    number? t = .ok none ↔ ¬ ∃ digits letters base values, t = digits ++ letters ∧ Taken digits letters base values := by
  constructor
  · rintro hnone ⟨digits, letters, base, values, rfl, h⟩
    cases h with
    | decimal hne hd hl =>
      rw [number?_decimal_eq (.decimal hne hd hl)] at hnone
      split at hnone
      · cases hnone
      · split at hnone <;> cases hnone
    | hexadecimal hx hne hd hl =>
      rw [number?_hexadecimal_eq (.hexadecimal hx hne hd hl)] at hnone
      cases hnone
  · intro hnot
    -- what is left without the letters has no digits of either kind, or the text would be taken
    obtain ⟨letters, hletters, ht⟩ := Text.trimEnd_eq isSuffix t
    have hhex : hexDigits? (Text.trimEnd isSuffix t) = none := by
      cases hfound : hexDigits? (Text.trimEnd isSuffix t) with
      | none => rfl
      | some values =>
        obtain ⟨x, digits, hdigits, hx, hne, hd⟩ := hexDigits?_eq_some.1 hfound
        exact absurd ⟨_, letters, 16, values, hdigits ▸ ht, .hexadecimal hx hne hd hletters⟩ hnot
    have hdecimal : decimalDigits? (Text.trimEnd isSuffix t) = none := by
      cases hfound : decimalDigits? (Text.trimEnd isSuffix t) with
      | none => rfl
      | some values =>
        obtain ⟨hne, hd⟩ := decimalDigits?_eq_some.1 hfound
        exact absurd ⟨_, letters, 10, values, ht, .decimal hne hd hletters⟩ hnot
    unfold number?
    dsimp only
    rw [hhex, hdecimal]

/-! ## Literals and lookalikes -/

theorem forall_suffixes : ∀ suffix ∈ suffixes, ∀ g ∈ suffix, isSuffix g = true := by decide

/-- A literal is taken for a number with the same digits: for a hexadecimal one, or for a decimal one whose first
digit is zero just if the literal is octal. -/
theorem Literal.taken (h : Literal t base values) : ∃ digits letters, t = digits ++ letters ∧ letters ∈ suffixes ∧
    (base = 16 ∧ Taken digits letters 16 values ∨
      (base = 8 ∨ base = 10) ∧ Taken digits letters 10 values ∧ digits.mapM (digitIn? base) = some values ∧
        (base = 8 ↔ values.head? = some 0)) := by
  have hdecimal : ∀ {base first : Nat} {rest : List Nat} {digits suffix : Text}, base ≤ 10 →
      digits.mapM (digitIn? base) = some (first :: rest) → suffix ∈ suffixes →
      Taken digits suffix 10 (first :: rest) := by
    intro base first rest digits suffix hbase hd hs
    have hne : digits ≠ [] := by
      rintro rfl
      cases hd
    exact .decimal hne ((mapM_digitIn? hbase).1 hd).1 (forall_suffixes suffix hs)
  cases h with
  | @decimal digits suffix first rest hd hfirst hs =>
    refine ⟨digits, suffix, rfl, hs, .inr ⟨.inr rfl, hdecimal (by decide) hd hs, hd, ?_⟩⟩
    simp [hfirst]
  | @octal digits suffix rest hd hs =>
    exact ⟨digits, suffix, rfl, hs, .inr ⟨.inl rfl, hdecimal (by decide) hd hs, hd, by simp⟩⟩
  | @hexadecimal x digits suffix values hx hne hd hs =>
    rw [mapM_hexDigit?] at hd
    exact ⟨.char '0' :: x :: digits, suffix, rfl, hs, .inl ⟨rfl, .hexadecimal hx hne hd (forall_suffixes suffix hs)⟩⟩

/-- **A text is one literal.** -/
theorem Literal.unique {base' : Nat} {values' : List Nat} (h : Literal t base values) (h' : Literal t base' values') :
    base = base' ∧ values = values' := by
  obtain ⟨digits, letters, rfl, -, ⟨rfl, hhex⟩ | ⟨hbase, hdecimal, -, hoctal⟩⟩ := h.taken <;>
    obtain ⟨digits', letters', heq, -, ⟨rfl, hhex'⟩ | ⟨hbase', hdecimal', -, hoctal'⟩⟩ := h'.taken
  · exact ⟨rfl, (hhex.unique hhex' heq).2.2⟩
  · exact absurd (hhex.unique hdecimal' heq).2.1 (by decide)
  · exact absurd (hdecimal.unique hhex' heq).2.1 (by decide)
  · obtain ⟨-, -, rfl⟩ := hdecimal.unique hdecimal' heq
    have hsame : base = 8 ↔ base' = 8 := hoctal.trans hoctal'.symm
    exact ⟨by omega, rfl⟩

theorem digit?_lt (h : g.digit? = some v) : v < 10 := by
  obtain ⟨start, -, hstart⟩ := List.exists_of_findSome?_eq_some h
  split at hstart
  · rename_i hrange
    simp only [Bool.and_eq_true, decide_eq_true_eq] at hrange
    have := Option.some.inj hstart
    omega
  · cases hstart

/-- **What is taken for a number is a literal of C or looks like one.** -/
theorem literal_or_lookalike (h : Taken digits letters base values) :
    (∃ base', Literal (digits ++ letters) base' values) ∨ Lookalike digits letters base values := by
  by_cases hs : letters ∈ suffixes
  swap
  · exact .inr (.letters hs)
  cases h with
  | hexadecimal hx hne hd _ => exact .inl ⟨16, .hexadecimal hx hne (mapM_hexDigit?.trans hd) hs⟩
  | decimal hne hd _ =>
    by_cases hascii : ∀ g ∈ digits, g.isAsciiDigit = true
    swap
    · simp only [not_forall, Bool.not_eq_true] at hascii
      obtain ⟨g, hg, hscript⟩ := hascii
      exact .inr (.script rfl hg hscript)
    have hlt : ∀ v ∈ values, v < 10 := by
      intro v hv
      obtain ⟨g, -, hg⟩ := forall₂_exists_of_mem_right (mapM_eq_some.1 hd) hv
      exact digit?_lt hg
    cases values with
    | nil =>
      have hlength := (mapM_eq_some.1 hd).length_eq
      exact absurd (List.length_eq_zero_iff.1 hlength) hne
    | cons first rest =>
      -- a zero in front makes the literal octal, whatever follows
      by_cases hfirst : first = 0
      · subst hfirst
        by_cases hoctal : ∀ v ∈ rest, v < 8
        · have hall : ∀ v ∈ 0 :: rest, v < 8 := List.forall_mem_cons.2 ⟨by decide, hoctal⟩
          exact .inl ⟨8, .octal ((mapM_digitIn? (by decide)).2 ⟨hd, hascii, hall⟩) hs⟩
        · simp only [not_forall, Nat.not_lt] at hoctal
          obtain ⟨v, hv, hle⟩ := hoctal
          exact .inr (.octal rfl rfl hv hle)
      · exact .inl ⟨10, .decimal ((mapM_digitIn? (by decide)).2 ⟨hd, hascii, hlt⟩) hfirst hs⟩

/-- A lookalike is no literal. -/
theorem Lookalike.not_literal {base' : Nat} {values' : List Nat} (h : Lookalike digits letters base values)
    (htaken : Taken digits letters base values) : ¬ Literal (digits ++ letters) base' values' := by
  intro hliteral
  obtain ⟨digits', letters', heq, hs, ⟨-, hhex⟩ | ⟨hbase, hdecimal, hd, hoctal⟩⟩ := hliteral.taken
  · obtain ⟨rfl, rfl, rfl⟩ := htaken.unique hhex heq
    obtain rfl := List.append_cancel_left heq
    cases h with
    | letters h => exact h hs
    | script hbase _ _ => cases hbase
    | octal hbase _ _ _ => cases hbase
  · obtain ⟨rfl, rfl, rfl⟩ := htaken.unique hdecimal heq
    obtain rfl := List.append_cancel_left heq
    obtain ⟨-, hascii, hlt⟩ := (mapM_digitIn? (by omega)).1 hd
    cases h with
    | letters h => exact h hs
    | script _ hg h => rw [hascii _ hg] at h; cases h
    | octal _ hv hmem hle =>
      subst hv
      obtain rfl := hoctal.2 rfl
      have := hlt _ (List.mem_cons_of_mem _ hmem)
      omega

/-- **A literal is read by its base**: an octal one is refused, unless it is zero. -/
theorem number?_literal (h : Literal t base values) : number? t =
    if base ≠ 16 ∧ mostDigits < values.length then .error (.literalTooLong t)
    else if base = 8 ∧ valueIn 8 values ≠ 0 then .error (.leadingZeros t)
    else .ok (some (valueIn base values)) := by
  obtain ⟨digits, letters, rfl, -, ⟨rfl, hhex⟩ | ⟨hbase, hdecimal, -, hoctal⟩⟩ := h.taken
  · rw [number?_hexadecimal_eq hhex, if_neg (by omega), if_neg (by omega)]
  · have hzero : valueIn 8 values ≠ 0 ↔ ∃ v ∈ values, v ≠ 0 := by
      rw [ne_eq, valueIn_eq_zero (by decide)]
      simp
    have hrefusal : (values.head? = some 0 ∧ ∃ v ∈ values, v ≠ 0) ↔ base = 8 ∧ valueIn 8 values ≠ 0 :=
      and_congr hoctal.symm hzero.symm
    have h16 : base ≠ 16 := by rcases hbase with rfl | rfl <;> decide
    rw [number?_decimal_eq hdecimal]
    by_cases hlong : mostDigits < values.length
    · rw [if_pos hlong, if_pos ⟨h16, hlong⟩]
    · have hshort : ¬ (base ≠ 16 ∧ mostDigits < values.length) := fun h => hlong h.2
      rw [if_neg hlong, if_neg hshort]
      by_cases hrefused : base = 8 ∧ valueIn 8 values ≠ 0
      · rw [if_pos (hrefusal.2 hrefused), if_pos hrefused]
      · rw [if_neg fun h => hrefused (hrefusal.1 h), if_neg hrefused]
        -- zero is the same in base eight and in base ten
        rcases hbase with rfl | rfl
        · have hvalue : valueIn 8 values = 0 := by
            by_contra hne
            exact hrefused ⟨rfl, hne⟩
          rw [hvalue, (valueIn_eq_zero (by decide)).2 ((valueIn_eq_zero (by decide)).1 hvalue)]
        · rfl

/-- A literal that is read with its value. -/
structure Legible (base : Nat) (digits : List Nat) : Prop where
  /-- An octal one is zero. -/
  octal : base = 8 → valueIn 8 digits = 0
  /-- One that is not hexadecimal has no more digits than are read. -/
  short : base ≠ 16 → digits.length ≤ mostDigits

/-- The text looks like a literal and is none. -/
def IsLookalike (t : Text) : Prop :=
  ∃ digits letters base values, t = digits ++ letters ∧ Taken digits letters base values ∧
    Lookalike digits letters base values

theorem number?_eq_some_iff (h : Literal t base values) :
    number? t = .ok (some (valueIn base values)) ↔ Legible base values := by
  rw [number?_literal h]
  constructor
  · intro hread
    split at hread
    · cases hread
    · rename_i hshort
      split at hread
      · cases hread
      · rename_i hoctal
        refine ⟨fun h8 => ?_, fun h16 => ?_⟩
        · by_contra hne
          exact hoctal ⟨h8, hne⟩
        · by_contra hlong
          exact hshort ⟨h16, Nat.lt_of_not_le hlong⟩
  · intro hlegible
    rw [if_neg fun h => absurd (hlegible.short h.1) (Nat.not_le_of_lt h.2), if_neg fun h => h.2 (hlegible.octal h.1)]

theorem exists_taken_iff : (∃ digits letters base values, t = digits ++ letters ∧ Taken digits letters base values) ↔
    (∃ base values, Literal t base values) ∨ IsLookalike t := by
  constructor
  · rintro ⟨digits, letters, base, values, rfl, h⟩
    rcases literal_or_lookalike h with ⟨base', hliteral⟩ | hlookalike
    · exact .inl ⟨base', values, hliteral⟩
    · exact .inr ⟨digits, letters, base, values, rfl, h, hlookalike⟩
  · rintro (⟨base, values, h⟩ | ⟨digits, letters, base, values, ht, h, -⟩)
    · obtain ⟨digits, letters, ht, -, ⟨-, hhex⟩ | ⟨-, hdecimal, -⟩⟩ := h.taken
      · exact ⟨digits, letters, 16, values, ht, hhex⟩
      · exact ⟨digits, letters, 10, values, ht, hdecimal⟩
    · exact ⟨digits, letters, base, values, ht, h⟩

theorem Taken.ne_nil (h : Taken digits letters base values) : digits ++ letters ≠ [] := by
  cases h with
  | decimal hne _ _ => exact List.append_ne_nil_of_left_ne_nil hne letters
  | hexadecimal => exact List.cons_ne_nil _ _

theorem Literal.ne_nil (h : Literal t base values) : t ≠ [] := by
  obtain ⟨_, _, _, _, rfl, htaken⟩ := exists_taken_iff.2 (.inl ⟨base, values, h⟩)
  exact htaken.ne_nil

/-- An argument that is not empty is read as a number. -/
theorem ofArgument_text (h : t ≠ []) : ofArgument (some t) = number? t := by
  obtain ⟨g, rest, rfl⟩ := List.exists_cons_of_ne_nil h
  rfl

/-- **An octal literal other than zero is refused.** -/
theorem ofArgument_octal (h : Literal t 8 values) (hvalue : valueIn 8 values ≠ 0) (hshort : values.length ≤ mostDigits) :
    ofArgument (some t) = .error (.leadingZeros t) := by
  have hnotlong : ¬ (8 ≠ 16 ∧ mostDigits < values.length) := fun h => Nat.not_lt_of_le hshort h.2
  rw [ofArgument_text h.ne_nil, number?_literal h, if_neg hnotlong, if_pos ⟨rfl, hvalue⟩]

/-- What is not taken for a number is no literal. -/
theorem Literal.ne_of_number? {u : Text} (h : Literal t base values) (hu : number? u = .ok none) : t ≠ u := by
  rintro rfl
  exact number?_eq_none_iff.1 hu (exists_taken_iff.2 (.inl ⟨base, values, h⟩))

/-- **Reading fails on decimal digits only**, if they are too many or have zeros in front. -/
theorem number?_eq_error_iff {fault : Fault} : number? t = .error fault ↔ Refused t fault := by
  constructor
  · intro hfault
    by_cases htaken : ∃ digits letters base values, t = digits ++ letters ∧ Taken digits letters base values
    swap
    · rw [number?_eq_none_iff.2 htaken] at hfault
      cases hfault
    obtain ⟨digits, letters, base, values, rfl, h⟩ := htaken
    have hbase : base = 10 ∨ base = 16 := by cases h <;> simp
    rcases hbase with rfl | rfl
    · rw [number?_decimal_eq h] at hfault
      split at hfault
      · rename_i hlong
        cases hfault
        exact .tooLong h hlong
      · rename_i hshort
        split at hfault
        · rename_i hzeros
          cases hfault
          exact .leadingZeros h (Nat.le_of_not_lt hshort) hzeros.1 hzeros.2
        · cases hfault
    · rw [number?_hexadecimal_eq h] at hfault
      cases hfault
  · intro hrefused
    cases hrefused with
    | tooLong h hlong => rw [number?_decimal_eq h, if_pos hlong]
    | leadingZeros h hshort hzero hvalue =>
      rw [number?_decimal_eq h, if_neg (Nat.not_lt_of_le hshort), if_pos ⟨hzero, hvalue⟩]

theorem Refused.ne_nil {fault : Fault} (h : Refused t fault) : t ≠ [] := by
  cases h with
  | tooLong h _ => exact h.ne_nil
  | leadingZeros h _ _ _ => exact h.ne_nil

end Alignment

/-! ## Members -/

namespace Source

variable {source : Source} {below : Conversion} {c : Cursor} {m : LayoutMember} {t : Text} {base : Nat}
  {digits : List Nat}

/-- What is recorded of a member whose alignment is written as this text. -/
def alignedMember (c : Cursor) (packed : Bool) (text : Text) (type : CType) : Member where
  name := if c.spelling.any (·.is '(') then [] else c.spelling
  type := type
  bits := c.bitWidth
  offset := if c.fieldOffset < 0 then none else some c.fieldOffset
  packed := packed
  aligned := some text

/-- What the parser says of a member with one `aligned` attribute, which has this text for its argument. -/
structure AsksFor (source : Source) (c : Cursor) (t : Text) (m : LayoutMember) : Prop where
  argument : ∃ child, (source.childrenOf c).filter (·.kind == .alignedAttr) = [child] ∧ source.HasArgument child t
  type : source.memberTypeAlign c = m.align
  packed : (source.childrenOf c).any (·.kind == .packedAttr) = m.packed

theorem memberAttributes_literal (h : source.AsksFor c t m) (ht : Alignment.Literal t base digits)
    (offset : Option Int) : source.memberAttributes c offset = (m.packed, some t) := by
  obtain ⟨child, hone, hargument⟩ := h.argument
  -- a parenthesis is no literal
  have hopens : t ≠ "(" := ht.ne_of_number? (by rfl)
  have hcloses : t ≠ ")" := ht.ne_of_number? (by rfl)
  rw [memberAttributes_eq, h.packed, hone, List.getLast?_singleton, Option.map_some,
    alignmentText?_argument hargument hopens hcloses, Option.getD_some]

/-- **A member asks for the alignment that its literal has in C**, and its type apart nothing can fail. -/
theorem member_literal (h : source.AsksFor c t m) (ht : Alignment.Literal t base digits)
    (hlegible : Alignment.Legible base digits) (hexplicit : m.explicit = some (Alignment.valueIn base digits))
    (halign : 0 < m.align) (hpos : 0 < Alignment.valueIn base digits) :
    source.member below c = source.convertWith below c.type true >>= fun type =>
      pure (alignedMember c m.packed t type, (m.requested : Int)) := by
  have hread : Alignment.ofArgument (some t) = .ok (m.explicit.map Int.ofNat) := by
    rw [Alignment.ofArgument_text ht.ne_nil, (Alignment.number?_eq_some_iff ht).2 hlegible, hexplicit]
    rfl
  have hdemand : demandedAlignment m.align m.packed (m.explicit.map Int.ofNat) = m.requested := by
    refine demandedAlignment_eq halign fun e he => ?_
    rw [hexplicit] at he
    exact Option.some.inj he ▸ hpos
  unfold member
  dsimp only
  rw [memberAttributes_literal h ht, hread, h.type, ← hdemand]
  rfl

/-- An octal literal ends the run at the member that has it. -/
theorem member_octal (h : source.AsksFor c t m) (ht : Alignment.Literal t 8 digits)
    (hvalue : Alignment.valueIn 8 digits ≠ 0) (hshort : digits.length ≤ Alignment.mostDigits) (s : Findings) :
    source.member below c s = .error (.leadingZeros t) := by
  unfold member
  dsimp only
  rw [memberAttributes_literal h ht, Alignment.ofArgument_octal ht hvalue hshort]
  rfl

end Source

namespace Alignment

/-- How a text is read where an alignment is expected. -/
structure ReadsLiterals (t : Text) : Prop where
  /-- The text is one literal at most. -/
  unique : ∀ base digits base' digits', Literal t base digits → Literal t base' digits' → base = base' ∧ digits = digits'
  /-- A literal is read with the value that it has in C, just if it is legible. -/
  literal : ∀ base digits, Literal t base digits →
    (ofArgument (some t) = .ok (some (valueIn base digits)) ↔ Legible base digits)
  /-- An octal literal other than zero is refused. -/
  octal : ∀ digits, Literal t 8 digits → valueIn 8 digits ≠ 0 → digits.length ≤ mostDigits →
    ofArgument (some t) = .error (.leadingZeros t)
  /-- Nothing is read of other texts, just if they do not look like literals. -/
  none_iff : ofArgument (some t) = .ok none ↔
    t ≠ [] ∧ (∀ base digits, ¬ Literal t base digits) ∧ ¬ IsLookalike t
  /-- What looks like a literal is none. -/
  lookalike : IsLookalike t → ∀ base digits, ¬ Literal t base digits
  /-- Reading fails on decimal digits that are too many or have zeros in front, and on nothing else. -/
  fails : ∀ fault, ofArgument (some t) = .error fault ↔ Refused t fault
  /-- A member with a legible literal asks for what C aligns it to. -/
  member : ∀ (source : Source) (below : Conversion) (c : Cursor) (m : LayoutMember) base digits,
    source.AsksFor c t m → Literal t base digits → Legible base digits → m.explicit = some (valueIn base digits) →
    0 < m.align → 0 < valueIn base digits → source.member below c =
      source.convertWith below c.type true >>= fun type =>
        pure (Source.alignedMember c m.packed t type, (m.requested : Int))
  /-- A member with an octal one ends the run. -/
  refused : ∀ (source : Source) (below : Conversion) (c : Cursor) (m : LayoutMember) digits (s : Findings),
    source.AsksFor c t m → Literal t 8 digits → valueIn 8 digits ≠ 0 → digits.length ≤ mostDigits →
    source.member below c s = .error (.leadingZeros t)

/-- **How literals and other texts are read**, for every text. -/
theorem reads_literals (t : Text) : ReadsLiterals t where
  unique _ _ _ _ h h' := h.unique h'
  literal base digits h := by
    rw [ofArgument_text h.ne_nil]
    exact number?_eq_some_iff h
  octal digits h hvalue hshort := ofArgument_octal h hvalue hshort
  none_iff := by
    cases t with
    | nil => simp [ofArgument]
    | cons g rest =>
      rw [ofArgument_text (List.cons_ne_nil g rest), number?_eq_none_iff, exists_taken_iff]
      simp [not_or]
  lookalike := by
    rintro ⟨digits, letters, base, values, rfl, htaken, h⟩ base' values'
    exact h.not_literal htaken
  fails fault := by
    cases t with
    | nil =>
      constructor
      · intro h
        cases h
      · intro h
        exact absurd rfl h.ne_nil
    | cons g rest =>
      rw [ofArgument_text (List.cons_ne_nil g rest)]
      exact number?_eq_error_iff
  member _ _ _ _ _ _ h ht hlegible hexplicit halign hpos := Source.member_literal h ht hlegible hexplicit halign hpos
  refused _ _ _ _ _ s h ht hvalue hshort := Source.member_octal h ht hvalue hshort s

/-- The packed word is aligned to 2 as its attribute says. -/
theorem packedSource_requested : packedSource.member packedSource.base (packedSource.unit.cursor (some 3)) =
    packedSource.convertWith packedSource.base (packedSource.unit.cursor (some 3)).type true >>= fun type =>
      pure (Source.alignedMember (packedSource.unit.cursor (some 3)) true "2" type, 2) := by
  have hasks : packedSource.AsksFor (packedSource.unit.cursor (some 3)) "2" ⟨4, 4, some 2, true⟩ :=
    ⟨⟨_, rfl, ⟨_, _, _, _, _, rfl, rfl, rfl, rfl, rfl, nofun⟩⟩, rfl, rfl⟩
  have hliteral : Literal "2" 10 [2] := @Literal.decimal "2" [] 2 [] rfl (by decide) List.mem_cons_self
  have hlegible : Legible 10 [2] := ⟨by decide, fun _ => by decide⟩
  exact (reads_literals "2").member _ _ _ _ 10 [2] hasks hliteral hlegible rfl (by decide) (by decide)

/-- The octal literal of an alignment that is often written. -/
theorem octalEight_refused : Literal "010" 8 [0, 1, 0] ∧ valueIn 8 [0, 1, 0] = 8 ∧
    ofArgument (some "010") = .error (.leadingZeros "010") := by
  have hliteral : Literal "010" 8 [0, 1, 0] := @Literal.octal "010" [] [1, 0] rfl List.mem_cons_self
  have hvalue : valueIn 8 [0, 1, 0] = 8 := by decide
  exact ⟨hliteral, hvalue, ofArgument_octal hliteral (by rw [hvalue]; decide) (by decide)⟩

end Alignment

end TrapStub
