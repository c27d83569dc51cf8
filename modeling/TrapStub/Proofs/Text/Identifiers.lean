import Mathlib.Data.List.Basic
import TrapStub.Text.Number
import TrapStub.Text.Space
import TrapStub.Text.Word

/-!
# Identifiers in a text

The identifiers of a text are its longest runs of word characters. Where two texts meet at a
character that belongs to no word, the identifiers of the whole are those of the parts, so what
holds of the words of the parts of a generated line holds of those of the line.

* `Text.identifiers`, with `identifiers_append_cons`.
* `Text.Avoids`: no identifier of a text is among some unwanted ones, with its rules for the ways
  texts are put together.
-/

namespace TrapStub

namespace Text

/-- The identifiers and numbers in a text, in reading order: its longest runs of word characters. -/
def identifiers (t : Text) : List Text := (t.splitOnP (!·.isWord)).filter (· ≠ [])

theorem identifiers_append_cons {g : Glyph} (hg : g.isWord = false) (a b : Text) :
    identifiers (a ++ g :: b) = identifiers a ++ identifiers b := by
  unfold identifiers
  rw [List.splitOnP_append_cons a b (by rw [hg]; rfl), List.filter_append]

theorem mem_of_mem_splitOnP {p : Glyph → Bool} {t w : Text} (hw : w ∈ t.splitOnP p) : ∀ g ∈ w, g ∈ t := by
  induction t generalizing w with
  | nil =>
    rw [List.splitOnP_nil, List.mem_singleton] at hw
    rw [hw]
    nofun
  | cons h t ih =>
    rw [List.splitOnP_cons_eq_if_modifyHead] at hw
    split at hw
    · rcases List.mem_cons.1 hw with rfl | hw
      · nofun
      · exact fun g hg => List.mem_cons_of_mem h (ih hw g hg)
    · obtain ⟨run, more, hr⟩ := List.exists_cons_of_ne_nil (List.splitOnP_ne_nil p t)
      rw [hr, List.modifyHead_cons] at hw
      rw [hr] at ih
      intro g hg
      rcases List.mem_cons.1 hw with rfl | hw
      · rcases List.mem_cons.1 hg with rfl | hg
        · exact List.mem_cons_self
        · exact List.mem_cons_of_mem h (ih List.mem_cons_self g hg)
      · exact List.mem_cons_of_mem h (ih (List.mem_cons_of_mem run hw) g hg)

/-! ## ASCII -/

/-- A letter, digit or underscore of ASCII. -/
def isAsciiWord (g : Glyph) : Bool := g.isAsciiLetter || g.isAsciiDigit || g.code == 0x5F

/-- The identifiers of an ASCII text, found without the table of the other scripts. -/
def asciiIdentifiers (t : Text) : List Text := (t.splitOnP (!isAsciiWord ·)).filter (· ≠ [])

theorem isWord_of_ascii {g : Glyph} (h : g.code < 128) : g.isWord = isAsciiWord g := by
  have hother : ∀ r ∈ wordRanges.drop 4, 128 ≤ r.1 := by decide +kernel
  have hword : g.isWord = wordRanges.any fun r => r.1 ≤ g.code && g.code ≤ r.2 := rfl
  have hrest : (wordRanges.drop 4).any (fun r => r.1 ≤ g.code && g.code ≤ r.2) = false := by
    rw [List.any_eq_false]
    intro r hr hin
    have := hother r hr
    simp only [Bool.and_eq_true, decide_eq_true_eq] at hin
    omega
  rw [hword, ← List.take_append_drop 4 wordRanges, List.any_append, hrest, Bool.or_false]
  rw [show wordRanges.take 4 = [(0x30, 0x39), (0x41, 0x5A), (0x5F, 0x5F), (0x61, 0x7A)] from rfl]
  unfold isAsciiWord Glyph.isAsciiLetter Glyph.isAsciiDigit
  rw [Bool.eq_iff_iff]
  simp only [List.any_cons, List.any_nil, Bool.or_eq_true, Bool.and_eq_true, decide_eq_true_eq, beq_iff_eq,
    Bool.false_eq_true, or_false]
  constructor
  · intro hin
    omega
  · intro hin
    omega

theorem isWord_of_isAsciiWord {g : Glyph} (h : isAsciiWord g = true) : g.isWord = true := by
  have hcode : g.code < 128 := by
    unfold isAsciiWord Glyph.isAsciiLetter Glyph.isAsciiDigit at h
    simp only [Bool.or_eq_true, Bool.and_eq_true, decide_eq_true_eq, beq_iff_eq] at h
    omega
  rw [isWord_of_ascii hcode]
  exact h

/-- A text of words of ASCII, found without the table of the other scripts. -/
theorem forall_isWord {t : Text} (h : t.all isAsciiWord = true) : ∀ g ∈ t, g.isWord = true :=
  fun g hg => isWord_of_isAsciiWord (List.all_eq_true.1 h g hg)

/-- A character of ASCII that belongs to no word. -/
def isAsciiApart (g : Glyph) : Bool := g.code < 128 && !isAsciiWord g

theorem isWord_of_apart {g : Glyph} (h : isAsciiApart g = true) : g.isWord = false := by
  obtain ⟨hcode, hword⟩ := Bool.and_eq_true_iff.1 h
  rw [isWord_of_ascii (of_decide_eq_true hcode)]
  simpa using hword

/-- A text of such characters, found without the table of the other scripts. -/
theorem apart {t : Text} (h : t.all isAsciiApart = true) : ∀ g ∈ t, g.isWord = false :=
  fun g hg => isWord_of_apart (List.all_eq_true.1 h g hg)

theorem identifiers_of_ascii {t : Text} (h : ∀ g ∈ t, g.code < 128) :
    identifiers t = asciiIdentifiers t := by
  have hruns : t.splitOnP (!·.isWord) = t.splitOnP (!isAsciiWord ·) := by
    induction t with
    | nil => rfl
    | cons g t ih =>
      rw [List.splitOnP_cons_eq_if_modifyHead, List.splitOnP_cons_eq_if_modifyHead,
        isWord_of_ascii (h g List.mem_cons_self), ih fun x hx => h x (List.mem_cons_of_mem g hx)]
  unfold identifiers asciiIdentifiers
  rw [hruns]

/-! ## Texts without unwanted identifiers -/

/-- No identifier of the text is unwanted. -/
def Avoids (unwanted : Text → Prop) (t : Text) : Prop := ∀ w ∈ identifiers t, ¬ unwanted w

/-- The text is empty or starts with a character of no word. -/
def StartsApart (t : Text) : Prop := ∀ g ∈ t.head?, g.isWord = false

variable {unwanted : Text → Prop} {a b t : Text}

theorem avoids_nil : Avoids unwanted [] := by
  intro w hw
  simp [identifiers] at hw

theorem Avoids.append_cons {g : Glyph} (hg : g.isWord = false) (ha : Avoids unwanted a)
    (hb : Avoids unwanted b) : Avoids unwanted (a ++ g :: b) := by
  intro w hw
  rw [identifiers_append_cons hg, List.mem_append] at hw
  rcases hw with hw | hw
  · exact ha w hw
  · exact hb w hw

theorem Avoids.cons {g : Glyph} (hg : g.isWord = false) (ht : Avoids unwanted t) :
    Avoids unwanted (g :: t) :=
  avoids_nil.append_cons hg ht

/-- What stands in front of a character of no word avoids what the whole avoids. -/
theorem Avoids.of_append_cons {g : Glyph} (hg : g.isWord = false) (h : Avoids unwanted (a ++ g :: b)) :
    Avoids unwanted a ∧ Avoids unwanted b := by
  unfold Avoids at h
  rw [identifiers_append_cons hg] at h
  exact ⟨fun w hw => h w (List.mem_append_left _ hw), fun w hw => h w (List.mem_append_right _ hw)⟩

/-- Two texts may be joined where the second starts apart. -/
theorem Avoids.append (ha : Avoids unwanted a) (hb : Avoids unwanted b) (h : StartsApart b) :
    Avoids unwanted (a ++ b) := by
  cases b with
  | nil => rw [List.append_nil]; exact ha
  | cons g b =>
    have hg : g.isWord = false := h g rfl
    exact ha.append_cons hg (Avoids.of_append_cons (a := []) hg hb).2

/-- Characters of no word may be put in front. -/
theorem Avoids.prepend {separator : Text} (hs : ∀ g ∈ separator, g.isWord = false)
    (hb : Avoids unwanted b) : Avoids unwanted (separator ++ b) := by
  induction separator with
  | nil => exact hb
  | cons g s ih =>
    exact (ih fun x hx => hs x (List.mem_cons_of_mem g hx)).cons (hs g List.mem_cons_self)

/-- Two texts may be joined by characters of no word. -/
theorem Avoids.append_append {separator : Text} (hs : ∀ g ∈ separator, g.isWord = false)
    (hne : separator ≠ []) (ha : Avoids unwanted a) (hb : Avoids unwanted b) :
    Avoids unwanted (a ++ separator ++ b) := by
  obtain ⟨g, s, rfl⟩ := List.exists_cons_of_ne_nil hne
  rw [List.append_assoc]
  refine ha.append (hb.prepend hs) ?_
  intro x hx
  obtain rfl : g = x := by simpa using hx
  exact hs g List.mem_cons_self

/-- Parts may be joined by characters of no word. -/
theorem Avoids.join {separator : Text} (hs : ∀ g ∈ separator, g.isWord = false)
    (hne : separator ≠ []) : ∀ {parts : List Text}, (∀ part ∈ parts, Avoids unwanted part) →
      Avoids unwanted (join separator parts)
  | [], _ => avoids_nil
  | [part], hp => hp part List.mem_cons_self
  | part :: next :: rest, hp => by
    unfold Text.join
    exact (hp part List.mem_cons_self).append_append hs hne
      (Avoids.join hs hne fun p h => hp p (List.mem_cons_of_mem part h))

/-- A text without underscores has no identifier that contains one. -/
theorem avoids_of_no_underscore (hu : ∀ w, unwanted w → Glyph.char '_' ∈ w)
    (ht : Glyph.char '_' ∉ t) : Avoids unwanted t := by
  intro w hw hbad
  exact ht (mem_of_mem_splitOnP (List.mem_of_mem_filter hw) _ (hu w hbad))

/-! ## White space and numbers -/

/-- No range of white space meets one of the word characters. -/
theorem spaceRanges_apart : ∀ s ∈ spaceRanges, ∀ w ∈ wordRanges, s.2 < w.1 ∨ w.2 < s.1 := by
  decide +kernel

/-- White space belongs to no word. -/
theorem not_isWord_of_isSpace {g : Glyph} (h : g.isSpace = true) : g.isWord = false := by
  obtain ⟨s, hs, hle⟩ := List.any_eq_true.1 h
  rw [Bool.eq_false_iff]
  intro hw
  obtain ⟨w, hmem, hle'⟩ := List.any_eq_true.1 hw
  simp only [Bool.and_eq_true, decide_eq_true_eq] at hle hle'
  rcases spaceRanges_apart s hs w hmem with h | h <;> omega

theorem trimEnd_append {p : Glyph → Bool} {t suffix : Text} (hs : ∀ g ∈ suffix, p g = true)
    (ht : ∀ g ∈ t.getLast?, p g = false) : trimEnd p (t ++ suffix) = t := by
  unfold trimEnd
  rw [List.reverse_append, List.dropWhile_append_of_pos (by simpa using hs)]
  have hstop : t.reverse.dropWhile p = t.reverse := by
    cases hr : t.reverse with
    | nil => rfl
    | cons g rest =>
      have hlast : t.getLast? = some g := by rw [← List.head?_reverse, hr]; rfl
      rw [List.dropWhile_cons_of_neg (by rw [ht g hlast]; exact Bool.false_ne_true)]
  rw [hstop, List.reverse_reverse]

/-- Trimming at the end keeps what is avoided. -/
theorem Avoids.stripEnd (h : Avoids unwanted t) : Avoids unwanted (stripEnd t) := by
  have hsplit : t = Text.stripEnd t ++ (t.reverse.takeWhile Glyph.isSpace).reverse := by
    unfold Text.stripEnd trimEnd
    rw [← List.reverse_append, List.takeWhile_append_dropWhile, List.reverse_reverse]
  cases hr : (t.reverse.takeWhile Glyph.isSpace).reverse with
  | nil => rw [hr, List.append_nil] at hsplit; rw [← hsplit]; exact h
  | cons g rest =>
    rw [hr] at hsplit
    have hmem : g ∈ t.reverse.takeWhile Glyph.isSpace := by
      rw [← List.mem_reverse, hr]; exact List.mem_cons_self
    have hg := not_isWord_of_isSpace (List.all_eq_true.1 List.all_takeWhile g hmem)
    rw [hsplit] at h
    exact (Avoids.of_append_cons hg h).1

theorem natural_injective {m n : Nat} (h : natural m = natural n) : m = n := by
  have hchar : Function.Injective Glyph.char := fun _ _ => Glyph.char.inj
  have hdigits := List.map_injective_iff.2 hchar h
  rw [← Nat.ofDigitChars_ten_toDigits (n := m), hdigits, Nat.ofDigitChars_ten_toDigits]

theorem natural_digits (n : Nat) : ∀ g ∈ natural n, g.isAsciiDigit = true := by
  intro g hg
  obtain ⟨d, hd, rfl⟩ := List.mem_map.1 hg
  have hdigit := Nat.isDigit_of_mem_toDigits (by decide) (by decide) hd
  have hrange : 48 ≤ d.toNat ∧ d.toNat ≤ 57 := by
    simpa [Char.isDigit, UInt32.le_iff_toNat_le] using hdigit
  unfold Glyph.isAsciiDigit
  rw [Bool.and_eq_true]
  exact ⟨decide_eq_true hrange.1, decide_eq_true hrange.2⟩

theorem underscore_not_mem_natural (n : Nat) : Glyph.char '_' ∉ natural n := by
  unfold natural
  intro h
  obtain ⟨c, hc, e⟩ := List.mem_map.1 h
  rw [Glyph.char.injEq] at e
  exact Nat.underscore_not_in_toDigits (e ▸ hc)

theorem underscore_not_mem_decimal (n : Int) : Glyph.char '_' ∉ decimal n := by
  unfold decimal
  split
  · intro h
    rcases List.mem_append.1 h with h | h
    · exact absurd h (by decide)
    · exact underscore_not_mem_natural _ h
  · exact underscore_not_mem_natural _

end Text

end TrapStub
