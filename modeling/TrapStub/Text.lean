/-!
# Text

The program reads C headers whose bytes need not be valid UTF-8 and writes parts of them back
unchanged. A text is therefore a list of glyphs, where a glyph is a Unicode character or a single
byte that belongs to no character.

* `Glyph.code`: the number a glyph is ordered by; raw bytes stand at `0xDC00 + b`, a range that
  no character uses.
* `Text.le`: texts in lexicographic order of their codes, the order of every sorted listing.
* `Text.ofString`: plain characters, also as a coercion.
-/

namespace TrapStub

/-- One position of a text. -/
inductive Glyph where
  /-- A Unicode character. -/
  | char (c : Char)
  /-- A byte that is not part of any valid UTF-8 sequence. -/
  | raw (b : UInt8)
  deriving DecidableEq, Repr, Inhabited

namespace Glyph

/-- The number a glyph is ordered and classified by. -/
def code : Glyph → Nat
  | char c => c.toNat
  | raw b => 0xDC00 + b.toNat

/-- Line feed, the only line end inside the program. -/
def newline : Glyph := char '\n'

/-- The glyph is the character `c`. -/
def is (g : Glyph) (c : Char) : Bool := g == char c

/-- One of the ten ASCII digits. -/
def isAsciiDigit (g : Glyph) : Bool := 0x30 ≤ g.code && g.code ≤ 0x39

/-- One of the 52 ASCII letters. -/
def isAsciiLetter (g : Glyph) : Bool :=
  (0x41 ≤ g.code && g.code ≤ 0x5A) || (0x61 ≤ g.code && g.code ≤ 0x7A)

/-- An ASCII letter in upper case; any other glyph as it is. -/
def upper : Glyph → Glyph
  | char c => char c.toUpper
  | raw b => raw b

end Glyph

/-- A text: characters and undecodable bytes in reading order. -/
abbrev Text := List Glyph

instance : LawfulBEq Text := inferInstanceAs (LawfulBEq (List Glyph))

namespace Text

/-- The text of a string's characters. -/
def ofString (s : String) : Text := s.toList.map Glyph.char

instance : Coe String Text := ⟨ofString⟩

/-- No glyph is an undecodable byte. -/
def isPlain (t : Text) : Bool := t.all fun g => match g with
  | .char _ => true
  | .raw _ => false

/-- The characters of a text; undecodable bytes are left out. -/
def characters (t : Text) : List Char := t.filterMap fun g => match g with
  | .char c => some c
  | .raw _ => none

/-- Lexicographic order by glyph codes; a proper beginning comes first. -/
def le : Text → Text → Bool
  | [], _ => true
  | _ :: _, [] => false
  | a :: s, b :: t => a.code < b.code || (a.code == b.code && le s t)

/-- The parts in order with `separator` between neighbours. -/
def join (separator : Text) : List Text → Text
  | [] => []
  | [part] => part
  | part :: next :: rest => part ++ separator ++ join separator (next :: rest)

/-- The lines as one text, a line feed between neighbours. -/
def unlines (lines : List Text) : Text := join [Glyph.newline] lines

/-- How many line feeds the text holds. -/
def newlines (t : Text) : Nat := t.count Glyph.newline

/-- The text `n` times over. -/
def times (n : Nat) (t : Text) : Text := (List.replicate n t).flatten

/-- Parts of the text between occurrences of `separator`; always at least one part. -/
def splitOn (separator : Glyph) : Text → List Text
  | [] => [[]]
  | g :: rest =>
    if g = separator then [] :: splitOn separator rest
    else match splitOn separator rest with
      | [] => [[g]]
      | part :: parts => (g :: part) :: parts

/-- The text without leading and trailing glyphs that satisfy `p`. -/
def trim (p : Glyph → Bool) (t : Text) : Text :=
  ((t.dropWhile p).reverse.dropWhile p).reverse

/-- The text without trailing glyphs that satisfy `p`. -/
def trimEnd (p : Glyph → Bool) (t : Text) : Text := (t.reverse.dropWhile p).reverse

/-- What follows `stem` when the text begins with it. -/
def after? : (stem text : Text) → Option Text
  | [], text => some text
  | _ :: _, [] => none
  | s :: stem, g :: text => if s = g then after? stem text else none

theorem eq_append_of_after? {stem text rest : Text} (h : after? stem text = some rest) :
    text = stem ++ rest := by
  induction stem generalizing text with
  | nil => simpa [after?] using h
  | cons s stem ih =>
    cases text with
    | nil => simp [after?] at h
    | cons g text =>
      simp only [after?] at h
      split at h
      · next same => rw [same, ih h, List.cons_append]
      · simp at h

theorem length_of_after? {stem text rest : Text} (h : after? stem text = some rest) :
    stem.length + rest.length = text.length := by
  rw [eq_append_of_after? h, List.length_append]

/-- The text begins with `stem`. -/
def startsWith (text stem : Text) : Bool := (after? stem text).isSome

/-- The text ends with `tail`. -/
def endsWith (text tail : Text) : Bool := startsWith text.reverse tail.reverse

/-- The text with `fill` appended up to `width` glyphs. -/
def padEnd (width : Nat) (fill : Char) (t : Text) : Text :=
  t ++ List.replicate (width - t.length) (Glyph.char fill)

/-- The text in single quotes. -/
def quoted (t : Text) : Text := "'" ++ t ++ "'"

end Text

end TrapStub
