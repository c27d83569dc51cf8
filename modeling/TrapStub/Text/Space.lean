import TrapStub.Text

/-!
# White space

The 29 characters that separate words: the Unicode space separators, the line and paragraph
separators and the ASCII control characters that end lines, fields or records. Undecodable bytes
are never space.

* `Glyph.isSpace`: membership in the table.
* `Text.strip`, `Text.stripEnd`, `Text.words`: trimming and splitting at white space.
-/

namespace TrapStub

/-- Ranges of white space code points, both ends included. -/
def spaceRanges : List (Nat × Nat) :=
  [(0x9, 0xD), (0x1C, 0x20), (0x85, 0x85), (0xA0, 0xA0), (0x1680, 0x1680), (0x2000, 0x200A),
   (0x2028, 0x2029), (0x202F, 0x202F), (0x205F, 0x205F), (0x3000, 0x3000)]

/-- White space. -/
def Glyph.isSpace (g : Glyph) : Bool :=
  spaceRanges.any fun (low, high) => low ≤ g.code && g.code ≤ high

/-- A space or a tab, the white space that may indent a line. -/
def Glyph.isBlank (g : Glyph) : Bool := g.is ' ' || g.is '\t'

namespace Text

/-- The text without white space at its ends. -/
def strip (t : Text) : Text := trim Glyph.isSpace t

/-- The text without white space at its end. -/
def stripEnd (t : Text) : Text := trimEnd Glyph.isSpace t

/-- The text without white space at its start. -/
def stripStart (t : Text) : Text := t.dropWhile Glyph.isSpace

/-- The maximal runs of glyphs that are not white space. -/
def words : Text → List Text
  | [] => []
  | g :: rest =>
    if g.isSpace then words rest
    else match rest, words rest with
      | next :: _, word :: more => if next.isSpace then [g] :: word :: more else (g :: word) :: more
      | _, more => [g] :: more

end Text

end TrapStub
