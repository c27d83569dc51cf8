import TrapStub.Text

/-!
# Lines

Two notions of a line end. Files read as text have their line ends made uniform first
(`Text.normalizeLineEnds`); comments are cut at every line boundary that Unicode knows
(`Text.lines`).
-/

namespace TrapStub

/-- A character that ends a line in `Text.lines`. -/
def Glyph.isLineBreak (g : Glyph) : Bool :=
  (0xA ≤ g.code && g.code ≤ 0xD) || (0x1C ≤ g.code && g.code ≤ 0x1E) ||
    g.code == 0x85 || g.code == 0x2028 || g.code == 0x2029

namespace Text

/-- Carriage returns become line feeds; one before a line feed disappears. -/
def normalizeLineEnds : Text → Text
  | [] => []
  | .char '\r' :: .char '\n' :: rest => Glyph.newline :: normalizeLineEnds rest
  | .char '\r' :: rest => Glyph.newline :: normalizeLineEnds rest
  | g :: rest => g :: normalizeLineEnds rest

/-- The line that is being read, put before the lines that follow it. -/
private def extendLine (g : Glyph) : List Text → List Text
  | [] => [[g]]
  | line :: rest => (g :: line) :: rest

/-- The lines of a text without their ends. A carriage return with a line feed ends one line, and
a text that ends with a line end has no empty line after it. -/
def lines : Text → List Text
  | [] => []
  | .char '\r' :: .char '\n' :: rest => [] :: lines rest
  | g :: rest => if g.isLineBreak then [] :: lines rest else extendLine g (lines rest)

end Text

end TrapStub
