import TrapStub.Text.Printable

/-!
# Quoted text

How a path stands in a message: in single quotes, or in double quotes if it holds a single quote
and no double quote; a backslash before the quote and before a backslash; short escapes for tab,
line feed and carriage return; and the code point in two, four or eight hexadecimal digits for
every other glyph that is not printable.
-/

namespace TrapStub.Text

/-- The hexadecimal digits of `n`, lower case, with zeros up to `width`. -/
def hexDigits (width n : Nat) : Text :=
  let digits := (Nat.toDigits 16 n).map Glyph.char
  List.replicate (width - digits.length) (Glyph.char '0') ++ digits

/-- The escape that names a code point by its number. -/
def codeEscape (code : Nat) : Text :=
  if code < 0x100 then "\\x" ++ hexDigits 2 code
  else if code < 0x10000 then "\\u" ++ hexDigits 4 code
  else "\\U" ++ hexDigits 8 code

/-- One glyph inside quotes of the kind `mark`. -/
def quoteGlyph (mark g : Glyph) : Text :=
  if g = mark || g.is '\\' then [.char '\\', g]
  else if g.is '\t' then "\\t"
  else if g.is '\n' then "\\n"
  else if g.is '\r' then "\\r"
  else if g.isPrintable then [g]
  else codeEscape g.code

/-- The text in quotes, on one line and with printable characters only. -/
def quote (t : Text) : Text :=
  let single := Glyph.char '\''
  let double := Glyph.char '"'
  let mark := if single ∈ t && !(double ∈ t) then double else single
  [mark] ++ t.flatMap (quoteGlyph mark) ++ [mark]

end TrapStub.Text
