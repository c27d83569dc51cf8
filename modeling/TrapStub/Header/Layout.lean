import TrapStub.Path
import TrapStub.Text.Space
import TrapStub.Text.Lines
import TrapStub.Text.Number

/-!
# Parts of a header file

* `Header.guardOf`: the include guard for a file name.
* `Header.sectionTitle`: the comment that opens a section.
* `Header.commentLines`: a comment as it is copied.
-/

namespace TrapStub.Header

/-- One step of indentation. -/
def indent : Text := "    "

/-- The text without the occurrences of a dot followed by an h, found from left to right. -/
def dropExtensions : Text → Text
  | .char '.' :: .char 'h' :: rest => dropExtensions rest
  | g :: rest => g :: dropExtensions rest
  | [] => []

/-- A glyph of a guard: ASCII letters in upper case, ASCII digits, and underscores for all else. -/
def guardGlyph (g : Glyph) : Glyph :=
  if g.isAsciiLetter || g.isAsciiDigit then g.upper else .char '_'

/-- The include guard for an output file: `nrf_svc.h` has `NRF_SVC_H`. -/
def guardOf (outputName : Text) : Text :=
  let stem := (dropExtensions (Path.ofText outputName).name).map guardGlyph ++ "_H"
  match stem with
  | g :: _ => if g.isAsciiDigit then "_" ++ stem else stem
  | [] => stem

/-- The comment that opens a section, filled with rules up to a common width. -/
def sectionTitle (title : Text) : Text :=
  "/* ── " ++ title ++ " " ++ Text.times (max 4 (68 - title.length)) "─" ++ " */"

/-- The lines of a comment without white space at their ends; none if comments are not copied. -/
def commentLines (enabled : Bool) (comment : Option Text) : List Text :=
  if enabled then (Text.lines (comment.getD [])).map Text.stripEnd else []

end TrapStub.Header
