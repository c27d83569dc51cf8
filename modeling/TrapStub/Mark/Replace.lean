import TrapStub.Mark
import TrapStub.Fault

/-!
# Replacing annotations

Before a header is parsed, each annotation is replaced, on its own lines, by a plain prototype that
carries a tag and by an enum with one constant, the trap number:

    uint32_t sd_ble_enable(uint32_t * p_app_ram_base)
        __attribute__((annotate("svcall:SD_BLE_ENABLE")));
    enum { __svcall_sd_ble_enable = (SD_BLE_ENABLE) };

* `Piece.ofText`: a header as statements and the glyphs between them.
* `Piece.flatMap_written_ofText`: put together again, the pieces are the header.
* `Mark.replace`: the header with every statement replaced, and its annotations. A line that
  starts like a statement but is not one makes the header malformed.
-/

namespace TrapStub

/-- What tags a prototype as a trap function. -/
def trapTag : Text := "svcall:"

/-- What the names of constants with trap numbers start with. -/
def trapConstantStem : Text := "__svcall_"

namespace Mark

/-- The trap number without white space around it. -/
def Statement.symbol (s : Statement) : Text := Text.strip s.number

/-- The prototype and the constant that stand for a statement, on one line unless its parts hold
line ends. -/
def Statement.prototype (s : Statement) : Text :=
  s.indent ++ s.returnType ++ " " ++ s.name ++ "(" ++ s.parameters ++
    ") __attribute__((annotate(\"" ++ trapTag ++ s.symbol ++ "\"))); enum \x7b " ++
    trapConstantStem ++ s.name ++ " = (" ++ s.symbol ++ ") \x7d;"

/-- What replaces a statement: line ends that the prototype lacks follow it. -/
def Statement.replacement (s : Statement) : Text :=
  s.prototype ++
    Text.times (Text.newlines s.written - Text.newlines s.prototype) [Glyph.newline]

/-- A part of a header: a statement, or a glyph outside statements. -/
inductive Piece where
  | glyph (g : Glyph)
  | statement (s : Statement)
  deriving DecidableEq, Repr

namespace Piece

/-- The piece as it stands in the header. -/
def written : Piece → Text
  | glyph g => [g]
  | statement s => s.written

/-- The piece as it stands in the header after replacement. -/
def replaced : Piece → Text
  | glyph g => [g]
  | statement s => s.replacement

/-- The pieces of a text, passing over `skip` glyphs first, which belong to the last statement.
Statements are only looked for at the start of a line. -/
def piecesFrom (marker : Text) : (skip : Nat) → (lineStart : Bool) → Text → List Piece
  | _, _, [] => []
  | skip + 1, _, _ :: rest => piecesFrom marker skip false rest
  | 0, lineStart, g :: rest =>
    match if lineStart then statement? marker (g :: rest) else none with
    | some s => statement s :: piecesFrom marker (s.written.length - 1) false rest
    | none => glyph g :: piecesFrom marker 0 (g == Glyph.newline) rest

/-- The pieces of a header, in order. -/
def ofText (marker t : Text) : List Piece := piecesFrom marker 0 true t

theorem flatMap_written_piecesFrom (marker : Text) (skip : Nat) (lineStart : Bool) (t : Text) :
    (piecesFrom marker skip lineStart t).flatMap written = t.drop skip := by
  induction t generalizing skip lineStart with
  | nil => cases skip <;> rfl
  | cons g rest ih =>
    cases skip with
    | succ skip => simpa [piecesFrom] using ih skip false
    | zero =>
      simp only [piecesFrom, List.drop_zero]
      split
      · next s found =>
        have found : statement? marker (g :: rest) = some s := by
          cases lineStart <;> simp_all
        obtain ⟨n, taken, short⟩ := written_of_statement? found
        have length : s.written.length - 1 = n := by
          rw [taken, List.length_take]
          omega
        rw [List.flatMap_cons, ih, length, written, taken, List.take_succ_cons, List.cons_append,
          List.take_append_drop]
      · rw [List.flatMap_cons, ih, written, List.drop_zero, List.singleton_append]

/-- **Nothing is lost**: put together again, the pieces are the header. -/
theorem flatMap_written_ofText (marker t : Text) : (ofText marker t).flatMap written = t :=
  flatMap_written_piecesFrom marker 0 true t

end Piece

/-- The annotations among some pieces, the first of which starts on `line`. -/
def annotationsFrom (origin : Text) : (line : Nat) → List Piece → List Mark
  | _, [] => []
  | line, piece :: rest =>
    let lastLine := line + Text.newlines piece.written
    match piece with
    | .glyph _ => annotationsFrom origin lastLine rest
    | .statement s =>
      ⟨origin, line, lastLine, s.name, s.symbol⟩ :: annotationsFrom origin lastLine rest

/-- The line numbers on which a text starts like a statement, each with what the line holds. The
search goes on behind the opening parenthesis, after `skip` glyphs. -/
def openingLines (marker : Text) : (skip line : Nat) → (lineStart : Bool) → Text → List (Nat × Text)
  | _, _, _, [] => []
  | skip, line, lineStart, g :: rest =>
    let next := if g = Glyph.newline then line + 1 else line
    match skip with
    | skip + 1 => openingLines marker skip next (g == Glyph.newline) rest
    | 0 =>
      match if lineStart then opening? marker (g :: rest) else none with
      | some behind =>
        (line, (g :: rest).takeWhile (· != Glyph.newline)) ::
          openingLines marker (rest.length - behind.length) next false rest
      | none => openingLines marker 0 next (g == Glyph.newline) rest

/-- The header after replacement and its annotations in order. -/
def replace (marker origin t : Text) : Except Fault (Text × List Mark) :=
  let pieces := Piece.ofText marker t
  let annotations := annotationsFrom origin 1 pieces
  let lines := annotations.map (·.line)
  match (openingLines marker 0 1 true t).find? fun (line, _) => line ∉ lines with
  | some (line, statement) =>
    .error (.malformedAt (.incompleteMark marker (Text.strip statement))
      (origin ++ ":" ++ Text.natural line))
  | none => .ok (pieces.flatMap Piece.replaced, annotations)

end Mark

end TrapStub
