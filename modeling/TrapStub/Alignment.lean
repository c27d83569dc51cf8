import TrapStub.Fault
import TrapStub.Text.Word

/-!
# Alignments

What the argument of an `aligned` attribute asks for.

* `Alignment.ofArgument`: the alignment that an argument spells, if it is a number.
* `Alignment.inferred`: an alignment that agrees with where a member was placed, used when the
  argument cannot be seen.
-/

namespace TrapStub.Alignment

/-- The alignment of an attribute without an argument. -/
def biggest : Int := 8

/-- The most digits that a decimal number may have. -/
def mostDigits : Nat := 4300

/-- A letter that may stand behind a number. -/
def isSuffix (g : Glyph) : Bool := g.is 'u' || g.is 'U' || g.is 'l' || g.is 'L'

/-- The value of a hexadecimal digit. -/
def hexDigit? (g : Glyph) : Option Nat :=
  if g.isAsciiDigit then some (g.code - 0x30)
  else if 0x41 ≤ g.code && g.code ≤ 0x46 then some (g.code - 0x41 + 10)
  else if 0x61 ≤ g.code && g.code ≤ 0x66 then some (g.code - 0x61 + 10)
  else none

/-- The number whose digits in a base are given, the highest first. -/
def ofDigits (base : Nat) (digits : List Nat) : Nat := digits.foldl (fun n d => n * base + d) 0

/-- The digits behind the mark of a hexadecimal number. -/
def hexDigits? : Text → Option (List Nat)
  | mark :: x :: digits =>
    if mark.is '0' && (x.is 'x' || x.is 'X') && !digits.isEmpty then digits.mapM hexDigit? else none
  | _ => none

/-- The digits of a decimal number. -/
def decimalDigits? (t : Text) : Option (List Nat) :=
  if t.isEmpty then none else t.mapM Glyph.digit?

/-- The number that a text spells: hexadecimal or decimal with any of the usual suffixes. A decimal
number other than zero must not start with a zero. -/
def number? (t : Text) : Except Fault (Option Int) :=
  let digits := Text.trimEnd isSuffix t
  match hexDigits? digits, decimalDigits? digits with
  | some values, _ => .ok (some (ofDigits 16 values))
  | none, some values =>
    if values.length > mostDigits then .error (.literalTooLong t)
    else if values.head? = some 0 && values.any (· != 0) then .error (.leadingZeros t)
    else .ok (some (ofDigits 10 values))
  | none, none => .ok none

/-- The alignment that an attribute's argument spells. An attribute without argument asks for the
biggest alignment; an argument that is no number tells nothing. -/
def ofArgument (argument : Option Text) : Except Fault (Option Int) :=
  match argument with
  | none => .ok none
  | some [] => .ok (some biggest)
  | some text => number? text

/-- The largest alignment up to the biggest that a member's place in bits allows; for a member at
the start of its record, the record's alignment. -/
def inferred (offset : Option Int) (recordAlign : Int) : Int :=
  let position := offset.getD 0 / 8
  if position = 0 then max 1 recordAlign else Int.gcd position biggest

end TrapStub.Alignment
