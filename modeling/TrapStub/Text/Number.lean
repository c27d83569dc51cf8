import TrapStub.Text

/-!
# Numbers as text

* `decimal`: an integer in base ten.
* `hexByte`: an integer in base sixteen, upper case, at least two characters wide; a minus sign
  counts towards the width.
-/

namespace TrapStub.Text

/-- The digits of `n` in base ten. -/
def natural (n : Nat) : Text := (Nat.toDigits 10 n).map .char

/-- An integer in base ten, with a minus sign if it is negative. -/
def decimal (n : Int) : Text := if n < 0 then "-" ++ natural n.natAbs else natural n.natAbs

/-- An integer in upper case base sixteen, filled with a zero to two characters. -/
def hexByte (n : Int) : Text :=
  let digits := (Nat.toDigits 16 n.natAbs).map fun c => Glyph.char c.toUpper
  if n < 0 then "-" ++ digits
  else List.replicate (2 - digits.length) (Glyph.char '0') ++ digits

end TrapStub.Text
