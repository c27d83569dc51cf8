/-!
# Register words

A register holds 32 bits; a 64-bit value takes two, its low word first. Integers of any size and
sign are read modulo the width they are stored in.

* `splitWords`, `joinWords`: a 64-bit value as two words and back.
-/

namespace TrapStub

/-- Bytes in a register. -/
def registerBytes : Nat := 4

/-- Bits in a register. -/
def registerBits : Nat := registerBytes * 8

/-- How many values a register can hold. -/
def wordCount : Int := Int.pow 2 registerBits

/-- The two words of a 64-bit value. -/
inductive Half where
  | low
  | high
  deriving DecidableEq, Repr

namespace Half

/-- The position of a half's lowest bit in the whole. -/
def shift : Half → Nat
  | low => 0
  | high => registerBits

/-- The word of a value that a half names. -/
def word (half : Half) (value : Int) : Int := value / Int.pow 2 half.shift % wordCount

end Half

/-- The low and the high word of a value, read modulo 2⁶⁴. -/
def splitWords (value : Int) : Int × Int := (Half.low.word value, Half.high.word value)

/-- The 64-bit value with the given words, each read modulo 2³². -/
def joinWords (low high : Int) : Int :=
  high % wordCount * Int.pow 2 Half.high.shift + low % wordCount * Int.pow 2 Half.low.shift

end TrapStub
