import TrapStub.Word
import Mathlib.Tactic.NormNum

/-!
# The two words of a value

A value of any size and sign has a low and a high word; together they are the value modulo 2⁶⁴. The words are
told by division here, and `Half.word_eq_extract` says that masks and shifts of 64 bits tell the same.

* `Half.word_mem`: a word is one.
* `joinWords_splitWords`, `splitWords_joinWords`: **splitting and joining undo each other**, modulo the widths.
* `toNat_pair`: a word shifted by a word beside another one is the two of them joined.
-/

namespace TrapStub

variable {v low high : Int}

theorem wordCount_eq : wordCount = 4294967296 := by decide

theorem Half.low_word (v : Int) : Half.low.word v = v % 4294967296 := by
  have hshift : Int.pow 2 Half.low.shift = 1 := by decide
  rw [Half.word, hshift, wordCount_eq, Int.ediv_one]

theorem Half.high_word (v : Int) : Half.high.word v = v / 4294967296 % 4294967296 := by
  have hshift : Int.pow 2 Half.high.shift = 4294967296 := by decide
  rw [Half.word, hshift, wordCount_eq]

theorem joinWords_eq (low high : Int) :
    joinWords low high = high % 4294967296 * 4294967296 + low % 4294967296 := by
  have hlow : Int.pow 2 Half.low.shift = 1 := by decide
  have hhigh : Int.pow 2 Half.high.shift = 4294967296 := by decide
  rw [joinWords, hlow, hhigh, wordCount_eq, Int.mul_one]

/-- A word is at least zero and below 2³². -/
theorem Half.word_mem (half : Half) (v : Int) : 0 ≤ half.word v ∧ half.word v < 4294967296 := by
  cases half with
  | low =>
    rw [Half.low_word]
    omega
  | high =>
    rw [Half.high_word]
    omega

/-- **The words of a value joined** are the value modulo 2⁶⁴. -/
theorem joinWords_splitWords (v : Int) :
    joinWords (splitWords v).1 (splitWords v).2 = v % 18446744073709551616 := by
  unfold splitWords
  rw [joinWords_eq, Half.low_word, Half.high_word]
  omega

/-- **Joined words are split again**, each modulo 2³². -/
theorem splitWords_joinWords (low high : Int) :
    splitWords (joinWords low high) = (low % 4294967296, high % 4294967296) := by
  unfold splitWords
  rw [joinWords_eq, Half.low_word, Half.high_word]
  refine Prod.ext ?_ ?_
  · change (high % 4294967296 * 4294967296 + low % 4294967296) % 4294967296 = low % 4294967296
    omega
  · change (high % 4294967296 * 4294967296 + low % 4294967296) / 4294967296 % 4294967296 = high % 4294967296
    omega

/-- **A word is what a shift and a mask leave** of 64 bits. -/
theorem Half.word_eq_extract (half : Half) (v : Int) :
    half.word v = ((BitVec.ofInt 64 v >>> half.shift).setWidth 32).toNat := by
  cases half with
  | low =>
    have hshift : Half.low.shift = 0 := rfl
    rw [Half.low_word, hshift, BitVec.toNat_setWidth, BitVec.toNat_ushiftRight, BitVec.toNat_ofInt,
      Nat.shiftRight_eq_div_pow]
    norm_num
    omega
  | high =>
    have hshift : Half.high.shift = 32 := rfl
    rw [Half.high_word, hshift, BitVec.toNat_setWidth, BitVec.toNat_ushiftRight, BitVec.toNat_ofInt,
      Nat.shiftRight_eq_div_pow]
    norm_num
    omega

/-- **One word in front of another** is the two of them joined. -/
theorem toNat_pair (low high : BitVec 32) :
    ((high.setWidth 64 <<< Half.high.shift ||| low.setWidth 64).toNat : Int) = joinWords low.toNat high.toNat := by
  have hshift : Half.high.shift = 32 := rfl
  have hlow := low.isLt
  have hhigh := high.isLt
  have hor : high.toNat <<< 32 ||| low.toNat = high.toNat <<< 32 + low.toNat :=
    (Nat.shiftLeft_add_eq_or_of_lt hlow high.toNat).symm
  have hsmall : high.toNat <<< 32 % 2 ^ 64 = high.toNat <<< 32 := by
    rw [Nat.shiftLeft_eq]
    exact Nat.mod_eq_of_lt (by omega)
  rw [joinWords_eq, hshift, BitVec.toNat_or, BitVec.toNat_shiftLeft, BitVec.toNat_setWidth, BitVec.toNat_setWidth,
    Nat.mod_eq_of_lt (by omega : high.toNat < 2 ^ 64), Nat.mod_eq_of_lt (by omega : low.toNat < 2 ^ 64), hsmall, hor,
    Nat.shiftLeft_eq]
  omega

end TrapStub
