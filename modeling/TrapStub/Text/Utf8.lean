import TrapStub.Text

/-!
# UTF-8

Texts to bytes and back. Bytes that start no valid sequence are kept one by one, so that a text
that was read can be written back byte for byte.

* `Utf8.charOf?`: the character with a given byte sequence, found by undoing the bit layout and
  then checking that the character's own encoding is that sequence.
* `Utf8.decode`, `Utf8.encode`: whole texts.
* `Utf8.encode_decode`: reading loses nothing.
-/

namespace TrapStub.Utf8

/-- The code point that the payload bits of one to four bytes spell, valid or not. -/
def payload : List UInt8 → Nat
  | [a] => a.toNat
  | [a, b] => a.toNat % 32 * 64 + b.toNat % 64
  | [a, b, c] => (a.toNat % 16 * 64 + b.toNat % 64) * 64 + c.toNat % 64
  | [a, b, c, d] => ((a.toNat % 8 * 64 + b.toNat % 64) * 64 + c.toNat % 64) * 64 + d.toNat % 64
  | _ => 0

/-- The character whose encoding is exactly `bytes`. -/
def charOf? (bytes : List UInt8) : Option Char :=
  let c := Char.ofNat (payload bytes)
  if String.utf8EncodeChar c = bytes then some c else none

/-- The character at the front of `bytes` and the number of bytes after its first one. -/
def firstChar? (bytes : List UInt8) : Option (Char × Nat) :=
  [1, 2, 3, 4].findSome? fun n => (charOf? (bytes.take n)).map fun c => (c, n - 1)

/-- Reading that first passes over `skip` bytes, which belong to the character read last. -/
def decodeFrom : (skip : Nat) → List UInt8 → Text
  | _, [] => []
  | skip + 1, _ :: rest => decodeFrom skip rest
  | 0, b :: rest =>
    match firstChar? (b :: rest) with
    | some (c, more) => .char c :: decodeFrom more rest
    | none => .raw b :: decodeFrom 0 rest

/-- The text of `bytes`; a byte that starts no valid sequence stands for itself. -/
def decode (bytes : List UInt8) : Text := decodeFrom 0 bytes

/-- The bytes of one glyph. -/
def glyphBytes : Glyph → List UInt8
  | .char c => String.utf8EncodeChar c
  | .raw b => [b]

/-- The bytes of a text. -/
def encode (t : Text) : List UInt8 := t.flatMap glyphBytes

/-- The bytes are valid UTF-8 throughout. -/
def isValid (bytes : List UInt8) : Bool := Text.isPlain (decode bytes)

theorem utf8EncodeChar_of_charOf? {bytes : List UInt8} {c : Char} (h : charOf? bytes = some c) :
    String.utf8EncodeChar c = bytes := by
  simp only [charOf?, Option.ite_none_right_eq_some, Option.some.injEq] at h
  obtain ⟨same, rfl⟩ := h
  exact same

/-- The first character is written with its first byte and the bytes after it. -/
theorem utf8EncodeChar_of_firstChar? {bytes : List UInt8} {c : Char} {more : Nat}
    (h : firstChar? bytes = some (c, more)) :
    String.utf8EncodeChar c = bytes.take (more + 1) := by
  obtain ⟨n, member, found⟩ := List.exists_of_findSome?_eq_some h
  obtain ⟨d, same, pair⟩ := Option.map_eq_some_iff.mp found
  obtain ⟨rfl, rfl⟩ := Prod.mk.inj pair
  have positive : n - 1 + 1 = n := by
    simp only [List.mem_cons, List.not_mem_nil, or_false] at member
    omega
  rw [positive]
  exact utf8EncodeChar_of_charOf? same

theorem encode_decodeFrom (skip : Nat) (bytes : List UInt8) :
    encode (decodeFrom skip bytes) = bytes.drop skip := by
  induction bytes generalizing skip with
  | nil => cases skip <;> rfl
  | cons b rest ih =>
    cases skip with
    | succ skip => simpa [decodeFrom] using ih skip
    | zero =>
      simp only [decodeFrom, List.drop_zero]
      split
      · rename_i c more found
        have first := utf8EncodeChar_of_firstChar? found
        have rest := ih more
        simp only [encode, List.flatMap_cons, glyphBytes] at rest ⊢
        rw [first, rest, List.take_succ_cons, List.cons_append, List.take_append_drop]
      · have rest := ih 0
        simp only [encode, List.drop_zero] at rest
        simp [encode, glyphBytes, rest]

/-- **Reading loses nothing**: a text that was read is written back byte for byte. -/
theorem encode_decode (bytes : List UInt8) : encode (decode bytes) = bytes :=
  encode_decodeFrom 0 bytes

end TrapStub.Utf8
