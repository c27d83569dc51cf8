import TrapStub.Text

/-!
# The order of texts

Texts are ordered by the codes of their glyphs. No two glyphs share a code, because raw bytes stand
where no character does, so the order is a linear one.

* `Glyph.code_injective`.
* `Text.le_total`, `Text.le_trans`, `Text.le_antisymm`.
-/

namespace TrapStub

/-- **No two glyphs share a code.** -/
theorem Glyph.code_injective {a b : Glyph} (h : a.code = b.code) : a = b := by
  -- raw bytes stand at 0xDC00 to 0xDCFF, among the codes that no character has
  have hapart : ∀ (c : Char) (r : UInt8), c.toNat ≠ 0xDC00 + r.toNat := by
    intro c r he
    have hr := r.toNat_lt
    have hc : c.toNat < 0xD800 ∨ 0xDFFF < c.toNat ∧ c.toNat < 0x110000 := c.valid
    omega
  cases a with
  | char c =>
    cases b with
    | char d => rw [Char.toNat_inj.1 h]
    | raw r => exact absurd h (hapart c r)
  | raw r =>
    cases b with
    | char d => exact absurd h.symm (hapart d r)
    | raw q =>
      have hq : r.toNat = q.toNat := Nat.add_left_cancel h
      rw [UInt8.toNat_inj.1 hq]

namespace Text

variable {a b : Glyph} {s t u : Text}

theorem cons_le_cons : le (a :: s) (b :: t) = true ↔ a.code < b.code ∨ a.code = b.code ∧ le s t = true := by
  simp only [le, Bool.or_eq_true, Bool.and_eq_true, decide_eq_true_eq, beq_iff_eq]

theorem le_total : ∀ s t : Text, le s t = true ∨ le t s = true
  | [], _ => Or.inl rfl
  | _ :: _, [] => Or.inr rfl
  | a :: s, b :: t => by
    rw [cons_le_cons, cons_le_cons]
    have := le_total s t
    rcases Nat.lt_trichotomy a.code b.code with h | h | h
    · exact Or.inl (Or.inl h)
    · exact this.imp (fun hs => Or.inr ⟨h, hs⟩) fun hs => Or.inr ⟨h.symm, hs⟩
    · exact Or.inr (Or.inl h)

theorem le_trans : ∀ {s t u : Text}, le s t = true → le t u = true → le s u = true
  | [], _, _, _, _ => rfl
  | _ :: _, _ :: _, [], _, h => h
  | a :: s, b :: t, c :: u, hst, htu => by
    rw [cons_le_cons] at hst htu ⊢
    rcases hst with h | ⟨h, hs⟩
    · rcases htu with h' | ⟨h', -⟩ <;> exact Or.inl (by omega)
    · rcases htu with h' | ⟨h', ht⟩
      · exact Or.inl (by omega)
      · exact Or.inr ⟨by omega, le_trans hs ht⟩

theorem le_antisymm : ∀ {s t : Text}, le s t = true → le t s = true → s = t
  | [], [], _, _ => rfl
  | a :: s, b :: t, hst, hts => by
    rw [cons_le_cons] at hst hts
    rcases hst with h | ⟨h, hs⟩
    · rcases hts with h' | ⟨h', -⟩ <;> omega
    · rcases hts with h' | ⟨-, ht⟩
      · omega
      · rw [Glyph.code_injective h, le_antisymm hs ht]

end Text

end TrapStub
