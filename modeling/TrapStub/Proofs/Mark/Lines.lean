import TrapStub.Proofs.Mark.Spans

/-!
# Line structure

What replaces a statement is filled up with line ends to as many lines as the statement has. That is
enough unless the replacement is longer: the trap number, which is written twice, may hold more line
ends than the white space between the parts gives up.

* `Mark.Statement.spareLines`: the line ends between the parts of a statement.
* `Mark.newlines_replacement`: how many lines a replacement has.
* `Mark.newlines_replaced`: **every line end too many is one of a trap number.**
* `Mark.lines_kept_iff`: **lines are kept exactly when every trap number fits.**
-/

namespace TrapStub.Mark

open Text

/-- The line ends of a statement that stand between its parts. -/
def Statement.spareLines (s : Statement) : Nat :=
  newlines s.written - (newlines s.number + newlines s.returnType + newlines s.parameters)

/-- The line ends of a trap number for which nothing is given up. -/
def Statement.excess (s : Statement) : Nat := newlines s.symbol - s.spareLines

/-- The same for a piece. -/
def Piece.excess : Piece → Nat
  | glyph _ => 0
  | statement s => s.excess

variable {marker origin t rewritten : Text} {marks : List Mark} {pieces : List Piece} {s : Statement} {n : Nat}

theorem newlines_eq_zero (h : ∀ g ∈ t, g ≠ Glyph.newline) : newlines t = 0 :=
  List.count_eq_zero.2 fun hmem => h _ hmem rfl

/-- A prototype holds the type and the parameters once, and the trap number twice. -/
theorem newlines_prototype (hs : s.IsAnnotation marker) :
    newlines s.prototype = newlines s.returnType + newlines s.parameters + 2 * newlines s.symbol := by
  have hindent : newlines s.indent = 0 :=
    newlines_eq_zero fun g hg => Glyph.ne_newline_of_isBlank (hs.indent g hg)
  have hname : newlines s.name = 0 :=
    newlines_eq_zero fun g hg => Glyph.ne_newline_of_isWord (isWord_of_mem_identifier hs.name hg)
  have hstems : newlines trapTag = 0 ∧ newlines trapConstantStem = 0 := by decide
  have hfixed : newlines " " = 0 ∧ newlines "(" = 0 ∧ newlines ") __attribute__((annotate(\"" = 0 ∧
      newlines "\"))); enum \x7b " = 0 ∧ newlines " = (" = 0 ∧ newlines ") \x7d;" = 0 := by decide
  unfold Statement.prototype
  simp only [newlines_append, hindent, hname, hstems.1, hstems.2, hfixed]
  omega

/-- A statement holds its parts. -/
theorem newlines_written (hs : s.IsAnnotation marker) :
    newlines s.written = newlines s.number + newlines s.returnType + newlines s.parameters + s.spareLines := by
  obtain ⟨_, _, _, _, _, _, _, _, _, -, hwritten⟩ := hs.written
  have hle : newlines s.number + newlines s.returnType + newlines s.parameters ≤ newlines s.written := by
    rw [hwritten]
    simp only [List.flatten_cons, newlines_append]
    omega
  unfold Statement.spareLines
  omega

/-- A trap number is written as it stands, unless it is nothing but white space. -/
theorem symbol_of_statement? (h : statement? marker t = some s) : s.symbol = s.number ∨ s.symbol = [] := by
  obtain ⟨⟨indent, behind⟩, -, hfound⟩ := List.exists_of_findSome?_eq_some h
  simp only [statementFrom?, Option.bind_eq_bind, Option.bind_eq_some_iff, pure, Option.some.injEq] at hfound
  obtain ⟨⟨number, r₁⟩, hnumber, _, -, _, -, _, -, rfl⟩ := hfound
  obtain ⟨region, -, hpart, -⟩ := commaPart?_eq_some.1 hnumber
  exact (part?_eq_some hpart).2.1

/-- **A replacement has the lines of its statement**, and those of its trap number that do not fit. -/
theorem newlines_replacement (h : statement? marker t = some s) :
    newlines s.replacement = newlines s.written + s.excess := by
  obtain ⟨hform, -⟩ := statement?_sound h
  have hprototype := newlines_prototype hform
  have hwritten := newlines_written hform
  have hfill : ∀ k, newlines (times k [Glyph.newline]) = k := fun k => by
    unfold newlines times
    rw [List.count_flatten, List.map_replicate, List.sum_replicate]
    simp
  unfold Statement.replacement Statement.excess
  rw [newlines_append, hfill]
  rcases symbol_of_statement? h with hsymbol | hsymbol
  · rw [hsymbol] at hprototype ⊢
    omega
  · have hzero : newlines s.symbol = 0 := by rw [hsymbol]; rfl
    rw [hzero] at hprototype ⊢
    omega

theorem Piece.exists_span (h : Piece.statement s ∈ pieces) (n : Nat) :
    ∃ span ∈ spansFrom n pieces, span.statement = s := by
  induction pieces generalizing n with
  | nil => cases h
  | cons piece rest ih =>
    cases piece with
    | glyph g => exact ih (List.mem_of_ne_of_mem (fun heq => by cases heq) h) _
    | statement s' =>
      rcases List.mem_cons.1 h with heq | hmem
      · cases heq
        exact ⟨_, List.mem_cons_self, rfl⟩
      · obtain ⟨span, hspan, heq⟩ := ih hmem (n + s'.written.length)
        exact ⟨span, List.mem_cons_of_mem _ hspan, heq⟩

theorem Piece.mem_of_mem_spansFrom (h : span ∈ spansFrom n pieces) :
    Piece.statement span.statement ∈ pieces := by
  induction pieces generalizing n with
  | nil => cases h
  | cons piece rest ih =>
    cases piece with
    | glyph g => exact List.mem_cons_of_mem _ (ih h)
    | statement s =>
      rcases List.mem_cons.1 h with rfl | h
      · exact List.mem_cons_self
      · exact List.mem_cons_of_mem _ (ih h)

/-- The statements among the pieces are found in the text. -/
theorem Piece.found_of_mem (h : Piece.statement s ∈ ofText marker t) : ∃ u, statement? marker u = some s := by
  obtain ⟨span, hmem, rfl⟩ := exists_span h 0
  exact ⟨_, (statement_ofText hmem).2⟩

/-- **Every line end too many is one of a trap number.** -/
theorem newlines_replaced (h : ∀ piece ∈ pieces, piece ∈ Piece.ofText marker t) :
    newlines (pieces.flatMap Piece.replaced) =
      newlines (pieces.flatMap Piece.written) + (pieces.map Piece.excess).sum := by
  induction pieces with
  | nil => rfl
  | cons piece rest ih =>
    obtain ⟨hpiece, hrest⟩ := List.forall_mem_cons.1 h
    have hone : newlines piece.replaced = newlines piece.written + piece.excess := by
      cases piece with
      | glyph g => rfl
      | statement s =>
        obtain ⟨u, hfound⟩ := Piece.found_of_mem hpiece
        exact newlines_replacement hfound
    rw [List.flatMap_cons, List.flatMap_cons, newlines_append, newlines_append, List.map_cons, List.sum_cons,
      hone, ih hrest]
    omega

/-- **Lines are kept exactly when every trap number fits**: the header has as many lines as before, and each
glyph outside the annotations is on its line, if and only if no trap number holds more line ends than
stand between the parts of its annotation. -/
theorem lines_kept_iff (h : replace marker origin t = .ok (rewritten, marks)) :
    (newlines rewritten = newlines t ∧ ∀ before g after, Piece.ofText marker t = before ++ .glyph g :: after →
        lineAt rewritten (before.flatMap Piece.replaced).length = lineAt t (before.flatMap Piece.written).length) ↔
      ∀ s, Piece.statement s ∈ Piece.ofText marker t → newlines s.symbol ≤ s.spareLines := by
  have hwhole := Piece.flatMap_written_ofText marker t
  have hrewritten := (replace_eq_ok.1 h).1
  have hcount := newlines_replaced fun piece (hpiece : piece ∈ Piece.ofText marker t) => hpiece
  rw [hwhole, hrewritten] at hcount
  constructor
  · rintro ⟨hkept, -⟩ s hs
    have hzero : ((Piece.ofText marker t).map Piece.excess).sum = 0 := by omega
    have hs : s.excess = 0 := List.sum_eq_zero_iff.1 hzero _ (List.mem_map.2 ⟨_, hs, rfl⟩)
    unfold Statement.excess at hs
    omega
  · intro hfits
    have hzero : ∀ {pieces : List Piece}, (∀ piece ∈ pieces, piece ∈ Piece.ofText marker t) →
        (pieces.map Piece.excess).sum = 0 := by
      intro pieces hpieces
      refine List.sum_eq_zero fun k hk => ?_
      obtain ⟨piece, hpiece, rfl⟩ := List.mem_map.1 hk
      cases piece with
      | glyph g => rfl
      | statement s =>
        exact Nat.sub_eq_zero_of_le (hfits s (hpieces _ hpiece))
    refine ⟨by rw [hcount, hzero fun piece hpiece => hpiece, Nat.add_zero], fun before g after hsplit => ?_⟩
    have hbefore : ∀ piece ∈ before, piece ∈ Piece.ofText marker t := fun piece hpiece => by
      rw [hsplit]
      exact List.mem_append_left _ hpiece
    have hlines := newlines_replaced hbefore
    rw [hzero hbefore, Nat.add_zero] at hlines
    have hbehind : rewritten = before.flatMap Piece.replaced ++ (Piece.glyph g :: after).flatMap Piece.replaced ∧
        t = before.flatMap Piece.written ++ (Piece.glyph g :: after).flatMap Piece.written := by
      rw [← List.flatMap_append, ← List.flatMap_append, ← hsplit]
      exact ⟨hrewritten.symm, hwhole.symm⟩
    have htaken : ∀ {u v w : Text}, u = v ++ w → lineAt u v.length = 1 + newlines v := fun {u v w} heq => by
      rw [heq, lineAt, List.take_left]
    rw [htaken hbehind.1, htaken hbehind.2, hlines]

theorem twoTraps_kept : ∃ rewritten marks, replace "SVCALL" "a.h" twoTraps = .ok (rewritten, marks) ∧
    newlines rewritten = newlines twoTraps ∧
    ∀ before g after, Piece.ofText "SVCALL" twoTraps = before ++ .glyph g :: after →
      lineAt rewritten (before.flatMap Piece.replaced).length = lineAt twoTraps (before.flatMap Piece.written).length := by
  have hanswer : (replace "SVCALL" "a.h" twoTraps).toOption.isSome = true := by decide +kernel
  obtain ⟨⟨rewritten, marks⟩, h⟩ := exists_of_isSome hanswer
  have hfits : ((Piece.ofText "SVCALL" twoTraps).all fun piece => piece.excess == 0) = true := by decide +kernel
  refine ⟨rewritten, marks, h, (lines_kept_iff h).2 fun s hs => ?_⟩
  have hs := List.all_eq_true.1 hfits _ hs
  exact Nat.le_of_sub_eq_zero (eq_of_beq hs)

/-- A trap number on two lines, and nothing between the parts to make up for it. -/
def longNumber : Text := "SVCALL(A +\n B, int, f(void));\nint x;\n"

/-- The declaration behind the annotation moves from the third line to the fourth. -/
theorem longNumber_moves : ∃ rewritten marks, replace "SVCALL" "a.h" longNumber = .ok (rewritten, marks) ∧
    newlines rewritten = newlines longNumber + 1 ∧
    longNumber.drop 30 = "int x;\n" ∧ lineAt longNumber 30 = 3 ∧
    rewritten.drop 88 = "int x;\n" ∧ lineAt rewritten 88 = 4 := by
  have hanswer : ((replace "SVCALL" "a.h" longNumber).toOption.map (·.1)) = some
      "int f(void) __attribute__((annotate(\"svcall:A +\n B\"))); enum \x7b __svcall_f = (A +\n B) \x7d;\nint x;\n" := by
    decide +kernel
  obtain ⟨⟨rewritten, marks⟩, h, hrewritten⟩ := exists_of_toOption_map hanswer
  obtain rfl := hrewritten
  exact ⟨_, marks, h, by decide +kernel⟩

end TrapStub.Mark
