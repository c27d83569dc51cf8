import TrapStub.Corpus.Staging
import TrapStub.Proofs.Mark.Form
import TrapStub.Proofs.Survey.EntryPoints

/-!
# Where annotations stand

Statements are looked for from the front of a header to its end, and a second search, for the places
where an annotation opens, only compares line numbers. Together they leave nothing out: a place
inside a statement, or one that no statement starts at, has a line on which none starts.

* `Mark.IsPlace`: a place where an annotation opens.
* `Mark.Piece.spansFrom`: the statements among pieces, each with its offset.
* `Mark.Statement.tagged`: what stands for a statement. `Mark.splice`: a text with its spans replaced so.
* `Mark.Piece.statement_at`: **a statement stands at the start of a line.**
* `Mark.exists_openingLine`: **the second search meets the line of each place.**
* `Mark.replace_accounts`: **replacing accounts for every annotation and touches nothing else.**
-/

namespace TrapStub.Mark

open Text

/-- A statement and the offset at which it stands in a text. -/
structure Span where
  start : Nat
  statement : Statement

/-- The offset behind the statement. -/
def Span.stop (span : Span) : Nat := span.start + span.statement.written.length

/-- The offset is at the start of a line; at the start of the text it is one if `first` says so. -/
def StartsLine (first : Bool) (t : Text) : Nat → Prop
  | 0 => first = true
  | n + 1 => t[n]? = some Glyph.newline

/-- A line starts at the offset with blanks, the marker, white space and a parenthesis. -/
def IsPlace (marker t : Text) (n : Nat) : Prop :=
  StartsLine true t n ∧ ∃ indent behind, Opens marker (t.drop n) indent behind

/-- The number of the line that an offset is on; the first line is line 1. -/
def lineAt (t : Text) (n : Nat) : Nat := 1 + newlines (t.take n)

/-- The annotation of a statement in a text. -/
def Span.mark (origin t : Text) (span : Span) : Mark :=
  ⟨origin, lineAt t span.start, lineAt t span.stop, span.statement.name, span.statement.symbol⟩

/-- What stands for a statement: a prototype whose tag holds the trap number, a constant with that number, and
line ends up to the number of those of the statement. -/
def Statement.tagged (s : Statement) : Text :=
  let number := Text.strip s.number
  let prototype : Text :=
    s.indent ++ s.returnType ++ " " ++ s.name ++ "(" ++ s.parameters ++ ") __attribute__((annotate(\"svcall:" ++
      number ++ "\"))); enum \x7b __svcall_" ++ s.name ++ " = (" ++ number ++ ") \x7d;"
  prototype ++ List.replicate (newlines s.written - newlines prototype) Glyph.newline

/-- The text from an offset on with each span replaced, and all else as it is. -/
def splice (t : Text) : (offset : Nat) → List Span → Text
  | n, [] => t.drop n
  | n, span :: rest =>
    (t.drop n).take (span.start - n) ++ span.statement.tagged ++ splice t span.stop rest

/-- The statements among some pieces, the first of which stands at an offset. -/
def Piece.spansFrom : (offset : Nat) → List Piece → List Span
  | _, [] => []
  | n, .glyph _ :: rest => spansFrom (n + 1) rest
  | n, .statement s :: rest => ⟨n, s⟩ :: spansFrom (n + s.written.length) rest

variable {marker origin t u rewritten : Text} {marks : List Mark} {pieces : List Piece} {span : Span} {n m : Nat}

/-! ## Lines -/

theorem newlines_append : newlines (t ++ u) = newlines t + newlines u := List.count_append

/-- The line that a place is on, counted from the line of the glyph behind the first one. -/
theorem add_newlines_take_succ (line : Nat) (g : Glyph) (t : Text) (k : Nat) :
    line + newlines ((g :: t).take (k + 1)) =
      (if g = Glyph.newline then line + 1 else line) + newlines (t.take k) := by
  unfold newlines
  rw [List.take_succ_cons, List.count_cons]
  by_cases hg : g = Glyph.newline
  · rw [if_pos hg, if_pos (beq_iff_eq.2 hg)]
    omega
  · rw [if_neg hg, if_neg (fun h => hg (beq_iff_eq.1 h))]
    omega

theorem lineAt_mono (h : n ≤ m) : lineAt t n ≤ lineAt t m := by
  have htake : t.take n <+: t.take m := List.take_prefix_take_left h
  exact Nat.add_le_add_left (htake.sublist.count_le _) 1

/-- A later line start is on a later line. -/
theorem lineAt_lt (hm : StartsLine true t m) (h : n < m) : lineAt t n < lineAt t m := by
  obtain ⟨k, rfl⟩ : ∃ k, m = k + 1 := ⟨m - 1, by omega⟩
  have hglyph : t[k]? = some Glyph.newline := hm
  have hline : lineAt t (k + 1) = lineAt t k + 1 := by
    unfold lineAt
    rw [List.take_add_one, hglyph, newlines_append]
    rfl
  have hle := lineAt_mono (t := t) (Nat.le_of_lt_succ h)
  omega

theorem lineAt_inj (hn : StartsLine true t n) (hm : StartsLine true t m) (h : lineAt t n = lineAt t m) : n = m := by
  rcases Nat.lt_trichotomy n m with hlt | heq | hlt
  · have := lineAt_lt hm hlt
    omega
  · exact heq
  · have := lineAt_lt hn hlt
    omega

theorem StartsLine.tail {first : Bool} {g : Glyph} (h : StartsLine first (g :: t) (n + 1)) :
    StartsLine (g == Glyph.newline) t n := by
  cases n with
  | zero =>
    obtain rfl : g = Glyph.newline := Option.some.inj h
    rfl
  | succ n => exact h

/-! ## The statements among the pieces -/

namespace Piece

theorem le_start_of_mem_spansFrom (h : span ∈ spansFrom n pieces) : n ≤ span.start := by
  induction pieces generalizing n with
  | nil => cases h
  | cons piece rest ih =>
    cases piece with
    | glyph g => exact Nat.le_of_succ_le (ih h)
    | statement s =>
      rcases List.mem_cons.1 h with rfl | h
      · exact Nat.le_refl _
      · exact Nat.le_of_add_right_le (ih h)

theorem spansFrom_disjoint (n : Nat) (pieces : List Piece) :
    (spansFrom n pieces).Pairwise fun a b => a.stop ≤ b.start := by
  induction pieces generalizing n with
  | nil => exact List.Pairwise.nil
  | cons piece rest ih =>
    cases piece with
    | glyph g => exact ih (n + 1)
    | statement s => exact List.pairwise_cons.2 ⟨fun b hb => le_start_of_mem_spansFrom hb, ih _⟩

/-- The annotations are those of the spans, in order. -/
theorem annotationsFrom_eq (origin before : Text) (pieces : List Piece) :
    annotationsFrom origin (1 + newlines before) pieces =
      (spansFrom before.length pieces).map (Span.mark origin (before ++ pieces.flatMap written)) := by
  induction pieces generalizing before with
  | nil => rfl
  | cons piece rest ih =>
    have hnext := ih (before ++ piece.written)
    rw [newlines_append, ← Nat.add_assoc, List.length_append, List.append_assoc] at hnext
    cases piece with
    | glyph g => exact hnext
    | statement s =>
      have hstart : lineAt (before ++ (s.written ++ rest.flatMap written)) before.length = 1 + newlines before := by
        rw [lineAt, List.take_left]
      have hstop : lineAt (before ++ (s.written ++ rest.flatMap written)) (before.length + s.written.length) =
          1 + newlines before + newlines s.written := by
        rw [lineAt, ← List.append_assoc, List.take_left' List.length_append, newlines_append, Nat.add_assoc]
      simp only [annotationsFrom, spansFrom, List.map_cons, List.flatMap_cons, Span.mark, Span.stop, written,
        hstart, hstop]
      exact congrArg _ hnext

/-- A glyph in front of all spans is kept. -/
theorem splice_step {g : Glyph} {spans : List Span} (hg : t[n]? = some g)
    (hspans : ∀ span ∈ spans, n + 1 ≤ span.start) :
    splice t n spans = g :: splice t (n + 1) spans := by
  obtain ⟨hlt, hget⟩ := List.getElem?_eq_some_iff.1 hg
  have hdrop : t.drop n = g :: t.drop (n + 1) := by rw [List.drop_eq_getElem_cons hlt, hget]
  cases spans with
  | nil => exact hdrop
  | cons span spans =>
    have hle := hspans span List.mem_cons_self
    have htake : (t.drop n).take (span.start - n) = g :: (t.drop (n + 1)).take (span.start - (n + 1)) := by
      rw [hdrop, show span.start - n = (span.start - (n + 1)) + 1 by omega, List.take_succ_cons]
    rw [splice, splice, htake, List.cons_append, List.cons_append]

theorem replacement_eq (s : Statement) : s.replacement = s.tagged := by
  have hfill : ∀ k, times k [Glyph.newline] = List.replicate k Glyph.newline := fun k => by
    rw [times, List.flatten_replicate_singleton]
  have hprototype : s.prototype =
      s.indent ++ s.returnType ++ " " ++ s.name ++ "(" ++ s.parameters ++ ") __attribute__((annotate(\"svcall:" ++
        Text.strip s.number ++ "\"))); enum \x7b __svcall_" ++ s.name ++ " = (" ++ Text.strip s.number ++ ") \x7d;" := by
    unfold Statement.prototype Statement.symbol trapTag trapConstantStem
    simp only [List.append_assoc]
    rfl
  rw [Statement.replacement, Statement.tagged, hfill, hprototype]

/-- The replaced pieces are the text with its spans replaced. -/
theorem splice_spansFrom (before : Text) (pieces : List Piece) :
    splice (before ++ pieces.flatMap written) before.length (spansFrom before.length pieces) =
      pieces.flatMap replaced := by
  induction pieces generalizing before with
  | nil => rw [List.flatMap_nil, List.append_nil, spansFrom, splice, List.drop_length]; rfl
  | cons piece rest ih =>
    have hnext := ih (before ++ piece.written)
    rw [List.append_assoc, List.length_append] at hnext
    cases piece with
    | glyph g =>
      have hg : (before ++ (g :: rest.flatMap written))[before.length]? = some g := by
        rw [List.getElem?_append_right (Nat.le_refl _), Nat.sub_self]
        rfl
      refine (splice_step hg fun span hspan => le_start_of_mem_spansFrom hspan).trans ?_
      exact congrArg (g :: ·) hnext
    | statement s =>
      simp only [spansFrom, splice, Nat.sub_self, List.take_zero, List.nil_append, List.flatMap_cons, replaced,
        replacement_eq]
      exact congrArg (s.tagged ++ ·) hnext

/-- **A statement stands at the start of a line**, and is the one that is found there. -/
theorem statement_at {skip : Nat} {first : Bool} (h : span ∈ spansFrom (n + skip) (piecesFrom marker skip first t)) :
    ∃ k, span.start = n + k ∧ StartsLine first t k ∧ statement? marker (t.drop k) = some span.statement := by
  induction t generalizing n skip first with
  | nil => cases skip <;> cases h
  | cons g t ih =>
    -- what is found behind the first glyph is found one offset further on
    have hdeeper : ∀ (skip : Nat) (first' : Bool), (first' = true → g = Glyph.newline) →
        span ∈ spansFrom (n + 1 + skip) (piecesFrom marker skip first' t) →
        ∃ k, span.start = n + k ∧ StartsLine first (g :: t) k ∧
          statement? marker ((g :: t).drop k) = some span.statement := by
      intro skip first' hfirst h
      obtain ⟨k, hk, hline, hfound⟩ := ih h
      refine ⟨k + 1, by omega, ?_, hfound⟩
      cases k with
      | zero =>
        obtain rfl := hfirst hline
        rfl
      | succ k => exact hline
    cases skip with
    | succ skip =>
      refine hdeeper skip false (fun hf => by cases hf) ?_
      rw [Nat.add_right_comm n 1 skip]
      exact h
    | zero =>
      rw [piecesFrom] at h
      split at h
      · rename_i s hs
        have hfirst : first = true ∧ statement? marker (g :: t) = some s := by
          cases first
          · cases hs
          · exact ⟨rfl, hs⟩
        rcases List.mem_cons.1 h with rfl | h
        · exact ⟨0, rfl, hfirst.1, hfirst.2⟩
        · refine hdeeper (s.written.length - 1) false (fun hf => by cases hf) ?_
          obtain ⟨k, hk, hlt⟩ := written_of_statement? hfirst.2
          have hpos : 1 ≤ s.written.length := by
            rw [hk, List.length_take]
            omega
          rw [show n + 1 + (s.written.length - 1) = n + s.written.length by omega]
          exact h
      · exact hdeeper 0 (g == Glyph.newline) (fun hf => eq_of_beq hf) h

theorem statement_ofText (h : span ∈ spansFrom 0 (ofText marker t)) :
    StartsLine true t span.start ∧ statement? marker (t.drop span.start) = some span.statement := by
  have hzero : span ∈ spansFrom (0 + 0) (piecesFrom marker 0 true t) := h
  obtain ⟨k, hk, hfound⟩ := statement_at hzero
  rw [Nat.zero_add] at hk
  rwa [hk]

end Piece

/-! ## The second search -/

theorem opening?_sound {behind : Text} (h : opening? marker t = some behind) :
    ∃ indent, Opens marker t indent behind := by
  obtain ⟨⟨indent, b⟩, hhead, rfl⟩ := Option.map_eq_some_iff.1 h
  exact ⟨indent, mem_openings.1 (List.mem_of_mem_head? hhead)⟩

theorem opening?_complete {indent behind : Text} (h : Opens marker t indent behind) : opening? marker t ≠ none := by
  unfold opening?
  rw [ne_eq, Option.map_eq_none_iff, List.head?_eq_none_iff]
  exact List.ne_nil_of_mem (mem_openings.2 h)

/-- An opening holds at least one glyph of the marker and the parenthesis. -/
theorem Opens.length_le (hm : IsIdentifier marker) {indent behind : Text} (h : Opens marker t indent behind) :
    behind.length + 2 ≤ t.length := by
  obtain ⟨-, gap, -, rfl⟩ := h
  obtain ⟨x, rest, rfl, -⟩ := hm
  simp only [List.length_append, List.length_cons]
  omega

/-- Between white space and a parenthesis stands no marker. -/
theorem not_opens_space (hm : IsIdentifier marker) {space behind indent b : Text} (hs : IsSpace space) :
    ¬ Opens marker (space ++ .char '(' :: behind) indent b := by
  rintro ⟨hblank, gap, -, heq⟩
  have hindent : IsSpace indent := fun g hg => Glyph.isSpace_of_isBlank (hblank g hg)
  have hhead := head_identifier (u := gap ++ .char '(' :: b) hm
  have hleft : stripStart (space ++ .char '(' :: behind) = .char '(' :: behind :=
    stripStart_append hs (forall_head_cons (by decide) behind)
  rw [heq, List.append_assoc, List.append_assoc, stripStart_append hindent hhead] at hleft
  obtain ⟨g, rest, rfl, hg, -⟩ := hm
  obtain ⟨rfl, -⟩ := List.cons.inj hleft
  exact absurd hg (by decide)

/-- **No annotation opens inside the opening of another one.** -/
theorem not_opens_inside (hm : IsIdentifier marker) {indent behind : Text} (hopen : Opens marker t indent behind)
    (hn : n + 1 < t.length - behind.length) (hline : t[n]? = some Glyph.newline) {i b : Text} :
    ¬ Opens marker (t.drop (n + 1)) i b := by
  obtain ⟨hblank, gap, hgap, rfl⟩ := hopen
  have hlead : ∀ g ∈ indent ++ marker, g ≠ Glyph.newline :=
    List.forall_mem_append.2 ⟨fun g hg => Glyph.ne_newline_of_isBlank (hblank g hg), fun g hg =>
      Glyph.ne_newline_of_isWord (isWord_of_mem_identifier hm hg)⟩
  have hle : (indent ++ marker).length ≤ n := by
    by_contra hlt
    rw [List.append_assoc, List.getElem?_append_left (by omega)] at hline
    exact hlead _ (List.mem_of_getElem? hline) rfl
  have hgap_le : n + 1 - (indent ++ marker).length ≤ gap.length := by
    simp only [List.length_append, List.length_cons] at hn ⊢
    omega
  have hdrop : (indent ++ marker ++ gap ++ .char '(' :: behind).drop (n + 1) =
      gap.drop (n + 1 - (indent ++ marker).length) ++ .char '(' :: behind := by
    rw [List.append_assoc (indent ++ marker), List.drop_append, List.drop_eq_nil_of_le (Nat.le_succ_of_le hle),
      List.nil_append, List.drop_append_of_le_length hgap_le]
  rw [hdrop]
  exact not_opens_space hm fun g hg => hgap g (List.mem_of_mem_drop hg)

/-- **The second search meets the line of each place.** -/
theorem exists_openingLine (hm : IsIdentifier marker) {skip : Nat} (line : Nat) {first : Bool} (hskip : skip ≤ n)
    (hline : StartsLine first t n) {indent behind : Text} (hopen : Opens marker (t.drop n) indent behind) :
    ∃ text, (line + newlines (t.take n), text) ∈ openingLines marker skip line first t := by
  induction t generalizing n skip line first with
  | nil =>
    obtain ⟨-, gap, -, heq⟩ := hopen
    rw [List.drop_nil] at heq
    simp at heq
  | cons g t ih =>
    -- a place behind the first glyph, on the line that the search has come to there
    have hdeeper : ∀ {k : Nat} (skip' : Nat) {first' : Bool}, n = k + 1 → skip' ≤ k → StartsLine first' t k →
        ∃ text, (line + newlines ((g :: t).take n), text) ∈
          openingLines marker skip' (if g = Glyph.newline then line + 1 else line) first' t := by
      rintro k skip' first' rfl hskip' hline'
      obtain ⟨text, hmem⟩ := ih _ hskip' hline' hopen
      exact ⟨text, add_newlines_take_succ line g t k ▸ hmem⟩
    cases skip with
    | succ skip =>
      obtain ⟨k, rfl⟩ : ∃ k, n = k + 1 := ⟨n - 1, by omega⟩
      exact hdeeper _ rfl (by omega) hline.tail
    | zero =>
      rw [openingLines]
      split
      · rename_i b hb
        have hfirst : opening? marker (g :: t) = some b := by
          cases first
          · cases hb
          · exact hb
        obtain ⟨i, hfirst⟩ := opening?_sound hfirst
        cases n with
        | zero => exact ⟨_, List.mem_cons_self⟩
        | succ k =>
          have hlong := hfirst.length_le hm
          have hbehind : ¬ k + 1 < (g :: t).length - b.length := fun hlt =>
            not_opens_inside hm hfirst hlt hline hopen
          rw [List.length_cons] at hlong hbehind
          obtain ⟨j, rfl⟩ : ∃ j, k = j + 1 := ⟨k - 1, by omega⟩
          have hfalse : StartsLine false t (j + 1) := hline
          obtain ⟨text, hmem⟩ := hdeeper (t.length - b.length) rfl (by omega) hfalse
          exact ⟨text, List.mem_cons_of_mem _ hmem⟩
      · rename_i hb
        cases n with
        | zero =>
          obtain rfl : first = true := hline
          exact absurd hb (opening?_complete hopen)
        | succ k => exact hdeeper 0 rfl (Nat.zero_le _) hline.tail

/-! ## Replacing -/

theorem replace_eq_ok : replace marker origin t = .ok (rewritten, marks) ↔
    (Piece.ofText marker t).flatMap Piece.replaced = rewritten ∧
      annotationsFrom origin 1 (Piece.ofText marker t) = marks ∧
      ∀ opening ∈ openingLines marker 0 1 true t, opening.1 ∈ marks.map (·.line) := by
  unfold replace
  dsimp only
  split
  · rename_i line text hfind
    have hmem := List.mem_of_find?_eq_some hfind
    have hmissing := List.find?_some hfind
    constructor
    · intro h
      cases h
    · rintro ⟨-, rfl, hall⟩
      exact absurd (hall _ hmem) (of_decide_eq_true hmissing)
  · rename_i hfind
    constructor
    · intro h
      obtain ⟨rfl, rfl⟩ := Prod.mk.inj (Except.ok.inj h)
      refine ⟨rfl, rfl, fun opening hmem => ?_⟩
      have hnot := List.find?_eq_none.1 hfind opening hmem
      simpa using hnot
    · rintro ⟨rfl, rfl, -⟩
      rfl

theorem replace_fault {fault : Fault} (h : replace marker origin t = .error fault) : fault.IsMalformed := by
  unfold replace at h
  dsimp only at h
  split at h
  · cases h
    exact ⟨_, rfl, rfl⟩
  · cases h

/-- Behind an annotation, which ends in a semicolon, no line starts. -/
theorem not_startsLine_stop (hform : span.statement.IsAnnotation marker)
    (hat : span.statement.written <+: t.drop span.start) : ¬ StartsLine true t span.stop := by
  obtain ⟨_, _, _, _, _, _, _, _, _, -, hwritten⟩ := hform.written
  have hlast : span.statement.written.getLast? = some (.char ';') := by
    rw [hwritten]
    simp only [List.flatten_cons, List.flatten_nil, List.append_nil, List.getLast?_append]
    rfl
  obtain ⟨front, hfront⟩ := List.getLast?_eq_some_iff.1 hlast
  obtain ⟨rest, hrest⟩ := hat
  have hsemicolon : t[span.start + front.length]? = some (.char ';') := by
    rw [← List.getElem?_drop, ← hrest, hfront, List.append_assoc, List.getElem?_append_right (Nat.le_refl _),
      Nat.sub_self]
    rfl
  have hstop : span.stop = span.start + front.length + 1 := by
    rw [Span.stop, hfront, List.length_append, List.length_singleton, Nat.add_assoc]
  rw [hstop]
  intro hline
  have hnewline : t[span.start + front.length]? = some Glyph.newline := hline
  rw [hsemicolon] at hnewline
  exact absurd hnewline (by decide)

/-! ## The account -/

/-- What replacing a header accounts for. -/
structure Accounts (marker origin t rewritten : Text) (marks : List Mark) (spans : List Span) : Prop where
  /-- The spans start at the places where an annotation opens, each place once and in order. -/
  places : ∀ n, IsPlace marker t n ↔ n ∈ spans.map (·.start)
  disjoint : spans.Pairwise fun a b => a.stop < b.start
  /-- Each span is a whole annotation of the text. -/
  whole : ∀ span ∈ spans, span.statement.IsAnnotation marker ∧ span.statement.written <+: t.drop span.start
  /-- The spans are replaced, and what stands between them, before and after them is kept. -/
  replaced : rewritten = splice t 0 spans
  /-- The annotations are those of the spans, in order. -/
  annotations : marks = spans.map (Span.mark origin t)
  lines : marks.Pairwise fun a b => a.line < b.line ∧ a.lastLine < b.line
  /-- In a staged copy each line of an annotation leads to it, whatever other headers hold. -/
  lookup : ∀ staged : Staged, staged.marks.filter (·.origin = origin) = marks → ∀ mark ∈ marks, ∀ line : Nat,
    mark.line ≤ line → line ≤ mark.lastLine → staged.markAt? (some origin) line = some mark

/-- No line belongs to two annotations. -/
theorem eq_of_line {a b : Mark} {line : Nat} (h : marks.Pairwise fun a b => a.line < b.line ∧ a.lastLine < b.line)
    (ha : a ∈ marks) (hb : b ∈ marks) (hla : a.line ≤ line ∧ line ≤ a.lastLine)
    (hlb : b.line ≤ line ∧ line ≤ b.lastLine) : a = b := by
  obtain ⟨i, hi, rfl⟩ := List.getElem_of_mem ha
  obtain ⟨j, hj, rfl⟩ := List.getElem_of_mem hb
  rcases Nat.lt_trichotomy i j with hlt | rfl | hlt
  · have := (List.pairwise_iff_getElem.1 h i j hi hj hlt).2
    omega
  · rfl
  · have := (List.pairwise_iff_getElem.1 h j i hj hi hlt).2
    omega

theorem markAt?_eq_some {staged : Staged} (hmarks : staged.marks.filter (·.origin = origin) = marks)
    (hlines : marks.Pairwise fun a b => a.line < b.line ∧ a.lastLine < b.line) {mark : Mark} (hmark : mark ∈ marks)
    {line : Nat} (hfirst : mark.line ≤ line) (hlast : line ≤ mark.lastLine) :
    staged.markAt? (some origin) line = some mark := by
  have hmem : ∀ {m : Mark}, m ∈ marks ↔ m ∈ staged.marks ∧ m.origin = origin := fun {m} => by
    rw [← hmarks, List.mem_filter, decide_eq_true_eq]
  unfold Staged.markAt?
  rw [Option.bind_some]
  have hfound : (staged.marks.reverse.find? fun mark =>
      mark.origin = origin && (mark.line : Int) ≤ (line : Int) && (line : Int) ≤ (mark.lastLine : Int)).isSome := by
    rw [List.find?_isSome]
    refine ⟨mark, List.mem_reverse.2 (hmem.1 hmark).1, ?_⟩
    simp only [Bool.and_eq_true, decide_eq_true_eq, Int.ofNat_le]
    exact ⟨⟨(hmem.1 hmark).2, hfirst⟩, hlast⟩
  obtain ⟨m, hm⟩ := Option.isSome_iff_exists.1 hfound
  have hp := List.find?_some hm
  simp only [Bool.and_eq_true, decide_eq_true_eq, Int.ofNat_le] at hp
  have hmarked : m ∈ marks := hmem.2 ⟨List.mem_reverse.1 (List.mem_of_find?_eq_some hm), hp.1.1⟩
  rw [hm, eq_of_line hlines hmarked hmark ⟨hp.1.2, hp.2⟩ ⟨hfirst, hlast⟩]

theorem accounts_of_replace (hm : IsIdentifier marker) (h : replace marker origin t = .ok (rewritten, marks)) :
    Accounts marker origin t rewritten marks (Piece.spansFrom 0 (Piece.ofText marker t)) := by
  obtain ⟨hrewritten, hmarks, hopenings⟩ := replace_eq_ok.1 h
  have hwhole := Piece.flatMap_written_ofText marker t
  have hspans := Piece.annotationsFrom_eq origin [] (Piece.ofText marker t)
  have hsplice := Piece.splice_spansFrom [] (Piece.ofText marker t)
  rw [List.nil_append, hwhole] at hspans hsplice
  replace hmarks : marks = (Piece.spansFrom 0 (Piece.ofText marker t)).map (Span.mark origin t) :=
    hmarks.symm.trans hspans
  have hstatement : ∀ span ∈ Piece.spansFrom 0 (Piece.ofText marker t),
      StartsLine true t span.start ∧ statement? marker (t.drop span.start) = some span.statement :=
    fun span hspan => Piece.statement_ofText hspan
  have hdisjoint : (Piece.spansFrom 0 (Piece.ofText marker t)).Pairwise fun a b => a.stop < b.start := by
    refine (Piece.spansFrom_disjoint 0 _).imp_of_mem fun {a b} ha hb hle => ?_
    refine Nat.lt_of_le_of_ne hle fun heq => ?_
    obtain ⟨hform, hat⟩ := statement?_sound (hstatement a ha).2
    have hline := (hstatement b hb).1
    rw [← heq] at hline
    exact not_startsLine_stop hform hat hline
  have hlines : marks.Pairwise fun a b => a.line < b.line ∧ a.lastLine < b.line := by
    rw [hmarks, List.pairwise_map]
    refine hdisjoint.imp_of_mem fun {a b} _ hb hlt => ?_
    have hstart := (hstatement b hb).1
    exact ⟨lineAt_lt hstart (Nat.lt_of_le_of_lt (Nat.le_add_right _ _) hlt), lineAt_lt hstart hlt⟩
  refine ⟨fun n => ⟨fun ⟨hline, i, b, hopen⟩ => ?_, fun hn => ?_⟩, hdisjoint, fun span hspan =>
    statement?_sound (hstatement span hspan).2, hrewritten.symm.trans hsplice.symm, hmarks, hlines,
    fun staged hstaged mark hmark line hf hl => markAt?_eq_some hstaged hlines hmark hf hl⟩
  · obtain ⟨text, hmem⟩ := exists_openingLine hm 1 (Nat.zero_le n) hline hopen
    obtain ⟨mark, hmark, heq⟩ := List.mem_map.1 (hopenings _ hmem)
    rw [hmarks] at hmark
    obtain ⟨span, hspan, rfl⟩ := List.mem_map.1 hmark
    exact List.mem_map.2 ⟨span, hspan, lineAt_inj (hstatement span hspan).1 hline heq⟩
  · obtain ⟨span, hspan, rfl⟩ := List.mem_map.1 hn
    obtain ⟨hline, hfound⟩ := hstatement span hspan
    obtain ⟨⟨i, b⟩, hmem, -⟩ := List.exists_of_findSome?_eq_some hfound
    exact ⟨hline, i, b, mem_openings.1 hmem⟩

/-- **Replacing accounts for every annotation and touches nothing else.** When it succeeds, the places where
an annotation opens are the starts of disjoint whole annotations, on lines of their own; these are
replaced and all else is kept. A place that no whole annotation starts at makes the header malformed. -/
theorem replace_accounts (hm : IsIdentifier marker) :
    (∀ rewritten marks, replace marker origin t = .ok (rewritten, marks) →
      ∃ spans, Accounts marker origin t rewritten marks spans) ∧
    ((∃ n, IsPlace marker t n ∧ ¬ BeginsAnnotation marker (t.drop n)) →
      ∃ fault, replace marker origin t = .error fault ∧ fault.IsMalformed) := by
  refine ⟨fun rewritten marks h => ⟨_, accounts_of_replace hm h⟩, fun ⟨n, hplace, hnot⟩ => ?_⟩
  cases h : replace marker origin t with
  | error fault => exact ⟨fault, rfl, replace_fault h⟩
  | ok answer =>
    have haccounts := accounts_of_replace hm h
    obtain ⟨span, hspan, rfl⟩ := List.mem_map.1 ((haccounts.places n).1 hplace)
    exact absurd ⟨span.statement, haccounts.whole span hspan⟩ hnot

/-- Two annotations, the second on two lines, and a declaration between them. -/
def twoTraps : Text := "SVCALL(1, int, f(void));\nint x;\nSVCALL(2,\n  int, g(int a));\n"

/-- An annotation without a type. -/
def untypedTrap : Text := "int x;\nSVCALL(1, f(void));\n"

theorem twoTraps_accounts :
    (∃ rewritten marks spans, replace "SVCALL" "a.h" twoTraps = .ok (rewritten, marks) ∧
      rewritten =
        "int f(void) __attribute__((annotate(\"svcall:1\"))); enum \x7b __svcall_f = (1) \x7d;\nint x;\n" ++
        "int g(int a) __attribute__((annotate(\"svcall:2\"))); enum \x7b __svcall_g = (2) \x7d;\n\n" ∧
      marks.map (fun m => (m.name, m.line, m.lastLine)) = [(("f" : Text), 1, 1), ("g", 3, 4)] ∧
      Accounts "SVCALL" "a.h" twoTraps rewritten marks spans) ∧
    ∃ fault, replace "SVCALL" "a.h" untypedTrap = .error fault ∧ fault.IsMalformed := by
  have hmarker : IsIdentifier "SVCALL" := .of_ascii (by decide) (by decide)
  constructor
  · have hanswer : ((replace "SVCALL" "a.h" twoTraps).toOption.map fun answer =>
        (answer.1, answer.2.map fun m => (m.name, m.line, m.lastLine))) = some
          (("int f(void) __attribute__((annotate(\"svcall:1\"))); enum \x7b __svcall_f = (1) \x7d;\nint x;\n" : Text) ++
            "int g(int a) __attribute__((annotate(\"svcall:2\"))); enum \x7b __svcall_g = (2) \x7d;\n\n",
          [(("f" : Text), 1, 1), ("g", 3, 4)]) := by decide +kernel
    obtain ⟨⟨rewritten, marks⟩, h, hparts⟩ := exists_of_toOption_map hanswer
    obtain ⟨hrewritten, hmarks⟩ := Prod.mk.inj hparts
    obtain ⟨spans, haccounts⟩ := (replace_accounts hmarker).1 rewritten marks h
    exact ⟨rewritten, marks, spans, h, hrewritten, hmarks, haccounts⟩
  · refine (replace_accounts hmarker).2 ⟨7, ⟨rfl, [], "1, f(void));\n", List.forall_mem_nil _, [], isSpace_nil, rfl⟩, ?_⟩
    rw [← exists_statement?_iff]
    rintro ⟨s, hs⟩
    have hnone : statement? "SVCALL" (untypedTrap.drop 7) = none := by cbv
    rw [hnone] at hs
    cases hs

end TrapStub.Mark
