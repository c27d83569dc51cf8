import Mathlib.Data.List.Infix
import TrapStub.Constant
import TrapStub.Header
import TrapStub.Proofs.Answer
import TrapStub.Proofs.Text.Runs
import TrapStub.Proofs.Text.Splitting

/-!
# The body of a macro is one logical line

A macro goes on behind the end of a line when a backslash stands there. Its body has the tokens up to the first
line feed without one, and its text is the source of these tokens with the lines joined. Both are said here
without the scans that find them: the run of tokens by the places of line feeds and backslashes, the text by the
pieces between the line ends.

* `Escaped`: each element of a kind stands right behind a mark.
* `Macro.Continued`, `Macro.IsRun`, `Macro.sameLine_isRun`, `Macro.isPrefix_sameLine`: the tokens of a body are
  the longest run.
* `Macro.Joins`: a text and its lines joined by spaces; `Macro.joins_iff`: there is one way to join them.
* `Macro.ofTokens?_oneLine`: **the body of a macro is one logical line**, and so is its line in the output.
-/

namespace TrapStub

/-! ## Line feeds behind backslashes -/

section

variable {α : Type} {mark x g : α} {l l' : List α}

/-- Each `x` of the list stands right behind a `mark`. -/
def Escaped (mark x : α) (l : List α) : Prop := ∀ i, l[i]? = some x → ∃ j, i = j + 1 ∧ l[j]? = some mark

theorem escaped_nil : Escaped mark x [] := fun i h => by cases h

theorem escaped_of_not_mem (h : x ∉ l) : Escaped mark x l := fun _ hi => absurd (List.mem_of_getElem? hi) h

theorem Escaped.append (h : Escaped mark x l) (h' : Escaped mark x l') : Escaped mark x (l ++ l') := by
  intro i hi
  rcases Nat.lt_or_ge i l.length with hleft | hright
  · rw [List.getElem?_append_left hleft] at hi
    obtain ⟨j, rfl, hj⟩ := h i hi
    exact ⟨j, rfl, by rw [List.getElem?_append_left (by omega), hj]⟩
  · rw [List.getElem?_append_right hright] at hi
    obtain ⟨j, hij, hj⟩ := h' _ hi
    refine ⟨j + l.length, by omega, ?_⟩
    rw [List.getElem?_append_right (by omega), Nat.add_sub_cancel, hj]

theorem Escaped.drop {n : Nat} (h : Escaped mark x l) (hhead : (l.drop n).head? ≠ some x) :
    Escaped mark x (l.drop n) := by
  intro i hi
  cases i with
  | zero => exact absurd (List.head?_eq_getElem? ▸ hi) hhead
  | succ i =>
    rw [List.getElem?_drop] at hi
    obtain ⟨j, hij, hj⟩ := h _ hi
    obtain rfl : j = n + i := by omega
    exact ⟨i, rfl, by rw [List.getElem?_drop, hj]⟩

/-- The list around an element. -/
theorem exists_around {i : Nat} (h : l[i]? = some x) : ∃ before after, l = before ++ x :: after ∧ before.length = i := by
  obtain ⟨hi, rfl⟩ := List.getElem?_eq_some_iff.1 h
  exact ⟨l.take i, l.drop (i + 1), by rw [List.getElem_cons_drop, List.take_append_drop], List.length_take_of_le hi.le⟩

/-- A mark with its `x` may stand in front. -/
theorem escaped_pair (hne : mark ≠ x) : Escaped mark x (mark :: x :: l) ↔ Escaped mark x l := by
  constructor
  · intro h i hi
    obtain ⟨j, hij, hj⟩ := h (i + 2) hi
    obtain rfl : j = i + 1 := by omega
    cases i with
    | zero => exact absurd (Option.some.inj hj).symm hne
    | succ i => exact ⟨i, rfl, hj⟩
  · intro h i hi
    match i, hi with
    | 0, hi => exact absurd (Option.some.inj hi) hne
    | 1, _ => exact ⟨0, rfl, rfl⟩
    | i + 2, hi =>
      obtain ⟨j, rfl, hj⟩ := h i hi
      exact ⟨j + 2, rfl, hj⟩

/-- Anything else in front is no `x`. -/
theorem escaped_cons (hpair : g = mark → l.head? ≠ some x) : Escaped mark x (g :: l) ↔ g ≠ x ∧ Escaped mark x l := by
  constructor
  · intro h
    constructor
    · rintro rfl
      obtain ⟨j, hj, -⟩ := h 0 rfl
      omega
    · intro i hi
      obtain ⟨j, hij, hj⟩ := h (i + 1) hi
      obtain rfl : j = i := by omega
      cases j with
      | zero => exact absurd (List.head?_eq_getElem? ▸ hi) (hpair (Option.some.inj hj))
      | succ j => exact ⟨j, rfl, hj⟩
  · rintro ⟨hg, h⟩ i hi
    cases i with
    | zero => exact absurd (Option.some.inj hi) hg
    | succ i =>
      obtain ⟨j, rfl, hj⟩ := h i hi
      exact ⟨j + 1, rfl, hj⟩

end

namespace Macro

variable {bytes : List UInt8} {start stop : Nat} {tokens run : List Token}

/-- Every line feed from `start` up to `stop` ends a backslash and a line feed that both stand there. -/
def Continued (bytes : List UInt8) (start stop : Nat) : Prop :=
  ∀ i, start ≤ i → i < stop → bytes[i]? = some 0x0A → start < i ∧ bytes[i - 1]? = some 0x5C

/-- No line ends in front of the tokens, from the byte at `stop` on, nor between them. -/
def IsRun (bytes : List UInt8) : (stop : Nat) → List Token → Prop
  | _, [] => True
  | stop, token :: rest => Continued bytes stop token.start ∧ IsRun bytes token.stop rest

theorem endsLine_eq_false (l : List UInt8) : endsLine l = false ↔ Escaped 0x5C 0x0A l := by
  induction l using endsLine.induct with
  | case1 => exact ⟨fun _ => escaped_nil, fun _ => rfl⟩
  | case2 rest ih => rw [endsLine, ih, escaped_pair (by decide)]
  | case3 b rest hpair ih =>
    have hcons : b = 0x5C → rest.head? ≠ some 0x0A := by
      rintro rfl hhead
      obtain ⟨tail, rfl⟩ := List.head?_eq_some_iff.1 hhead
      exact hpair tail rfl rfl
    rw [endsLine.eq_3 _ _ hpair, escaped_cons hcons, ← ih, Bool.or_eq_false_iff, beq_eq_false_iff_ne]

theorem slice_getElem? (bytes : List UInt8) (start stop i : Nat) :
    (slice bytes start stop)[i]? = if start + i < stop then bytes[start + i]? else none := by
  unfold slice
  rw [List.getElem?_take, List.getElem?_drop]
  exact if_congr (by omega) rfl rfl

theorem escaped_slice : Escaped 0x5C 0x0A (slice bytes start stop) ↔ Continued bytes start stop := by
  unfold Escaped Continued
  simp only [slice_getElem?, Option.ite_none_right_eq_some]
  constructor
  · intro h i hstart hstop hi
    have hplace : start + (i - start) = i := by omega
    obtain ⟨j, hij, -, hj⟩ := h (i - start) ⟨by omega, by rw [hplace]; exact hi⟩
    obtain rfl : i = start + j + 1 := by omega
    exact ⟨by omega, hj⟩
  · rintro h i ⟨hstop, hi⟩
    obtain ⟨hlt, hbefore⟩ := h (start + i) (by omega) hstop hi
    obtain ⟨j, rfl⟩ : ∃ j, i = j + 1 := ⟨i - 1, by omega⟩
    exact ⟨j, rfl, by omega, hbefore⟩

theorem slice_append {middle : Nat} (hstart : start ≤ middle) (hstop : middle ≤ stop) :
    slice bytes start stop = slice bytes start middle ++ slice bytes middle stop := by
  unfold slice
  have hsum : stop - start = (middle - start) + (stop - middle) := by omega
  have hplace : start + (middle - start) = middle := by omega
  rw [hsum, List.take_add, List.drop_drop, hplace]

/-! ## The tokens of a body -/

theorem sameLine_cons (token : Token) : sameLine bytes stop (token :: tokens) =
    if endsLine (slice bytes stop token.start) then [] else token :: sameLine bytes token.stop tokens := rfl

/-- The tokens on the line are some of the first. -/
theorem sameLine_isPrefix (tokens : List Token) : sameLine bytes stop tokens <+: tokens := by
  induction tokens generalizing stop with
  | nil => exact List.prefix_rfl
  | cons token tokens ih =>
    rw [sameLine_cons]
    split
    · exact List.nil_prefix
    · exact (List.prefix_cons_inj token).2 ih

/-- No line ends between them. -/
theorem sameLine_isRun (tokens : List Token) : IsRun bytes stop (sameLine bytes stop tokens) := by
  induction tokens generalizing stop with
  | nil => trivial
  | cons token tokens ih =>
    rw [sameLine_cons]
    split
    · trivial
    · rename_i hends
      exact ⟨escaped_slice.1 ((endsLine_eq_false _).1 (by simpa using hends)), ih⟩

/-- **There is no longer run.** -/
theorem isPrefix_sameLine (hrun : IsRun bytes stop run) (h : run <+: tokens) :
    run <+: sameLine bytes stop tokens := by
  induction tokens generalizing stop run with
  | nil => exact h
  | cons token tokens ih =>
    cases run with
    | nil => exact List.nil_prefix
    | cons first run =>
      obtain ⟨rfl, hrest⟩ := List.cons_prefix_cons.1 h
      rw [sameLine_cons, (endsLine_eq_false _).2 (escaped_slice.2 hrun.1), if_neg Bool.false_ne_true]
      exact List.cons_prefix_cons.2 ⟨rfl, ih hrun.2 hrest⟩

/-- What is known of the tokens of a definition: each stands in the file, behind those before it, and holds no
line feed. -/
structure Placed (bytes : List UInt8) (tokens : List Token) : Prop where
  inside : ∀ token ∈ tokens, token.start ≤ token.stop ∧ token.stop ≤ bytes.length
  ascending : tokens.Pairwise fun token next => token.stop ≤ next.start
  source : ∀ token ∈ tokens, 0x0A ∉ slice bytes token.start token.stop
  spelling : ∀ token ∈ tokens, Glyph.newline ∉ token.spelling

theorem Placed.sublist (h : Placed bytes tokens) (hrun : run.Sublist tokens) : Placed bytes run :=
  ⟨fun token ht => h.inside token (hrun.subset ht), h.ascending.sublist hrun,
    fun token ht => h.source token (hrun.subset ht), fun token ht => h.spelling token (hrun.subset ht)⟩

/-- In the source of a run no line ends. -/
theorem escaped_run {first last : Token} (h : Placed bytes (first :: run)) (hrun : IsRun bytes first.stop run)
    (hlast : (first :: run).getLast? = some last) : Escaped 0x5C 0x0A (slice bytes first.start last.stop) := by
  induction run generalizing first with
  | nil =>
    obtain rfl : first = last := Option.some.inj hlast
    exact escaped_of_not_mem (h.source first List.mem_cons_self)
  | cons next run ih =>
    have hrest : Placed bytes (next :: run) := h.sublist (List.sublist_cons_self _ _)
    rw [List.getLast?_cons_cons] at hlast
    have hnext : next.start ≤ last.stop := by
      -- the last token ends behind the start of any other
      rcases List.mem_cons.1 (List.mem_of_getLast? hlast) with rfl | hmem
      · exact (hrest.inside last List.mem_cons_self).1
      · have hbetween := List.rel_of_pairwise_cons hrest.ascending hmem
        have := hrest.inside next List.mem_cons_self
        have := hrest.inside last (List.mem_cons_of_mem _ hmem)
        omega
    have hgap : first.stop ≤ next.start := List.rel_of_pairwise_cons h.ascending List.mem_cons_self
    have hfirst := (h.inside first List.mem_cons_self).1
    rw [slice_append (hfirst.trans hgap) hnext, slice_append hfirst hgap]
    exact ((escaped_of_not_mem (h.source first List.mem_cons_self)).append (escaped_slice.2 hrun.1)).append
      (ih hrest hrun.2 hlast)

end Macro

/-! ## Lines of bytes and of texts -/

namespace Utf8

theorem encode_append (s t : Text) : encode (s ++ t) = encode s ++ encode t := List.flatMap_append

/-- Only a backslash is written with its byte at the end. -/
theorem eq_of_getLast?_utf8EncodeChar {c : Char} (h : (String.utf8EncodeChar c).getLast? = some 0x5C) : c = '\\' := by
  have hbyte : ∀ {n : Nat}, UInt8.ofNat n = 0x5C → n % 256 = 0x5C := fun hn => congrArg UInt8.toNat hn
  have hvalue : c.val.toNat = 0x5C := by
    unfold String.utf8EncodeChar at h
    dsimp only at h
    -- the last of several bytes is at least 0x80
    have hlate : ∀ n : Nat, UInt8.ofNat (n % 64 + 128) ≠ 0x5C := fun n hn => by
      have := hbyte hn
      omega
    split at h
    · have := hbyte (Option.some.inj h)
      omega
    · split at h
      · exact absurd (Option.some.inj h) (hlate _)
      · split at h <;> exact absurd (Option.some.inj h) (hlate _)
  exact Char.ext (UInt32.toNat_inj.1 hvalue)

/-- A backslash is always read as a character. -/
theorem raw_not_mem_decodeFrom (skip : Nat) (bytes : List UInt8) : Glyph.raw 0x5C ∉ decodeFrom skip bytes := by
  induction bytes generalizing skip with
  | nil => cases skip <;> exact List.not_mem_nil
  | cons b rest ih =>
    cases skip with
    | succ skip => exact ih skip
    | zero =>
      rw [decodeFrom]
      split
      · rename_i c more hfirst
        intro h
        rcases List.mem_cons.1 h with hchar | h
        · cases hchar
        · exact ih more h
      · rename_i hfirst
        intro h
        rcases List.mem_cons.1 h with hraw | h
        · obtain rfl : (0x5C : UInt8) = b := Glyph.raw.inj hraw
          have hread : firstChar? (0x5C :: rest) = some ('\\', 0) := by
            unfold firstChar?
            rw [List.findSome?_cons, List.take_succ_cons, List.take_zero]
            rfl
          rw [hread] at hfirst
          cases hfirst
        · exact ih 0 h

theorem getLast?_glyphBytes {g : Glyph} (hraw : g ≠ .raw 0x5C) (h : (glyphBytes g).getLast? = some 0x5C) :
    g = .char '\\' := by
  cases g with
  | char c => rw [eq_of_getLast?_utf8EncodeChar h]
  | raw b => exact absurd (congrArg Glyph.raw (Option.some.inj h)) hraw

theorem glyphBytes_ne_nil (g : Glyph) : glyphBytes g ≠ [] := by
  cases g with
  | char c => exact String.utf8EncodeChar_ne_nil
  | raw b => exact List.cons_ne_nil _ _

/-- The glyph in front of a line feed is the one whose bytes are. -/
theorem escaped_of_encode {t : Text} (hraw : Glyph.raw 0x5C ∉ t) (h : Escaped 0x5C 0x0A (encode t)) :
    Escaped (Glyph.char '\\') Glyph.newline t := by
  intro i hi
  obtain ⟨before, after, rfl, rfl⟩ := exists_around hi
  have hbytes : encode (before ++ Glyph.newline :: after) = encode before ++ 0x0A :: encode after := encode_append _ _
  rw [hbytes] at h
  obtain ⟨j, hj, hmark⟩ := h (encode before).length (by simp)
  rw [List.getElem?_append_left (by omega)] at hmark
  rcases List.eq_nil_or_concat' before with rfl | ⟨front, g, rfl⟩
  · cases hj
  · have hlast : (encode (front ++ [g])).getLast? = some 0x5C := by
      rw [List.getLast?_eq_getElem?, hj, Nat.add_sub_cancel, hmark]
    have hone : encode [g] = glyphBytes g := List.append_nil _
    rw [encode_append, hone, List.getLast?_append_of_ne_nil _ (glyphBytes_ne_nil g)] at hlast
    have hg : g ≠ .raw 0x5C := by
      rintro rfl
      exact hraw (by simp)
    refine ⟨front.length, by simp, ?_⟩
    rw [getLast?_glyphBytes hg hlast]
    simp

/-- **Where every line feed of some bytes stands behind a backslash**, so does every line feed of their text. -/
theorem escaped_decode {bytes : List UInt8} (h : Escaped 0x5C 0x0A bytes) :
    Escaped (Glyph.char '\\') Glyph.newline (decode bytes) :=
  escaped_of_encode (raw_not_mem_decodeFrom 0 bytes) (by rwa [encode_decode])

end Utf8

namespace Macro

/-! ## The text of a body -/

/-- A backslash at the end of a line. -/
def lineEnd : Text := [.char '\\', .char '\n']

/-- The text of some lines when each backslash at the end of one, and the white space behind it, is a space. -/
inductive Joins : Text → Text → Prop
  | last {part : Text} (h : ¬ lineEnd <:+: part) : Joins part part
  | line {part space rest t : Text} (h : ¬ lineEnd <:+: part) (hspace : Text.IsSpace space)
      (hrest : ∀ g ∈ rest.head?, g.isSpace = false) (hjoins : Joins rest t) :
      Joins (part ++ lineEnd ++ space ++ rest) (part ++ .char ' ' :: t)

variable {part rest s t : Text} {g : Glyph}

theorem joinLines_lineEnd (rest : Text) :
    joinLines (lineEnd ++ rest) = .char ' ' :: joinLines (rest.dropWhile Glyph.isSpace) := by
  unfold lineEnd
  rw [List.cons_append, List.cons_append, List.nil_append, joinLines]

theorem joinLines_cons (h : ¬ lineEnd <+: g :: rest) : joinLines (g :: rest) = g :: joinLines rest := by
  rw [joinLines]
  rintro after rfl rfl
  exact h ⟨after, rfl⟩

/-- A text begins with the end of a line, or does not. -/
theorem joinLines_induction {P : Text → Prop} (hnil : P [])
    (hend : ∀ rest, P (rest.dropWhile Glyph.isSpace) → P (lineEnd ++ rest))
    (hcons : ∀ g rest, ¬ lineEnd <+: g :: rest → P rest → P (g :: rest)) (t : Text) : P t := by
  induction t using joinLines.induct with
  | case1 => exact hnil
  | case2 rest ih => exact hend rest ih
  | case3 g rest hpair ih =>
    refine hcons g rest ?_ ih
    rintro ⟨after, hafter⟩
    obtain ⟨rfl, hrest⟩ := List.cons.inj hafter
    exact hpair after rfl hrest.symm

theorem Joins.cons (h : ¬ lineEnd <+: g :: s) (hjoins : Joins s t) : Joins (g :: s) (g :: t) := by
  have hpart : ∀ {part after : Text}, s = part ++ after → ¬ lineEnd <:+: part → ¬ lineEnd <:+: g :: part := by
    rintro part after rfl hpart hinfix
    rcases List.infix_cons_iff.1 hinfix with hstart | hinfix
    · exact h (hstart.trans (List.prefix_append (g :: part) after))
    · exact hpart hinfix
  cases hjoins with
  | last hnone => exact .last (hpart (List.append_nil s).symm hnone)
  | line hnone hspace hrest hjoins =>
    exact .line (hpart (by rw [List.append_assoc, List.append_assoc]) hnone) hspace hrest hjoins

/-- The lines of a text are joined. -/
theorem joins_joinLines (t : Text) : Joins t (joinLines t) := by
  induction t using joinLines_induction with
  | hnil =>
    rw [joinLines]
    exact .last (by decide)
  | hend rest ih =>
    rw [joinLines_lineEnd]
    have hline : Joins ([] ++ lineEnd ++ rest.takeWhile Glyph.isSpace ++ rest.dropWhile Glyph.isSpace)
        ([] ++ .char ' ' :: joinLines (rest.dropWhile Glyph.isSpace)) :=
      .line (by decide) (Text.IsSpace.takeWhile rest) (Text.head_dropWhile rest) ih
    rwa [List.nil_append, List.nil_append, List.append_assoc, List.takeWhile_append_dropWhile] at hline
  | hcons g rest hpair ih =>
    rw [joinLines_cons hpair]
    exact ih.cons hpair

/-- A piece without the end of a line stays as it is. -/
theorem joinLines_part (h : ¬ lineEnd <:+: part) (hrest : rest = [] ∨ lineEnd <+: rest) :
    joinLines (part ++ rest) = part ++ joinLines rest := by
  induction part with
  | nil => rfl
  | cons g part ih =>
    have hpart : ¬ lineEnd <:+: part := fun hinfix => h (List.infix_cons hinfix)
    have hpair : ¬ lineEnd <+: g :: (part ++ rest) := by
      rintro ⟨after, hafter⟩
      obtain ⟨rfl, hnext⟩ := List.cons.inj hafter
      cases part with
      | nil =>
        -- the line feed would be the first glyph of what follows
        rcases hrest with rfl | ⟨more, rfl⟩ <;> cases hnext
      | cons g' part =>
        exact h ⟨[], part, by rw [← (List.cons.inj hnext).1]; rfl⟩
    rw [List.cons_append, joinLines_cons hpair, ih hpart, List.cons_append]

/-- **There is one way to join the lines of a text.** -/
theorem joins_iff : Joins s t ↔ t = joinLines s := by
  constructor
  · intro h
    induction h with
    | last hnone =>
      have hwhole := joinLines_part hnone (Or.inl rfl)
      rw [List.append_nil, joinLines, List.append_nil] at hwhole
      exact hwhole.symm
    | @line part space rest t hnone hspace hrest hjoins ih =>
      rw [List.append_assoc, List.append_assoc, joinLines_part hnone (Or.inr (List.prefix_append _ _)),
        joinLines_lineEnd, Text.dropWhile_run hspace hrest, ih]
  · rintro rfl
    exact joins_joinLines s

/-- **A text whose line feeds stand behind backslashes** is joined to a text without any. -/
theorem newline_not_mem_joinLines (h : Escaped (.char '\\') Glyph.newline t) : Glyph.newline ∉ joinLines t := by
  induction t using joinLines_induction with
  | hnil =>
    rw [joinLines]
    exact List.not_mem_nil
  | hend rest ih =>
    rw [joinLines_lineEnd]
    have hrest : Escaped (.char '\\') Glyph.newline rest := (escaped_pair (by decide)).1 h
    refine fun hmem => (List.mem_cons.1 hmem).elim (by decide) (ih ?_)
    rw [← Text.drop_length_takeWhile]
    refine hrest.drop fun hhead => ?_
    rw [Text.drop_length_takeWhile] at hhead
    exact absurd (Text.head_dropWhile rest _ hhead) (by decide)
  | hcons g rest hpair ih =>
    rw [joinLines_cons hpair]
    obtain ⟨hg, hrest⟩ := (escaped_cons fun hmark hhead => by
      obtain ⟨after, rfl⟩ := List.head?_eq_some_iff.1 hhead
      exact hpair ⟨after, by rw [hmark]; rfl⟩).1 h
    exact fun hmem => (List.mem_cons.1 hmem).elim (fun he => hg he.symm) (ih hrest)

/-- **When a definition makes a macro**: no parameters stand behind its name, and something on its line does. -/
theorem ofTokens?_eq_some {bytes : List UInt8} {name : Token} {tokens : List Token} {m : Macro} :
    ofTokens? bytes (name :: tokens) = some m ↔
    (∀ second ∈ tokens.head?, hasParameters name second = false) ∧
      ∃ first last, (sameLine bytes name.stop tokens).head? = some first ∧
        (sameLine bytes name.stop tokens).getLast? = some last ∧
        m = ⟨name.spelling, (sameLine bytes name.stop tokens).map fun token => (token.kind, token.spelling),
          joinLines (Utf8.decode (slice bytes first.start last.stop))⟩ := by
  cases tokens with
  | nil => simp [ofTokens?, sameLine]
  | cons second rest =>
    rw [ofTokens?]
    cases hparameters : hasParameters name second with
    | true => simp [hparameters]
    | false =>
      rw [if_neg Bool.false_ne_true]
      generalize sameLine bytes name.stop (second :: rest) = run
      cases run with
      | nil => simp
      | cons first more =>
        have hlast := List.getLast?_eq_some_getLast (List.cons_ne_nil first more)
        rw [hlast]
        constructor
        · rintro h
          exact ⟨fun s hs => Option.some.inj hs ▸ hparameters, first, _, rfl, rfl, (Option.some.inj h).symm⟩
        · rintro ⟨-, _, _, hfirst, hend, rfl⟩
          cases hfirst
          cases hend
          rfl

end Macro

/-- **A constant has a line of its own** in the output, if it is one line. -/
theorem Header.mem_lines_of_constant {corpus : Corpus} {plans : List Plan} {settings : Settings}
    {outputName name body text : Text} (h : Header.render corpus plans settings outputName = .ok text)
    (hconstant : (name, body) ∈ corpus.constants) (hname : Glyph.newline ∉ name) (hbody : Glyph.newline ∉ body) :
    "#define " ++ name ++ " " ++ body ∈ Text.splitOn Glyph.newline text := by
  unfold Header.render at h
  obtain ⟨⟨types, speller⟩, -, h⟩ := bind_eq_ok.1 h
  obtain ⟨stubs, -, h⟩ := bind_eq_ok.1 h
  rw [← pure_eq_ok.1 h]
  refine Text.mem_splitOn_unlines ?_ ?_
  · have hline : ("#define " ++ name ++ " " ++ body : Text) ∈ Header.constantLines corpus.constants := by
      unfold Header.constantLines
      rw [if_neg (by simpa using List.ne_nil_of_mem hconstant)]
      exact List.mem_append_right _ (List.mem_map_of_mem hconstant)
    simp only [List.mem_append]
    exact Or.inl (Or.inl (Or.inl (Or.inr hline)))
  · have hword : Glyph.newline ∉ ("#define " : Text) := by decide
    have hspace : Glyph.newline ∉ (" " : Text) := by decide
    simp only [List.mem_append, not_or]
    exact ⟨⟨⟨hword, hname⟩, hspace⟩, hbody⟩

/-- **The body of a macro is one logical line.** Its tokens are the longest run behind the name in which each line
feed between two tokens stands behind a backslash, its text is the source from the first of them to the last with
the lines joined, for which there is one way, and the definition is one line of every output that carries it. -/
theorem Macro.ofTokens?_oneLine {bytes : List UInt8} {name : Token} {tokens : List Token} {m : Macro}
    (hplaced : Macro.Placed bytes (name :: tokens)) (h : Macro.ofTokens? bytes (name :: tokens) = some m) :
    ∃ run first last, run.head? = some first ∧ run.getLast? = some last ∧
      (run <+: tokens ∧ Macro.IsRun bytes name.stop run ∧
        ∀ other, other <+: tokens → Macro.IsRun bytes name.stop other → other <+: run) ∧
      m.name = name.spelling ∧ m.tokens = run.map (fun token => (token.kind, token.spelling)) ∧
      (∀ t, Macro.Joins (Utf8.decode (Macro.slice bytes first.start last.stop)) t ↔ t = m.body) ∧
      Glyph.newline ∉ m.body ∧
      ∀ (corpus : Corpus) (plans : List Plan) (settings : Settings) (outputName text : Text),
        Header.render corpus plans settings outputName = .ok text → (m.name, m.body) ∈ corpus.constants →
        "#define " ++ m.name ++ " " ++ m.body ∈ Text.splitOn Glyph.newline text := by
  obtain ⟨-, first, last, hfirst, hlast, rfl⟩ := Macro.ofTokens?_eq_some.1 h
  have hstart : Macro.sameLine bytes name.stop tokens <+: tokens := Macro.sameLine_isPrefix tokens
  have hrun : Macro.IsRun bytes name.stop (Macro.sameLine bytes name.stop tokens) := Macro.sameLine_isRun tokens
  obtain ⟨rest, hbody⟩ := List.head?_eq_some_iff.1 hfirst
  have hescaped : Escaped 0x5C 0x0A (Macro.slice bytes first.start last.stop) := by
    have hsublist : (first :: rest).Sublist (name :: tokens) :=
      (hbody ▸ hstart.sublist).trans (List.sublist_cons_self _ _)
    rw [hbody] at hrun hlast
    exact Macro.escaped_run (hplaced.sublist hsublist) hrun.2 hlast
  have honeLine := Macro.newline_not_mem_joinLines (Utf8.escaped_decode hescaped)
  refine ⟨_, first, last, hfirst, hlast, ⟨hstart, hrun, fun other hother hotherRun =>
    Macro.isPrefix_sameLine hotherRun hother⟩, rfl, rfl, fun _ => Macro.joins_iff, honeLine, ?_⟩
  intro corpus plans settings outputName text hrender hconstant
  exact Header.mem_lines_of_constant hrender hconstant (hplaced.spelling name List.mem_cons_self) honeLine

/-- A header with a macro on two lines. -/
def twoLineBytes : List UInt8 := Utf8.encode "#define X (A \\\n  + 1)\nint y;"

/-- The macro's name. -/
def twoLineName : Token := ⟨.identifier, "X", 8, 9⟩

/-- The tokens of the macro's body. -/
def twoLineRun : List Token :=
  [⟨.punctuation, "(", 10, 11⟩, ⟨.identifier, "A", 11, 12⟩, ⟨.punctuation, "+", 17, 18⟩, ⟨.literal, "1", 19, 20⟩,
   ⟨.punctuation, ")", 20, 21⟩]

/-- The first token behind the macro. -/
def nextLineToken : Token := ⟨.keyword, "int", 22, 25⟩

/-- The macro, its body on one line. -/
def twoLineMacro : Macro := ⟨"X", twoLineRun.map fun token => (token.kind, token.spelling), "(A  + 1)"⟩

theorem twoLineMacro_oneLine :
    Macro.Placed twoLineBytes (twoLineName :: (twoLineRun ++ [nextLineToken])) ∧
      Macro.ofTokens? twoLineBytes (twoLineName :: (twoLineRun ++ [nextLineToken])) = some twoLineMacro ∧
      Glyph.newline ∉ twoLineMacro.body := by
  have hplaced : Macro.Placed twoLineBytes (twoLineName :: (twoLineRun ++ [nextLineToken])) :=
    ⟨by decide, by decide, by decide, by decide⟩
  have hmacro : Macro.ofTokens? twoLineBytes (twoLineName :: (twoLineRun ++ [nextLineToken])) = some twoLineMacro := by
    decide +kernel
  obtain ⟨-, -, -, -, -, -, -, -, -, honeLine, -⟩ := Macro.ofTokens?_oneLine hplaced hmacro
  exact ⟨hplaced, hmacro, honeLine⟩

end TrapStub
