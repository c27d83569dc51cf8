import TrapStub.Mark.Replace
import TrapStub.Proofs.Text.Runs

/-!
# The form of an annotation

What an annotation looks like, said without the reader: a marker, a number, a type, a name and a
parameter list, each free of the glyphs that end it, with white space between them. The reader finds
exactly the texts of this form.

* `Mark.Opens`: how every annotation starts, with `Mark.mem_openings`.
* `Mark.Statement.IsAnnotation`: the form of a whole annotation.
* `Mark.statement?_sound`: what is found has the form.
* `Mark.exists_statement?_iff`: **an annotation is found wherever one begins**, and only there.
-/

namespace TrapStub

namespace Text

/-- None of the characters stands in the text. -/
def Lacks (characters : List Char) (t : Text) : Prop := ∀ g ∈ t, ∀ c ∈ characters, g ≠ .char c

-- by the lists: there is an instance that tries every character
instance (characters : List Char) : DecidablePred (Lacks characters) :=
  @List.decidableBAll _ _ fun _ => List.decidableBAll _ characters

/-- An identifier of C: a letter or an underscore, and then letters, digits and underscores. -/
def IsIdentifier (t : Text) : Prop :=
  ∃ g rest, t = g :: rest ∧ g.startsIdentifier = true ∧ ∀ x ∈ rest, x.isWord = true

variable {characters : List Char} {s t : Text}

theorem IsIdentifier.of_ascii {g : Glyph} (hg : g.startsIdentifier = true) (ht : t.all isAsciiWord = true) :
    IsIdentifier (g :: t) := ⟨g, t, rfl, hg, forall_isWord ht⟩

theorem lacks_append : Lacks characters (s ++ t) ↔ Lacks characters s ∧ Lacks characters t :=
  List.forall_mem_append

/-- White space lacks every character that is none. -/
theorem IsSpace.lacks (h : IsSpace t) (hc : (characters.all fun c => !(Glyph.char c).isSpace) = true) :
    Lacks characters t := by
  rintro g hg c hmem rfl
  have hother := List.all_eq_true.1 hc c hmem
  rw [h _ hg] at hother
  cases hother

end Text

namespace Glyph

theorem is_eq_true {g : Glyph} {c : Char} : g.is c = true ↔ g = .char c := beq_iff_eq

theorem is_eq_false {g : Glyph} {c : Char} : g.is c = false ↔ g ≠ .char c := beq_eq_false_iff_ne

theorem isWord_of_startsIdentifier {g : Glyph} (h : g.startsIdentifier = true) : g.isWord = true := by
  refine Text.isWord_of_isAsciiWord ?_
  rcases Bool.or_eq_true_iff.1 h with h | h
  · rw [Text.isAsciiWord, h]
    rfl
  · obtain rfl := is_eq_true.1 h
    decide

theorem not_isSpace_of_isWord {g : Glyph} (h : g.isWord = true) : g.isSpace = false := by
  rw [Bool.eq_false_iff]
  intro hspace
  rw [Text.not_isWord_of_isSpace hspace] at h
  cases h

/-- A blank is a space or a tab. -/
theorem isBlank_iff {g : Glyph} : g.isBlank = true ↔ g = .char ' ' ∨ g = .char '\t' := by
  rw [isBlank, Bool.or_eq_true, is_eq_true, is_eq_true]

theorem isSpace_of_isBlank {g : Glyph} (h : g.isBlank = true) : g.isSpace = true := by
  rcases isBlank_iff.1 h with rfl | rfl <;> decide

theorem ne_newline_of_isBlank {g : Glyph} (h : g.isBlank = true) : g ≠ newline := by
  rcases isBlank_iff.1 h with rfl | rfl <;> decide

theorem ne_newline_of_isWord {g : Glyph} (h : g.isWord = true) : g ≠ newline := by
  rintro rfl
  rw [Text.isWord_of_ascii (by decide)] at h
  exact absurd h (by decide)

end Glyph

namespace Mark

open Text

/-- All glyphs of the text are spaces and tabs. -/
def IsBlank (t : Text) : Prop := ∀ g ∈ t, g.isBlank = true

/-- The text starts like an annotation, and goes on with `behind`. -/
def Opens (marker t indent behind : Text) : Prop :=
  IsBlank indent ∧ ∃ gap, IsSpace gap ∧ t = indent ++ marker ++ gap ++ .char '(' :: behind

/-- **The form of an annotation**: the marker, and in parentheses a number, a type, and a name with a
parameter list, each part free of what ends it. White space may stand at nine places, and a
semicolon stands at the end. -/
structure Statement.IsAnnotation (marker : Text) (s : Statement) : Prop where
  indent : IsBlank s.indent
  number : s.number ≠ [] ∧ Lacks [',', ';'] s.number
  returnType : s.returnType ≠ [] ∧ Lacks [',', ';', '(', ')'] s.returnType
  name : IsIdentifier s.name
  parameters : Lacks [';'] s.parameters
  written : ∃ g₁ g₂ g₃ g₄ g₅ g₆ g₇ g₈ g₉ : Text,
    (∀ gap ∈ [g₁, g₂, g₃, g₄, g₅, g₆, g₇, g₈, g₉], IsSpace gap) ∧
    s.written = List.flatten [s.indent, marker, g₁, "(", g₂, s.number, g₃, ",", g₄, s.returnType, g₅, ",",
      g₆, s.name, g₇, "(", s.parameters, ")", g₈, ")", g₉, ";"]

/-- A whole annotation stands at the start of the text. -/
def BeginsAnnotation (marker t : Text) : Prop :=
  ∃ s : Statement, s.IsAnnotation marker ∧ s.written <+: t

variable {marker t indent behind rest region part name parameters : Text} {forbidden : List Char} {c : Char}
  {s s' : Statement}

/-! ## The parts one by one -/

theorem mem_indents : (indent, rest) ∈ indents t ↔ IsBlank indent ∧ t = indent ++ rest := by
  induction t generalizing indent with
  | nil =>
    simp only [indents, List.mem_singleton, Prod.mk.injEq, List.nil_eq_append_iff]
    refine ⟨fun h => ⟨?_, h⟩, fun h => h.2⟩
    rw [h.1]
    exact List.forall_mem_nil _
  | cons g t ih =>
    have hnone : indent = [] → (IsBlank indent ∧ g :: t = indent ++ rest ↔ rest = g :: t) := by
      rintro rfl
      exact ⟨fun h => h.2.symm, fun h => ⟨List.forall_mem_nil _, h.symm⟩⟩
    rw [indents]
    split
    · rename_i hg
      rw [List.mem_append, List.mem_map, List.mem_singleton, Prod.mk.injEq]
      cases indent with
      | nil =>
        rw [hnone rfl]
        constructor
        · rintro (⟨⟨i, r⟩, -, hpair⟩ | ⟨-, hr⟩)
          · cases hpair
          · exact hr
        · exact fun hr => Or.inr ⟨rfl, hr⟩
      | cons x indent =>
        constructor
        · rintro (⟨⟨i, r⟩, hmem, hpair⟩ | ⟨hnil, -⟩)
          · obtain ⟨hcons, rfl⟩ := Prod.mk.inj hpair
            obtain ⟨rfl, rfl⟩ := List.cons.inj hcons
            obtain ⟨hblank, ht⟩ := ih.1 hmem
            exact ⟨List.forall_mem_cons.2 ⟨hg, hblank⟩, by rw [ht, List.cons_append]⟩
          · cases hnil
        · rintro ⟨hblank, ht⟩
          rw [List.cons_append] at ht
          obtain ⟨rfl, htail⟩ := List.cons.inj ht
          exact Or.inl ⟨(indent, rest), ih.2 ⟨(List.forall_mem_cons.1 hblank).2, htail⟩, rfl⟩
    · rename_i hg
      rw [List.mem_singleton, Prod.mk.injEq]
      cases indent with
      | nil =>
        rw [hnone rfl]
        exact ⟨fun h => h.2, fun h => ⟨rfl, h⟩⟩
      | cons x indent =>
        constructor
        · rintro ⟨hnil, -⟩
          cases hnil
        · rintro ⟨hblank, ht⟩
          rw [List.cons_append] at ht
          obtain ⟨rfl, -⟩ := List.cons.inj ht
          exact absurd (List.forall_mem_cons.1 hblank).1 hg

theorem afterSpaceAnd?_eq_some (hc : (Glyph.char c).isSpace = false) :
    afterSpaceAnd? c t = some rest ↔ ∃ gap, IsSpace gap ∧ t = gap ++ .char c :: rest := by
  unfold afterSpaceAnd?
  rw [after?_eq_some, List.singleton_append]
  constructor
  · intro h
    refine ⟨t.takeWhile Glyph.isSpace, .takeWhile t, ?_⟩
    rw [← h]
    exact stripStart_eq t
  · rintro ⟨gap, hgap, rfl⟩
    exact stripStart_append hgap (forall_head_cons hc _)

theorem mem_openings : (indent, behind) ∈ openings marker t ↔ Opens marker t indent behind := by
  unfold openings Opens
  rw [List.mem_filterMap]
  constructor
  · rintro ⟨⟨i, r⟩, hmem, hfound⟩
    obtain ⟨b, hopen, hpair⟩ := Option.map_eq_some_iff.1 hfound
    obtain ⟨rfl, rfl⟩ := Prod.mk.inj hpair
    obtain ⟨named, hmarker, hopen⟩ := Option.bind_eq_some_iff.1 hopen
    obtain ⟨hblank, rfl⟩ := mem_indents.1 hmem
    obtain ⟨gap, hgap, rfl⟩ := (afterSpaceAnd?_eq_some (by decide)).1 hopen
    rw [after?_eq_some.1 hmarker]
    exact ⟨hblank, gap, hgap, by simp only [List.append_assoc]⟩
  · rintro ⟨hblank, gap, hgap, rfl⟩
    refine ⟨(indent, marker ++ gap ++ .char '(' :: behind), mem_indents.2 ⟨hblank, by
      simp only [List.append_assoc]⟩, ?_⟩
    have hmarker : after? marker (marker ++ gap ++ .char '(' :: behind) = some (gap ++ .char '(' :: behind) :=
      after?_eq_some.2 (by rw [List.append_assoc])
    dsimp only
    rw [hmarker, Option.bind_some, (afterSpaceAnd?_eq_some (by decide)).2 ⟨gap, hgap, rfl⟩]
    rfl

theorem isWord_of_mem_identifier (h : IsIdentifier name) {g : Glyph} (hg : g ∈ name) : g.isWord = true := by
  obtain ⟨x, rest, rfl, hx, hrest⟩ := h
  rcases List.mem_cons.1 hg with rfl | hg
  · exact Glyph.isWord_of_startsIdentifier hx
  · exact hrest g hg

/-- An identifier starts with a glyph that is no white space. -/
theorem head_identifier {t u : Text} (h : IsIdentifier t) : ∀ g ∈ (t ++ u).head?, g.isSpace = false := by
  obtain ⟨x, rest, rfl, hx, -⟩ := h
  exact forall_head_cons (Glyph.not_isSpace_of_isWord (Glyph.isWord_of_startsIdentifier hx)) _

/-- A part is what is left of a region without the white space around it, or one glyph of white space. -/
theorem part?_eq_some (h : part? region = some part) : part ≠ [] ∧ (strip part = part ∨ strip part = []) ∧
    ∃ before after, IsSpace before ∧ IsSpace after ∧ region = before ++ part ++ after := by
  obtain ⟨before, after, hbefore, hafter, hregion⟩ := strip_framed region
  unfold part? at h
  dsimp only at h
  split at h
  · rename_i hempty
    rw [List.isEmpty_iff.1 hempty, List.append_nil] at hregion
    have hspace : IsSpace region := hregion ▸ List.forall_mem_append.2 ⟨hbefore, hafter⟩
    obtain ⟨g, hlast, rfl⟩ := Option.map_eq_some_iff.1 h
    obtain ⟨front, rfl⟩ := List.getLast?_eq_some_iff.1 hlast
    obtain ⟨hfront, hg⟩ := List.forall_mem_append.1 hspace
    exact ⟨List.cons_ne_nil _ _, Or.inr (strip_space hg), front, [], hfront, isSpace_nil, (List.append_nil _).symm⟩
  · rename_i hfull
    obtain rfl := Option.some.inj h
    exact ⟨fun hnil => hfull (List.isEmpty_iff.2 hnil), Or.inl (strip_strip region), before, after, hbefore, hafter,
      hregion⟩

theorem part?_isSome (h : region ≠ []) : ∃ part, part? region = some part := by
  unfold part?
  dsimp only
  split
  · obtain ⟨front, g, rfl⟩ := (List.eq_nil_or_concat' region).resolve_left h
    exact ⟨[g], by rw [List.getLast?_concat]; rfl⟩
  · exact ⟨_, rfl⟩

theorem commaPart?_eq_some : commaPart? forbidden t = some (part, rest) ↔
    ∃ region, Lacks (',' :: forbidden) region ∧ part? region = some part ∧ t = region ++ .char ',' :: rest := by
  have hlacks : ∀ {u : Text}, Lacks (',' :: forbidden) u ↔
      ∀ g ∈ u, (!(g.is ',' || forbidden.any (g.is ·))) = true := fun {u} => by
    simp only [Lacks, List.forall_mem_cons, Bool.not_eq_true', Bool.or_eq_false_iff, Glyph.is_eq_false,
      List.any_eq_false, Bool.not_eq_true]
  unfold commaPart?
  dsimp only
  rw [drop_length_takeWhile]
  constructor
  · intro h
    split at h
    · rename_i p r hpart hafter
      obtain ⟨rfl, rfl⟩ := Prod.mk.inj (Option.some.inj h)
      refine ⟨_, hlacks.2 fun g hg => mem_takeWhile hg, hpart, ?_⟩
      have hsplit := List.takeWhile_append_dropWhile (l := t)
        (p := fun g => !(Glyph.is g ',' || forbidden.any (g.is ·)))
      rw [after?_eq_some.1 hafter] at hsplit
      exact hsplit.symm
    · cases h
  · rintro ⟨region, hregion, hpart, rfl⟩
    have hcomma : ∀ g ∈ (Glyph.char ',' :: rest).head?, (!(g.is ',' || forbidden.any (g.is ·))) = false :=
      forall_head_cons (by rfl) _
    have hafter : after? "," (.char ',' :: rest) = some rest := after?_eq_some.2 rfl
    rw [takeWhile_run (hlacks.1 hregion) hcomma, dropWhile_run (hlacks.1 hregion) hcomma, hpart, hafter]

/-- A part between white space is found in front of its comma. -/
theorem commaPart?_isSome {before after : Text}
    (hforbidden : ((',' :: forbidden).all fun c => !(Glyph.char c).isSpace) = true)
    (hbefore : IsSpace before) (hafter : IsSpace after) (hne : part ≠ []) (hlacks : Lacks (',' :: forbidden) part) :
    ∃ found, commaPart? forbidden (before ++ part ++ after ++ .char ',' :: rest) = some (found, rest) := by
  have hregion : before ++ part ++ after ≠ [] := by
    simp only [ne_eq, List.append_eq_nil_iff, not_and]
    exact fun h => absurd h.2 hne
  obtain ⟨found, hfound⟩ := part?_isSome hregion
  have hframed : Lacks (',' :: forbidden) (before ++ part ++ after) :=
    lacks_append.2 ⟨lacks_append.2 ⟨hbefore.lacks hforbidden, hlacks⟩, hafter.lacks hforbidden⟩
  exact ⟨found, commaPart?_eq_some.2 ⟨_, hframed, hfound, rfl⟩⟩

theorem name?_eq_some : name? t = some (name, rest) ↔
    IsIdentifier name ∧ ∃ g₁ g₂, IsSpace g₁ ∧ IsSpace g₂ ∧ t = g₁ ++ name ++ g₂ ++ .char '(' :: rest := by
  unfold name?
  constructor
  · intro h
    split at h
    · cases h
    · rename_i g more hstrip
      split at h
      · rename_i hg
        obtain ⟨r, hopen, hpair⟩ := Option.map_eq_some_iff.1 h
        obtain ⟨rfl, rfl⟩ := Prod.mk.inj hpair
        rw [drop_length_takeWhile] at hopen
        obtain ⟨gap, hgap, hdrop⟩ := (afterSpaceAnd?_eq_some (by decide)).1 hopen
        refine ⟨⟨g, _, rfl, hg, fun x hx => mem_takeWhile hx⟩, _, gap, .takeWhile t, hgap, ?_⟩
        calc t = t.takeWhile Glyph.isSpace ++ stripStart t := stripStart_eq t
          _ = t.takeWhile Glyph.isSpace ++ (g :: (more.takeWhile Glyph.isWord ++ more.dropWhile Glyph.isWord)) := by
            rw [hstrip, List.takeWhile_append_dropWhile]
          _ = _ := by rw [hdrop, List.append_assoc, List.append_assoc, List.cons_append]
      · cases h
  · rintro ⟨hname, g₁, g₂, h₁, h₂, rfl⟩
    have hhead := head_identifier (u := g₂ ++ .char '(' :: rest) hname
    obtain ⟨g, more, rfl, hg, hmore⟩ := hname
    -- behind the name stands white space or the parenthesis, neither of which goes on with it
    have hbehind : ∀ x ∈ (g₂ ++ Glyph.char '(' :: rest).head?, x.isWord = false := by
      cases g₂ with
      | nil => exact forall_head_cons (by rw [Text.isWord_of_ascii (by decide)]; decide) _
      | cons y g₂ => exact forall_head_cons (Text.not_isWord_of_isSpace (List.forall_mem_cons.1 h₂).1) _
    have hstrip : stripStart (g₁ ++ (g :: more) ++ g₂ ++ .char '(' :: rest) =
        g :: (more ++ (g₂ ++ .char '(' :: rest)) := by
      rw [List.append_assoc, List.append_assoc]
      exact stripStart_append h₁ hhead
    rw [hstrip]
    dsimp only
    rw [if_pos hg, drop_length_takeWhile, takeWhile_run hmore hbehind, dropWhile_run hmore hbehind,
      (afterSpaceAnd?_eq_some (by decide)).2 ⟨g₂, h₂, rfl⟩]
    rfl

theorem beforeParenthesis?_eq_some :
    beforeParenthesis? t = some rest ↔ ∃ gap, IsSpace gap ∧ t = rest ++ .char ')' :: gap := by
  unfold beforeParenthesis?
  constructor
  · intro h
    obtain ⟨gap, hgap, ht⟩ := stripEnd_eq t
    refine ⟨gap, hgap, ?_⟩
    split at h
    · rename_i g r hreverse
      split at h
      · rename_i hg
        obtain rfl := Option.some.inj h
        obtain rfl := Glyph.is_eq_true.1 hg
        have hstrip := congrArg List.reverse hreverse
        rw [List.reverse_reverse, List.reverse_cons] at hstrip
        rw [ht, hstrip, List.append_assoc, List.singleton_append]
      · cases h
    · cases h
  · rintro ⟨gap, hgap, rfl⟩
    have hlast : ∀ g ∈ (rest ++ [Glyph.char ')']).getLast?, g.isSpace = false := fun g hg => by
      rw [List.getLast?_concat] at hg
      obtain rfl : Glyph.char ')' = g := Option.some.inj hg
      decide
    rw [← List.singleton_append, ← List.append_assoc, stripEnd_append hgap hlast, List.reverse_append]
    simp only [List.reverse_singleton, List.singleton_append, List.reverse_reverse]
    rfl

theorem parameters?_eq_some : parameters? t = some (parameters, rest) ↔
    Lacks [';'] parameters ∧ ∃ g₁ g₂, IsSpace g₁ ∧ IsSpace g₂ ∧
      t = parameters ++ .char ')' :: (g₁ ++ .char ')' :: (g₂ ++ .char ';' :: rest)) := by
  have hlacks : ∀ {u : Text}, Lacks [';'] u ↔ ∀ g ∈ u, (!g.is ';') = true := fun {u} => by
    simp only [Lacks, List.mem_singleton, forall_eq, Bool.not_eq_true', Glyph.is_eq_false]
  unfold parameters?
  dsimp only
  rw [drop_length_takeWhile]
  constructor
  · intro h
    split at h
    · rename_i p r hparts hafter
      obtain ⟨rfl, rfl⟩ := Prod.mk.inj (Option.some.inj h)
      obtain ⟨middle, houter, hinner⟩ := Option.bind_eq_some_iff.1 hparts
      obtain ⟨g₂, h₂, hregion⟩ := beforeParenthesis?_eq_some.1 houter
      obtain ⟨g₁, h₁, rfl⟩ := beforeParenthesis?_eq_some.1 hinner
      have hsplit := List.takeWhile_append_dropWhile (p := fun g => !Glyph.is g ';') (l := t)
      rw [after?_eq_some.1 hafter, hregion] at hsplit
      refine ⟨hlacks.2 fun g hg => ?_, g₁, g₂, h₁, h₂, ?_⟩
      · refine mem_takeWhile (t := t) (p := fun g => !Glyph.is g ';') ?_
        rw [hregion]
        exact List.mem_append_left _ (List.mem_append_left _ hg)
      · rw [← hsplit]
        simp only [List.append_assoc, List.cons_append]
        rfl
    · cases h
  · rintro ⟨hparameters, g₁, g₂, h₁, h₂, rfl⟩
    have hregion : ∀ g ∈ parameters ++ .char ')' :: (g₁ ++ .char ')' :: g₂), (!Glyph.is g ';') = true :=
      List.forall_mem_append.2 ⟨hlacks.1 hparameters, List.forall_mem_cons.2 ⟨rfl, List.forall_mem_append.2
        ⟨hlacks.1 (h₁.lacks rfl), List.forall_mem_cons.2 ⟨rfl, hlacks.1 (h₂.lacks rfl)⟩⟩⟩⟩
    have hsemicolon : ∀ g ∈ (Glyph.char ';' :: rest).head?, (!Glyph.is g ';') = false := forall_head_cons (by rfl) _
    have hafter : after? ";" (.char ';' :: rest) = some rest := after?_eq_some.2 rfl
    have hsplit : parameters ++ .char ')' :: (g₁ ++ .char ')' :: (g₂ ++ .char ';' :: rest)) =
        (parameters ++ .char ')' :: (g₁ ++ .char ')' :: g₂)) ++ .char ';' :: rest := by
      simp only [List.append_assoc, List.cons_append]
    have houter : beforeParenthesis? (parameters ++ .char ')' :: (g₁ ++ .char ')' :: g₂)) =
        some (parameters ++ .char ')' :: g₁) :=
      beforeParenthesis?_eq_some.2 ⟨g₂, h₂, by simp only [List.append_assoc, List.cons_append]⟩
    rw [hsplit, takeWhile_run hregion hsemicolon, dropWhile_run hregion hsemicolon, houter, Option.bind_some,
      beforeParenthesis?_eq_some.2 ⟨g₁, h₁, rfl⟩, hafter]

/-! ## The whole annotation -/

theorem statementFrom?_sound (hopen : Opens marker t indent behind) (h : statementFrom? t indent behind = some s) :
    s.IsAnnotation marker ∧ s.written <+: t := by
  simp only [statementFrom?, Option.bind_eq_bind, Option.bind_eq_some_iff, pure, Option.some.injEq] at h
  obtain ⟨⟨number, r₁⟩, h₁, ⟨returnType, r₂⟩, h₂, ⟨name, r₃⟩, h₃, ⟨parameters, r₄⟩, h₄, rfl⟩ := h
  obtain ⟨hblank, gap, hgap, ht⟩ := hopen
  obtain ⟨region₁, hlacks₁, hpart₁, rfl⟩ := commaPart?_eq_some.1 h₁
  obtain ⟨region₂, hlacks₂, hpart₂, hr₁⟩ := commaPart?_eq_some.1 h₂
  obtain ⟨hname, g₆, g₇, hg₆, hg₇, hr₂⟩ := name?_eq_some.1 h₃
  obtain ⟨hparameters, g₈, g₉, hg₈, hg₉, hr₃⟩ := parameters?_eq_some.1 h₄
  obtain ⟨hne₁, -, g₂, g₃, hg₂, hg₃, rfl⟩ := part?_eq_some hpart₁
  obtain ⟨hne₂, -, g₄, g₅, hg₄, hg₅, rfl⟩ := part?_eq_some hpart₂
  dsimp only at hr₁ hr₂ hr₃
  subst hr₁ hr₂ hr₃
  have hwhole : t = List.flatten [indent, marker, gap, "(", g₂, number, g₃, ",", g₄, returnType, g₅, ",",
      g₆, name, g₇, "(", parameters, ")", g₈, ")", g₉, ";"] ++ r₄ := by
    rw [ht]
    simp only [List.flatten_cons, List.flatten_nil, List.append_assoc, List.append_nil]
    rfl
  have hwritten : t.take (t.length - r₄.length) = List.flatten [indent, marker, gap, "(", g₂, number, g₃, ",", g₄,
      returnType, g₅, ",", g₆, name, g₇, "(", parameters, ")", g₈, ")", g₉, ";"] := by
    rw [hwhole, List.length_append, Nat.add_sub_cancel, List.take_left]
  refine ⟨⟨hblank, ⟨hne₁, (lacks_append.1 (lacks_append.1 hlacks₁).1).2⟩,
    ⟨hne₂, (lacks_append.1 (lacks_append.1 hlacks₂).1).2⟩, hname, hparameters, gap, g₂, g₃, g₄, g₅, g₆, g₇, g₈, g₉,
    ?_, hwritten⟩, List.take_prefix _ _⟩
  simp only [List.forall_mem_cons]
  exact ⟨hgap, hg₂, hg₃, hg₄, hg₅, hg₆, hg₇, hg₈, hg₉, List.forall_mem_nil _⟩

theorem statementFrom?_complete (hs : s.IsAnnotation marker) (ht : s.written <+: t) :
    ∃ behind, Opens marker t s.indent behind ∧ ∃ found, statementFrom? t s.indent behind = some found := by
  obtain ⟨rest, rfl⟩ := ht
  obtain ⟨g₁, g₂, g₃, g₄, g₅, g₆, g₇, g₈, g₉, hgaps, hwritten⟩ := hs.written
  simp only [List.forall_mem_cons] at hgaps
  obtain ⟨hg₁, hg₂, hg₃, hg₄, hg₅, hg₆, hg₇, hg₈, hg₉, -⟩ := hgaps
  let afterName : Text := s.parameters ++ .char ')' :: (g₈ ++ .char ')' :: (g₉ ++ .char ';' :: rest))
  let afterType : Text := g₆ ++ s.name ++ g₇ ++ .char '(' :: afterName
  let afterNumber : Text := (g₄ ++ s.returnType ++ g₅) ++ .char ',' :: afterType
  let behind : Text := (g₂ ++ s.number ++ g₃) ++ .char ',' :: afterNumber
  have hwhole : s.written ++ rest = s.indent ++ marker ++ g₁ ++ .char '(' :: behind := by
    rw [hwritten]
    simp only [List.flatten_cons, List.flatten_nil, List.append_assoc, List.append_nil, behind, afterNumber,
      afterType, afterName]
    rfl
  refine ⟨behind, ⟨hs.indent, g₁, hg₁, hwhole⟩, ?_⟩
  obtain ⟨number, hnumber⟩ : ∃ number, commaPart? [';'] behind = some (number, afterNumber) :=
    commaPart?_isSome rfl hg₂ hg₃ hs.number.1 hs.number.2
  obtain ⟨returnType, htype⟩ : ∃ type, commaPart? [';', '(', ')'] afterNumber = some (type, afterType) :=
    commaPart?_isSome rfl hg₄ hg₅ hs.returnType.1 hs.returnType.2
  have hname : name? afterType = some (s.name, afterName) := name?_eq_some.2 ⟨hs.name, g₆, g₇, hg₆, hg₇, rfl⟩
  have hparameters : parameters? afterName = some (s.parameters, rest) :=
    parameters?_eq_some.2 ⟨hs.parameters, g₈, g₉, hg₈, hg₉, rfl⟩
  refine ⟨_, Option.bind_eq_some_iff.2 ⟨_, hnumber, Option.bind_eq_some_iff.2 ⟨_, htype,
    Option.bind_eq_some_iff.2 ⟨_, hname, Option.bind_eq_some_iff.2 ⟨_, hparameters, rfl⟩⟩⟩⟩⟩

/-- What is found has the form of an annotation, and the text starts with it. -/
theorem statement?_sound (h : statement? marker t = some s) : s.IsAnnotation marker ∧ s.written <+: t := by
  obtain ⟨⟨indent, behind⟩, hmem, hfound⟩ := List.exists_of_findSome?_eq_some h
  exact statementFrom?_sound (mem_openings.1 hmem) hfound

/-- **An annotation is found wherever one begins**, and only there. -/
theorem exists_statement?_iff : (∃ s, statement? marker t = some s) ↔ BeginsAnnotation marker t := by
  refine ⟨fun ⟨s, hs⟩ => ⟨s, statement?_sound hs⟩, fun ⟨s, hs, ht⟩ => ?_⟩
  obtain ⟨behind, hopen, found, hfound⟩ := statementFrom?_complete hs ht
  refine Option.isSome_iff_exists.1 (List.findSome?_isSome_iff.2 ⟨_, mem_openings.2 hopen, ?_⟩)
  dsimp only
  rw [hfound]
  rfl

end Mark

end TrapStub
