import TrapStub.Text.Space
import TrapStub.Text.Word

/-!
# Annotations

A header marks a trap function by a statement that starts a line:

    SVCALL(SD_BLE_ENABLE, uint32_t, sd_ble_enable(uint32_t * p_app_ram_base));

The marker is followed, in parentheses, by the trap number, the return type, and the name with the
parameter list; a semicolon ends the statement. White space, line ends included, may stand between
the parts.

* `Mark.opening?`: the text behind the opening parenthesis of a statement.
* `Mark.statement?`: the statement that a line starts with.
* `Mark.written_of_statement?`: a statement as written is a beginning of the text, and not an empty
  one.
-/

namespace TrapStub

/-- One annotation of a header, as written. -/
structure Mark where
  origin : Text
  /-- The line it starts on; the first line is line 1. -/
  line : Nat
  lastLine : Nat
  /-- The function. -/
  name : Text
  /-- The trap number as written. -/
  symbol : Text
  deriving DecidableEq, Repr

namespace Mark

/-- A complete annotation statement and its parts. -/
structure Statement where
  /-- The white space the line starts with. -/
  indent : Text
  number : Text
  returnType : Text
  name : Text
  parameters : Text
  /-- The statement from the start of its line to its semicolon. -/
  written : Text
  deriving DecidableEq, Repr

/-- The ways to cut blanks off the front of a text, the longest cut first. -/
def indents : Text → List (Text × Text)
  | [] => [([], [])]
  | g :: rest =>
    if g.isBlank then
      (indents rest).map (fun (indent, rest) => (g :: indent, rest)) ++ [([], g :: rest)]
    else [([], g :: rest)]

/-- What follows white space and the glyph `c`. -/
def afterSpaceAnd? (c : Char) (t : Text) : Option Text := Text.after? [.char c] (Text.stripStart t)

/-- The indents of a text that the marker and an opening parenthesis follow, each with the text
behind the parenthesis. -/
def openings (marker t : Text) : List (Text × Text) :=
  (indents t).filterMap fun (indent, rest) =>
    ((Text.after? marker rest).bind (afterSpaceAnd? '(')).map fun rest => (indent, rest)

theorem length_le_of_mem_indents {t indent rest : Text} (h : (indent, rest) ∈ indents t) :
    rest.length ≤ t.length := by
  induction t generalizing indent with
  | nil => simp_all [indents]
  | cons g t ih =>
    simp only [indents] at h
    split at h
    · rcases List.mem_append.mp h with deeper | here
      · obtain ⟨⟨i, r⟩, member, pair⟩ := List.mem_map.mp deeper
        obtain ⟨-, rfl⟩ := Prod.mk.inj pair
        exact Nat.le_succ_of_le (ih member)
      · simp_all
    · simp_all

theorem length_le_of_afterSpaceAnd? {c : Char} {t rest : Text}
    (h : afterSpaceAnd? c t = some rest) : rest.length ≤ t.length := by
  have cut := Text.length_of_after? h
  have strip := (List.dropWhile_sublist Glyph.isSpace (l := t)).length_le
  simp only [Text.stripStart] at cut
  omega

theorem length_le_of_mem_openings {marker t indent rest : Text}
    (h : (indent, rest) ∈ openings marker t) : rest.length ≤ t.length := by
  obtain ⟨⟨i, r⟩, member, found⟩ := List.mem_filterMap.mp h
  obtain ⟨behind, opened, pair⟩ := Option.map_eq_some_iff.mp found
  obtain ⟨-, rfl⟩ := Prod.mk.inj pair
  obtain ⟨named, marked, opened⟩ := Option.bind_eq_some_iff.mp opened
  have indented := length_le_of_mem_indents member
  have cut := Text.length_of_after? marked
  have open_le := length_le_of_afterSpaceAnd? opened
  omega

/-- The text behind the opening parenthesis when the text starts like a statement. -/
def opening? (marker t : Text) : Option Text := (openings marker t).head?.map (·.2)

/-- A part without the white space around it. A part of nothing but white space is its last glyph,
and an empty part is none. -/
def part? (region : Text) : Option Text :=
  let trimmed := Text.strip region
  if trimmed.isEmpty then region.getLast?.map ([·]) else some trimmed

/-- The part in front of the next comma, and the text behind the comma; the part must be free of
the glyphs of `forbidden`. -/
def commaPart? (forbidden : List Char) (t : Text) : Option (Text × Text) :=
  let region := t.takeWhile fun g => !(g.is ',' || forbidden.any (g.is ·))
  match part? region, Text.after? "," (t.drop region.length) with
  | some part, some rest => some (part, rest)
  | _, _ => none

theorem length_lt_of_commaPart? {forbidden : List Char} {t part rest : Text}
    (h : commaPart? forbidden t = some (part, rest)) : rest.length < t.length := by
  simp only [commaPart?] at h
  split at h
  · next _ _ _ cut =>
    obtain ⟨-, rfl⟩ := Prod.mk.inj (Option.some.inj h)
    have cut := Text.length_of_after? cut
    simp only [List.length_drop] at cut
    have comma : (Text.ofString ",").length = 1 := rfl
    omega
  · simp at h

/-- The function's name, and the text behind the parenthesis that follows it. -/
def name? (t : Text) : Option (Text × Text) :=
  match Text.stripStart t with
  | [] => none
  | g :: rest =>
    if g.startsIdentifier then
      let more := rest.takeWhile Glyph.isWord
      (afterSpaceAnd? '(' (rest.drop more.length)).map fun rest => (g :: more, rest)
    else none

theorem length_le_of_name? {t name rest : Text} (h : name? t = some (name, rest)) :
    rest.length ≤ t.length := by
  have strip := (List.dropWhile_sublist Glyph.isSpace (l := t)).length_le
  simp only [name?, Text.stripStart] at h
  split at h
  · simp at h
  · next g more stripped =>
    rw [stripped, List.length_cons] at strip
    split at h
    · obtain ⟨behind, opened, pair⟩ := Option.map_eq_some_iff.mp h
      obtain ⟨-, rfl⟩ := Prod.mk.inj pair
      have open_le := length_le_of_afterSpaceAnd? opened
      simp only [List.length_drop] at open_le
      omega
    · simp at h

/-- The text without a closing parenthesis and the white space behind it. -/
def beforeParenthesis? (t : Text) : Option Text :=
  match (Text.stripEnd t).reverse with
  | g :: rest => if g.is ')' then some rest.reverse else none
  | [] => none

/-- The parameter list: all up to the semicolon but for the two closing parentheses; and the text
behind the semicolon. -/
def parameters? (t : Text) : Option (Text × Text) :=
  let region := t.takeWhile fun g => !g.is ';'
  match (beforeParenthesis? region).bind beforeParenthesis?,
    Text.after? ";" (t.drop region.length) with
  | some parameters, some rest => some (parameters, rest)
  | _, _ => none

theorem length_le_of_parameters? {t parameters rest : Text}
    (h : parameters? t = some (parameters, rest)) : rest.length ≤ t.length := by
  simp only [parameters?] at h
  split at h
  · next _ _ _ cut =>
    obtain ⟨-, rfl⟩ := Prod.mk.inj (Option.some.inj h)
    have cut := Text.length_of_after? cut
    simp only [List.length_drop] at cut
    omega
  · simp at h

/-- The statement that a text starts with, given its indent and the text behind the opening
parenthesis. -/
def statementFrom? (t indent rest : Text) : Option Statement := do
  let (number, rest) ← commaPart? [';'] rest
  let (returnType, rest) ← commaPart? [';', '(', ')'] rest
  let (name, rest) ← name? rest
  let (parameters, rest) ← parameters? rest
  let written := t.take (t.length - rest.length)
  return { indent, number, returnType, name, parameters, written }

/-- The annotation statement that a text starts with. -/
def statement? (marker t : Text) : Option Statement :=
  (openings marker t).findSome? fun (indent, rest) => statementFrom? t indent rest

theorem written_of_statementFrom? {t indent rest : Text} {s : Statement}
    (h : statementFrom? t indent rest = some s) (behind : rest.length ≤ t.length) :
    ∃ n, s.written = t.take (n + 1) ∧ n < t.length := by
  simp only [statementFrom?, Option.bind_eq_bind, Option.bind_eq_some_iff] at h
  obtain ⟨⟨number, r₁⟩, h₁, ⟨returnType, r₂⟩, h₂, ⟨name, r₃⟩, h₃, ⟨parameters, r₄⟩, h₄, same⟩ := h
  have l₁ := length_lt_of_commaPart? h₁
  have l₂ := length_lt_of_commaPart? h₂
  have l₃ := length_le_of_name? h₃
  have l₄ := length_le_of_parameters? h₄
  simp only [pure, Option.some.injEq] at same
  simp only at l₂ l₃ l₄
  refine ⟨t.length - r₄.length - 1, ?_, by omega⟩
  rw [← same, Nat.sub_add_cancel (by omega)]

/-- A statement as written is a beginning of the text, and not an empty one. -/
theorem written_of_statement? {marker t : Text} {s : Statement} (h : statement? marker t = some s) :
    ∃ n, s.written = t.take (n + 1) ∧ n < t.length := by
  obtain ⟨⟨indent, rest⟩, member, found⟩ := List.exists_of_findSome?_eq_some h
  exact written_of_statementFrom? found (length_le_of_mem_openings member)

end Mark

end TrapStub
