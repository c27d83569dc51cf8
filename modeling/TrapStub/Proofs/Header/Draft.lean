import Mathlib.Data.List.Perm.Basic
import Mathlib.Data.List.TakeWhile
import TrapStub.Header
import TrapStub.Proofs.Answer

/-!
# Drafts

Which bodies stand in a header, and what stands around them, is lost in its text. A draft is the text with
notes between its glyphs: it is written by the same steps, and without the notes it is the text.

* `Draft.text`, `Draft.notes`: the two halves of a draft, each with one lemma for every way drafts are put
  together.
* `CType.declareDraft`: a declaration as a draft. `CType.declareDraft_text`: **it reads as the declaration
  does.** `CType.declareDraft_notes`: its notes are those of the name and of each key that is spelled.
-/

namespace TrapStub

/-- What a draft says about the place it stands at. -/
inductive Note where
  /-- A macro is defined here. -/
  | constant (name : Text)
  /-- A typedef is written here. -/
  | typedef (definition : Typedef)
  /-- The body of a struct, union or enum begins here. -/
  | body (definition : Tagged)
  /-- A packing begins. -/
  | push (packing : Int)
  /-- The last packing ends. -/
  | pop

/-- A text with notes. -/
abbrev Draft := List (Glyph ⊕ Note)

namespace Draft

/-- The draft without its notes. -/
def text (d : Draft) : Text := d.filterMap Sum.getLeft?

/-- The notes in reading order. -/
def notes (d : Draft) : List Note := d.filterMap Sum.getRight?

/-- A text without notes. -/
def plain (t : Text) : Draft := t.map Sum.inl

/-- A note alone. -/
def mark (note : Note) : Draft := [Sum.inr note]

/-- The parts in order with `separator` between neighbours. -/
def join (separator : Text) : List Draft → Draft
  | [] => []
  | [part] => part
  | part :: next :: rest => part ++ plain separator ++ join separator (next :: rest)

/-- The lines as one draft, a line feed between neighbours. -/
def unlines (lines : List Draft) : Draft := join [Glyph.newline] lines

/-- The draft without white space at its end; notes stay. -/
def stripEnd : Draft → Draft
  | [] => []
  | .inr note :: rest => .inr note :: stripEnd rest
  | .inl g :: rest =>
    if g.isSpace && (text rest).all Glyph.isSpace then stripEnd rest else .inl g :: stripEnd rest

variable {a b d : Draft} {separator : Text}

@[simp] theorem text_nil : text [] = [] := rfl

@[simp] theorem text_append (a b : Draft) : text (a ++ b) = text a ++ text b := List.filterMap_append ..

@[simp] theorem text_plain (t : Text) : text (plain t) = t := by
  unfold text plain
  rw [List.filterMap_map]
  exact List.filterMap_some

@[simp] theorem text_mark (note : Note) : text (mark note) = [] := rfl

@[simp] theorem notes_nil : notes [] = [] := rfl

@[simp] theorem notes_append (a b : Draft) : notes (a ++ b) = notes a ++ notes b := List.filterMap_append ..

@[simp] theorem notes_plain (t : Text) : notes (plain t) = [] := by
  unfold notes plain
  rw [List.filterMap_map]
  exact List.filterMap_eq_nil_iff.2 fun _ _ => rfl

@[simp] theorem notes_mark (note : Note) : notes (mark note) = [note] := rfl

@[simp] theorem text_join (separator : Text) : ∀ parts : List Draft,
    text (join separator parts) = Text.join separator (parts.map text)
  | [] => rfl
  | [part] => rfl
  | part :: next :: rest => by
    rw [join, text_append, text_append, text_plain, text_join separator (next :: rest)]
    rfl

@[simp] theorem notes_join (separator : Text) : ∀ parts : List Draft,
    notes (join separator parts) = parts.flatMap notes
  | [] => rfl
  | [part] => (List.append_nil _).symm
  | part :: next :: rest => by
    rw [join, notes_append, notes_append, notes_plain, List.append_nil, notes_join separator (next :: rest)]
    rfl

@[simp] theorem text_unlines (lines : List Draft) : text (unlines lines) = Text.unlines (lines.map text) :=
  text_join ..

@[simp] theorem notes_unlines (lines : List Draft) : notes (unlines lines) = lines.flatMap notes :=
  notes_join ..

end Draft

/-- White space at the end of a text, glyph by glyph. -/
theorem Text.stripEnd_cons (g : Glyph) (t : Text) : Text.stripEnd (g :: t) =
    if g.isSpace && t.all Glyph.isSpace then [] else g :: Text.stripEnd t := by
  unfold Text.stripEnd trimEnd
  rw [List.reverse_cons, List.dropWhile_append]
  by_cases ht : t.all Glyph.isSpace = true
  · have hnone : t.reverse.dropWhile Glyph.isSpace = [] :=
      List.dropWhile_eq_nil_iff.2 fun x hx => List.all_eq_true.1 ht x (List.mem_reverse.1 hx)
    rw [hnone, ht]
    cases hg : g.isSpace <;> simp [hg]
  · have hsome : (t.reverse.dropWhile Glyph.isSpace).isEmpty = false := by
      rw [List.isEmpty_eq_false_iff, Ne, List.dropWhile_eq_nil_iff]
      exact fun h => ht (List.all_eq_true.2 fun x hx => h x (List.mem_reverse.2 hx))
    rw [Bool.not_eq_true] at ht
    simp [hsome, ht]

namespace Draft

@[simp] theorem text_stripEnd : ∀ d : Draft, text (stripEnd d) = Text.stripEnd (text d)
  | [] => rfl
  | .inr note :: rest => text_stripEnd rest
  | .inl g :: rest => by
    have hrest := text_stripEnd rest
    show text (stripEnd (.inl g :: rest)) = Text.stripEnd (g :: text rest)
    rw [stripEnd, Text.stripEnd_cons]
    split
    · next hspace =>
      -- nothing is left of what follows either
      have hall := (Bool.and_eq_true_iff.1 hspace).2
      rw [hrest]
      cases hr : text rest with
      | nil => rfl
      | cons x xs =>
        rw [hr] at hall
        rw [Text.stripEnd_cons, if_pos (by simpa using hall)]
    · exact congrArg (g :: ·) hrest

@[simp] theorem notes_stripEnd : ∀ d : Draft, notes (stripEnd d) = notes d
  | [] => rfl
  | .inr note :: rest => congrArg (note :: ·) (notes_stripEnd rest)
  | .inl g :: rest => by
    rw [stripEnd]
    split
    · exact notes_stripEnd rest
    · exact notes_stripEnd rest

end Draft

/-! ## Declarators -/

namespace CType

open Draft

/-- A pointer's star with its qualifiers, in front of `inner`. -/
def pointerDraft (qualifiers : List Text) (inner : Draft) : Draft :=
  if qualifiers.isEmpty then plain "*" ++ inner
  else stripEnd (plain ("*" ++ Text.join " " qualifiers ++ " ") ++ inner)

/-- The first part of a declaration together with the part around the name. -/
def assembleDraft (first inner : Draft) : Draft :=
  if (text inner).isEmpty then first ++ inner else first ++ plain " " ++ inner

variable (spell : Text → Draft)

mutual

/-- The type that is written first, with its qualifiers, and the draft around the name. -/
def splitDraft (qualifiers : List Text) (inner : Draft) : CType → Draft × Draft
  | qualified base const volatile => splitDraft (qualifiers ++ qualifierWords const volatile) inner base
  | pointer target =>
    let part := pointerDraft qualifiers inner
    splitDraft [] (if target.unqualified.isSuffixed then plain "(" ++ part ++ plain ")" else part) target
  | array element length =>
    splitDraft [] (inner ++ plain ("[" ++ (length.map Text.decimal).getD [] ++ "]")) element
  | function result parameters variadic =>
    let written := draftAll parameters ++ (if variadic then [plain ("..." : Text)] else [])
    let list := if written.isEmpty then plain ("void" : Text) else join ", " written
    splitDraft [] (inner ++ plain "(" ++ list ++ plain ")") result
  | named key => (join " " (qualifiers.map plain ++ [spell key]), inner)
  | scalar type => (plain (Text.join " " (qualifiers ++ [type.spelling])), inner)
  | void => (plain (Text.join " " (qualifiers ++ [("void" : Text)])), inner)

/-- The parameter types as they stand in a parameter list, without names. -/
def draftAll : List CType → List Draft
  | [] => []
  | t :: rest =>
    let (first, inner) := splitDraft [] [] t
    assembleDraft first inner :: draftAll rest

end

/-- The declaration of a name with this type, where `spell` writes its keys; the bare type when the name is
empty. -/
def declareDraft (t : CType) (name : Draft) : Draft :=
  let (first, inner) := splitDraft spell [] name t
  assembleDraft first inner

theorem pointerDraft_text (qualifiers : List Text) (inner : Draft) :
    text (pointerDraft qualifiers inner) = pointerPart qualifiers (text inner) := by
  unfold pointerDraft pointerPart
  split <;> simp

theorem pointerDraft_notes (qualifiers : List Text) (inner : Draft) :
    notes (pointerDraft qualifiers inner) = notes inner := by
  unfold pointerDraft
  split <;> simp

theorem assembleDraft_text (first inner : Draft) :
    text (assembleDraft first inner) = assemble (text first) (text inner) := by
  unfold assembleDraft assemble
  split
  · next hempty => rw [text_append, List.isEmpty_iff.1 hempty, List.append_nil]
  · simp

theorem assembleDraft_notes (first inner : Draft) :
    notes (assembleDraft first inner) = notes first ++ notes inner := by
  unfold assembleDraft
  split <;> simp

variable {spell} {ε : Type} {f : Text → Except ε Text}

/-- Replacing keys leaves the layers of a type as they are. -/
theorem isSuffixed_mapNames : ∀ {t t' : CType}, t.mapNames f = .ok t' →
    t'.unqualified.isSuffixed = t.unqualified.isSuffixed
  | .void, t', h => by cases h; rfl
  | .scalar type, t', h => by cases h; rfl
  | .pointer target, t', h => by
    rw [mapNames] at h
    obtain ⟨target', -, h⟩ := bind_eq_ok.1 h
    rw [← pure_eq_ok.1 h]
    rfl
  | .named key, t', h => by
    rw [mapNames] at h
    obtain ⟨name, -, h⟩ := bind_eq_ok.1 h
    rw [← pure_eq_ok.1 h]
    rfl
  | .array element length, t', h => by
    rw [mapNames] at h
    obtain ⟨element', -, h⟩ := bind_eq_ok.1 h
    rw [← pure_eq_ok.1 h]
    rfl
  | .function result parameters variadic, t', h => by
    rw [mapNames] at h
    obtain ⟨parameters', -, h⟩ := bind_eq_ok.1 h
    obtain ⟨result', -, h⟩ := bind_eq_ok.1 h
    rw [← pure_eq_ok.1 h]
    rfl
  | .qualified base const volatile, t', h => by
    rw [mapNames] at h
    obtain ⟨base', hb, h⟩ := bind_eq_ok.1 h
    rw [← pure_eq_ok.1 h, unqualified, unqualified]
    exact isSuffixed_mapNames hb

mutual

/-- A declarator's two parts read as the two parts of its draft do. -/
theorem splitDraft_text (hspell : ∀ key written, f key = .ok written → text (spell key) = written) :
    ∀ {t t' : CType}, t.mapNames f = .ok t' → ∀ (qualifiers : List Text) (inner : Draft),
      split qualifiers (text inner) t' =
        (text (splitDraft spell qualifiers inner t).1, text (splitDraft spell qualifiers inner t).2)
  | .void, t', h, qualifiers, inner => by
    cases h
    rw [split, splitDraft, text_plain]
  | .scalar type, t', h, qualifiers, inner => by
    cases h
    rw [split, splitDraft, text_plain]
  | .named key, t', h, qualifiers, inner => by
    rw [mapNames] at h
    obtain ⟨name, hname, h⟩ := bind_eq_ok.1 h
    rw [← pure_eq_ok.1 h, split, splitDraft]
    simp [hspell key name hname, Function.comp_def]
  | .qualified base const volatile, t', h, qualifiers, inner => by
    rw [mapNames] at h
    obtain ⟨base', hb, h⟩ := bind_eq_ok.1 h
    rw [← pure_eq_ok.1 h, split, splitDraft]
    exact splitDraft_text hspell hb _ inner
  | .pointer target, t', h, qualifiers, inner => by
    rw [mapNames] at h
    obtain ⟨target', ht, h⟩ := bind_eq_ok.1 h
    rw [← pure_eq_ok.1 h, split, splitDraft, isSuffixed_mapNames ht]
    have hinner : (if target.unqualified.isSuffixed then
          ("(" : Text) ++ pointerPart qualifiers (text inner) ++ ")" else pointerPart qualifiers (text inner)) =
        text (if target.unqualified.isSuffixed then
          plain "(" ++ pointerDraft qualifiers inner ++ plain ")" else pointerDraft qualifiers inner) := by
      split <;> simp [pointerDraft_text]
    simp only [hinner]
    exact splitDraft_text hspell ht [] _
  | .array element length, t', h, qualifiers, inner => by
    rw [mapNames] at h
    obtain ⟨element', he, h⟩ := bind_eq_ok.1 h
    rw [← pure_eq_ok.1 h, split, splitDraft]
    have hinner : text inner ++ ("[" : Text) ++ (length.map Text.decimal).getD [] ++ "]" =
        text (inner ++ plain ("[" ++ (length.map Text.decimal).getD [] ++ "]")) := by
      simp
    rw [hinner]
    exact splitDraft_text hspell he [] _
  | .function result parameters variadic, t', h, qualifiers, inner => by
    rw [mapNames] at h
    obtain ⟨parameters', hp, h⟩ := bind_eq_ok.1 h
    obtain ⟨result', hr, h⟩ := bind_eq_ok.1 h
    rw [← pure_eq_ok.1 h, split, splitDraft, draftAll_text hspell hp]
    have hwritten : (draftAll spell parameters).map text ++ (if variadic then [("..." : Text)] else []) =
        (draftAll spell parameters ++ if variadic then [plain ("..." : Text)] else []).map text := by
      cases variadic <;> simp
    simp only [hwritten]
    have hinner : ∀ written : List Draft,
        text inner ++ ("(" : Text) ++ (if (written.map text).isEmpty then ("void" : Text)
            else Text.join ", " (written.map text)) ++ ")" =
          text (inner ++ plain "(" ++ (if written.isEmpty then plain ("void" : Text) else join ", " written) ++
            plain ")") := by
      intro written
      rw [List.isEmpty_map]
      split <;> simp
    rw [hinner]
    exact splitDraft_text hspell hr [] _

theorem draftAll_text (hspell : ∀ key written, f key = .ok written → text (spell key) = written) :
    ∀ {ts ts' : List CType}, mapNamesOfAll f ts = .ok ts' → declareAll ts' = (draftAll spell ts).map text
  | [], ts', h => by cases h; rfl
  | t :: rest, ts', h => by
    rw [mapNamesOfAll] at h
    obtain ⟨t', ht, h⟩ := bind_eq_ok.1 h
    obtain ⟨rest', hr, h⟩ := bind_eq_ok.1 h
    rw [← pure_eq_ok.1 h, declareAll, draftAll, List.map_cons, assembleDraft_text, draftAll_text hspell hr]
    have hsplit := splitDraft_text hspell ht [] []
    rw [text_nil] at hsplit
    rw [hsplit]

end

/-- **A draft of a declaration reads as the declaration does.** -/
theorem declareDraft_text (hspell : ∀ key written, f key = .ok written → text (spell key) = written)
    {t t' : CType} (h : t.mapNames f = .ok t') (name : Draft) :
    text (declareDraft spell t name) = t'.declare (text name) := by
  unfold declareDraft declare
  rw [assembleDraft_text, splitDraft_text hspell h]

variable (spell)

mutual

/-- Every key of a type is spelled once in its declarator. -/
theorem splitDraft_notes : ∀ (t : CType) (qualifiers : List Text) (inner : Draft),
    (notes (splitDraft spell qualifiers inner t).1 ++ notes (splitDraft spell qualifiers inner t).2).Perm
      (t.keys.flatMap (fun key => notes (spell key)) ++ notes inner)
  | .void, qualifiers, inner => by simp [splitDraft, keys]
  | .scalar type, qualifiers, inner => by simp [splitDraft, keys]
  | .named key, qualifiers, inner => by
    have hplain : (qualifiers.map plain).flatMap notes = [] := by
      rw [List.flatMap_map]
      exact List.flatMap_eq_nil_iff.2 fun q _ => notes_plain q
    simp [splitDraft, keys, hplain]
  | .qualified base const volatile, qualifiers, inner => splitDraft_notes base _ inner
  | .pointer target, qualifiers, inner => by
    rw [splitDraft]
    refine (splitDraft_notes target [] _).trans (List.Perm.of_eq ?_)
    split <;> simp [pointerDraft_notes, keys]
  | .array element length, qualifiers, inner => by
    rw [splitDraft]
    refine (splitDraft_notes element [] _).trans (List.Perm.of_eq ?_)
    simp [keys]
  | .function result parameters variadic, qualifiers, inner => by
    rw [splitDraft]
    refine (splitDraft_notes result [] _).trans ?_
    have hlist : ∀ written : List Draft, notes (if written.isEmpty then plain ("void" : Text)
        else join ", " written) = written.flatMap notes := by
      intro written
      cases written <;> simp
    have hdots : (if variadic then [plain ("..." : Text)] else []).flatMap notes = [] := by
      cases variadic <;> simp
    simp only [keys, notes_append, notes_plain, hlist, hdots, List.append_nil, List.flatMap_append]
    rw [List.append_assoc]
    exact (List.perm_append_comm.trans ((draftAll_notes parameters).append_right _)).append_left _

theorem draftAll_notes : ∀ ts : List CType,
    ((draftAll spell ts).flatMap notes).Perm ((keysOfAll ts).flatMap fun key => notes (spell key))
  | [] => .nil
  | t :: rest => by
    rw [draftAll, List.flatMap_cons, assembleDraft_notes, keysOfAll, List.flatMap_append]
    have ht := splitDraft_notes t [] []
    rw [notes_nil, List.append_nil] at ht
    exact ht.append (draftAll_notes rest)

end

/-- **The notes of a declaration are those of its name and of each key that is spelled.** -/
theorem declareDraft_notes (t : CType) (name : Draft) : (notes (declareDraft spell t name)).Perm
    (t.keys.flatMap (fun key => notes (spell key)) ++ notes name) := by
  unfold declareDraft
  rw [assembleDraft_notes]
  exact splitDraft_notes spell t [] name

end CType

end TrapStub
