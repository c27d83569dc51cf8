import Mathlib.Data.List.TakeWhile
import TrapStub.Proofs.Text.Identifiers

/-!
# Runs at the ends of a text

A text is read by cutting off the longest run of some glyphs at one of its ends. What is cut off is
known as soon as the glyph behind the run is none of them.

* `Text.takeWhile_run`, `Text.dropWhile_run`: the run and the rest, with `Text.run_unique`.
* `Text.trimEnd_eq`: a text is what is left of it and what is cut off its end.
* `Text.IsSpace`: a text of white space, with `Text.stripStart_append` and `Text.strip_framed`.
* `Text.after?_eq_some`: a stem and the rest.
-/

namespace TrapStub.Text

variable {p : Glyph → Bool} {run rest t : Text} {g : Glyph}

theorem forall_head_cons {P : Glyph → Prop} (hg : P g) (t : Text) : ∀ x ∈ (g :: t).head?, P x := fun x hx => by
  obtain rfl : g = x := Option.some.inj hx
  exact hg

theorem takeWhile_run (hrun : ∀ g ∈ run, p g = true) (hrest : ∀ g ∈ rest.head?, p g = false) :
    (run ++ rest).takeWhile p = run := by
  rw [List.takeWhile_append_of_pos hrun]
  cases rest with
  | nil => rw [List.takeWhile_nil, List.append_nil]
  | cons g rest => rw [List.takeWhile_cons_of_neg (by rw [hrest g rfl]; exact Bool.false_ne_true), List.append_nil]

theorem dropWhile_run (hrun : ∀ g ∈ run, p g = true) (hrest : ∀ g ∈ rest.head?, p g = false) :
    (run ++ rest).dropWhile p = rest := by
  have happend := List.takeWhile_append_dropWhile (p := p) (l := run ++ rest)
  rw [takeWhile_run hrun hrest] at happend
  exact List.append_cancel_left happend

/-- A text has one longest run of some glyphs at its start. -/
theorem run_unique {w w' rest rest' : Text} (hw : ∀ g ∈ w, p g = true)
    (hw' : ∀ g ∈ w', p g = true) (hrest : ∀ g ∈ rest.head?, p g = false) (hrest' : ∀ g ∈ rest'.head?, p g = false)
    (h : w ++ rest = w' ++ rest') : w = w' ∧ rest = rest' := by
  have hww : w = w' := by rw [← takeWhile_run hw hrest, h, takeWhile_run hw' hrest']
  subst hww
  exact ⟨rfl, List.append_cancel_left h⟩

/-- What a longest run leaves does not go on with it. -/
theorem head_dropWhile (t : Text) : ∀ g ∈ (t.dropWhile p).head?, p g = false := by
  induction t with
  | nil => nofun
  | cons g t ih =>
    rw [List.dropWhile_cons]
    split
    · exact ih
    · rename_i hg
      intro x hx
      obtain rfl : g = x := Option.some.inj hx
      simpa using hg

theorem drop_length_takeWhile (p : Glyph → Bool) (t : Text) : t.drop (t.takeWhile p).length = t.dropWhile p :=
  calc t.drop (t.takeWhile p).length
    _ = (t.takeWhile p ++ t.dropWhile p).drop (t.takeWhile p).length := by rw [List.takeWhile_append_dropWhile]
    _ = t.dropWhile p := List.drop_left

theorem mem_takeWhile (h : g ∈ t.takeWhile p) : p g = true := List.mem_takeWhile_imp h

/-- A text is what trimming leaves and the run at its end. -/
theorem trimEnd_eq (p : Glyph → Bool) (t : Text) : ∃ run, (∀ g ∈ run, p g = true) ∧ t = trimEnd p t ++ run := by
  refine ⟨(t.reverse.takeWhile p).reverse, fun g hg => mem_takeWhile (List.mem_reverse.1 hg), ?_⟩
  have happend := List.takeWhile_append_dropWhile (p := p) (l := t.reverse)
  have hreverse := congrArg List.reverse happend
  rw [List.reverse_append, List.reverse_reverse] at hreverse
  exact hreverse.symm

theorem after?_eq_some {stem : Text} : after? stem t = some rest ↔ t = stem ++ rest := by
  refine ⟨eq_append_of_after?, fun h => ?_⟩
  subst h
  induction stem with
  | nil => rfl
  | cons s stem ih => rw [List.cons_append, after?, if_pos rfl, ih]

/-! ## White space -/

/-- All glyphs of the text are white space. -/
def IsSpace (t : Text) : Prop := ∀ g ∈ t, g.isSpace = true

instance : DecidablePred IsSpace := fun t => inferInstanceAs (Decidable (∀ g ∈ t, g.isSpace = true))

theorem isSpace_nil : IsSpace [] := List.forall_mem_nil _

theorem IsSpace.takeWhile (t : Text) : IsSpace (t.takeWhile Glyph.isSpace) := fun _ hg => mem_takeWhile hg

/-- A text is the white space at its start and what stripping leaves. -/
theorem stripStart_eq (t : Text) : t = t.takeWhile Glyph.isSpace ++ stripStart t :=
  List.takeWhile_append_dropWhile.symm

theorem stripStart_append {space : Text} (hs : IsSpace space) (ht : ∀ g ∈ t.head?, g.isSpace = false) :
    stripStart (space ++ t) = t :=
  dropWhile_run hs ht

/-- A text is what stripping leaves and the white space at its end. -/
theorem stripEnd_eq (t : Text) : ∃ space, IsSpace space ∧ t = stripEnd t ++ space := trimEnd_eq Glyph.isSpace t

theorem stripEnd_append {space : Text} (hs : IsSpace space) (ht : ∀ g ∈ t.getLast?, g.isSpace = false) :
    stripEnd (t ++ space) = t := by
  unfold stripEnd trimEnd
  rw [List.reverse_append, dropWhile_run (fun g hg => hs g (List.mem_reverse.1 hg)), List.reverse_reverse]
  rw [List.head?_reverse]
  exact ht

theorem getLast_stripEnd (t : Text) : ∀ g ∈ (stripEnd t).getLast?, g.isSpace = false := by
  unfold stripEnd trimEnd
  rw [List.getLast?_reverse]
  exact head_dropWhile t.reverse

/-- Stripping takes white space away at the start, and then at the end. -/
theorem strip_eq (t : Text) : strip t = stripEnd (stripStart t) := rfl

/-- A text is what stripping leaves between white space. -/
theorem strip_framed (t : Text) : ∃ before after, IsSpace before ∧ IsSpace after ∧ t = before ++ strip t ++ after := by
  obtain ⟨after, hafter, heq⟩ := stripEnd_eq (stripStart t)
  refine ⟨t.takeWhile Glyph.isSpace, after, .takeWhile t, hafter, ?_⟩
  rw [List.append_assoc, strip_eq, ← heq]
  exact stripStart_eq t

theorem strip_space (h : IsSpace t) : strip t = [] := by
  have hstart := stripStart_append (t := []) h nofun
  rw [List.append_nil] at hstart
  rw [strip_eq, hstart]
  rfl

/-- Nothing but white space strips to nothing. -/
theorem strip_eq_nil : strip t = [] ↔ IsSpace t := by
  refine ⟨fun h => ?_, strip_space⟩
  obtain ⟨before, after, hbefore, hafter, ht⟩ := strip_framed t
  rw [h, List.append_nil] at ht
  rw [ht]
  exact List.forall_mem_append.2 ⟨hbefore, hafter⟩

/-- White space around a text is stripped. -/
theorem strip_append {before after : Text} (hb : IsSpace before) (ha : IsSpace after) :
    strip (before ++ t ++ after) = strip t := by
  rw [strip_eq, strip_eq, List.append_assoc]
  have hstart : stripStart (before ++ (t ++ after)) = stripStart (t ++ after) := by
    unfold stripStart
    rw [List.dropWhile_append_of_pos hb]
  rw [hstart]
  -- either something of `t` is left at the start, or `t` is white space throughout
  cases hleft : stripStart t with
  | nil =>
    have ht : IsSpace t := by
      rw [stripStart_eq t, hleft, List.append_nil]
      exact .takeWhile t
    rw [← strip_eq, strip_space (List.forall_mem_append.2 ⟨ht, ha⟩)]
    rfl
  | cons g rest =>
    have hg : ∀ x ∈ (g :: rest ++ after).head?, x.isSpace = false := fun x hx => by
      have hhead := head_dropWhile (p := Glyph.isSpace) t
      rw [show t.dropWhile Glyph.isSpace = g :: rest from hleft] at hhead
      exact hhead x hx
    have ht : t ++ after = t.takeWhile Glyph.isSpace ++ (g :: rest ++ after) := by
      rw [← List.append_assoc, ← hleft, ← stripStart_eq]
    rw [ht, stripStart_append (.takeWhile t) hg]
    obtain ⟨space, hs, heq⟩ := stripEnd_eq (g :: rest)
    rw [heq, List.append_assoc, stripEnd_append (List.forall_mem_append.2 ⟨hs, ha⟩) (getLast_stripEnd _),
      ← heq]

theorem strip_strip (t : Text) : strip (strip t) = strip t := by
  obtain ⟨before, after, hb, ha, ht⟩ := strip_framed t
  calc strip (strip t) = strip (before ++ strip t ++ after) := (strip_append hb ha).symm
    _ = strip t := by rw [← ht]

end TrapStub.Text
