import TrapStub.Text

/-!
# Parts between separators

Parts that do not hold the separator are read back when they are joined by it, whatever stands beside them.

* `Text.splitOn_append_cons`: the parts on both sides of a separator.
* `Text.splitOn_join`: **parts without the separator are read back.**
* `Text.mem_splitOn_unlines`: **a line without a line feed is a line of the whole.**
-/

namespace TrapStub.Text

variable {separator : Glyph} {part line : Text} {lines : List Text}

theorem splitOn_ne_nil (t : Text) : splitOn separator t ≠ [] := by
  cases t with
  | nil => exact List.cons_ne_nil _ _
  | cons g t =>
    rw [splitOn]
    split
    · exact List.cons_ne_nil _ _
    · split <;> exact List.cons_ne_nil _ _

/-- The parts on both sides of a separator. -/
theorem splitOn_append_cons (s t : Text) :
    splitOn separator (s ++ separator :: t) = splitOn separator s ++ splitOn separator t := by
  induction s with
  | nil =>
    rw [List.nil_append, splitOn.eq_2, if_pos rfl]
    rfl
  | cons g s ih =>
    rw [List.cons_append, splitOn, splitOn, ih]
    by_cases hg : g = separator
    · rw [if_pos hg, if_pos hg, List.cons_append]
    · rw [if_neg hg, if_neg hg]
      cases hs : splitOn separator s with
      | nil => exact absurd hs (splitOn_ne_nil s)
      | cons part parts => rfl

theorem splitOn_part (h : ∀ g ∈ part, g ≠ separator) : splitOn separator part = [part] := by
  induction part with
  | nil => rfl
  | cons g part ih =>
    rw [splitOn, if_neg (h g List.mem_cons_self), ih fun x hx => h x (List.mem_cons_of_mem g hx)]

/-- **Parts without the separator are read back.** -/
theorem splitOn_join : ∀ {parts : List Text}, parts ≠ [] → (∀ part ∈ parts, ∀ g ∈ part, g ≠ separator) →
    splitOn separator (join [separator] parts) = parts
  | [], hne, _ => absurd rfl hne
  | [part], _, h => splitOn_part (h part List.mem_cons_self)
  | part :: next :: rest, _, h => by
    have hjoin : join [separator] (part :: next :: rest) = part ++ separator :: join [separator] (next :: rest) :=
      List.append_assoc part [separator] (join [separator] (next :: rest))
    rw [hjoin, splitOn_append_cons, splitOn_part (h part List.mem_cons_self),
      splitOn_join (List.cons_ne_nil next rest) fun p hp => h p (List.mem_cons_of_mem part hp), List.singleton_append]

/-- **A line without a line feed is a line of the whole.** -/
theorem mem_splitOn_unlines (hline : line ∈ lines) (h : Glyph.newline ∉ line) :
    line ∈ splitOn Glyph.newline (unlines lines) := by
  have hself : line ∈ splitOn Glyph.newline line := by
    have hall : ∀ g ∈ line, g ≠ Glyph.newline := fun g hg hnewline => h (hnewline ▸ hg)
    rw [splitOn_part hall]
    exact List.mem_singleton_self _
  induction lines with
  | nil => cases hline
  | cons first rest ih =>
    cases rest with
    | nil => exact List.mem_singleton.1 hline ▸ hself
    | cons next rest =>
      have hunlines : unlines (first :: next :: rest) = first ++ Glyph.newline :: unlines (next :: rest) :=
        List.append_assoc _ _ _
      rw [hunlines, splitOn_append_cons]
      rcases List.mem_cons.1 hline with rfl | hrest
      · exact List.mem_append_left _ hself
      · exact List.mem_append_right _ (ih hrest)

end TrapStub.Text
