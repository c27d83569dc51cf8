import TrapStub.CType.Declarator
import TrapStub.Proofs.Text.Identifiers
import TrapStub.Proofs.Text.Nesting

/-!
# The layers of a declarator

Around its name a declarator has a layer for every pointer, array and function on the way from the
declared type to the one that is written first. Each layer stands outside of the one before, so the
text is read from its ends inwards.

* `CType.Spine`, `CType.spine`: the layers of a type, and what is written first.
* `CType.declare_eq`: **a declaration is written from the spine of its type.**
* `CType.Layer.Proper`: what the parts of a layer can be, with the texts they give.
-/

namespace TrapStub.CType

open Text

/-- What one part of a type adds to the text around the name. -/
inductive Layer where
  | pointer (qualifiers : List Text)
  | array (length : Option Int)
  /-- A function, with the texts in its parameter list. -/
  | function (written : List Text)

/-- A type as a declarator shows it: the layers from the name outwards, and what is written first. -/
@[ext]
structure Spine where
  layers : List Layer
  qualifiers : List Text
  atom : Text

def Spine.cons (layer : Layer) (s : Spine) : Spine := { s with layers := layer :: s.layers }

/-- The texts in a parameter list. -/
def writtenParameters (parameters : List CType) (variadic : Bool) : List Text :=
  declareAll parameters ++ (if variadic then [("..." : Text)] else [])

/-- The spine of a type that some qualifiers stand over. -/
def spine (qualifiers : List Text) : CType → Spine
  | qualified base const volatile => spine (qualifiers ++ qualifierWords const volatile) base
  | pointer target => (spine [] target).cons (.pointer qualifiers)
  | array element length => (spine [] element).cons (.array length)
  | function result parameters variadic =>
    (spine [] result).cons (.function (writtenParameters parameters variadic))
  | named key => ⟨[], qualifiers, key⟩
  | scalar type => ⟨[], qualifiers, type.spelling⟩
  | void => ⟨[], qualifiers, "void"⟩

/-- What stands between the brackets of an array. -/
def lengthText (length : Option Int) : Text := (length.map Text.decimal).getD []

/-- What stands between the parentheses of a function. -/
def parameterList (written : List Text) : Text :=
  if written.isEmpty then "void" else Text.join ", " written

/-- A text that an array or a function is written behind: that of a pointer is put in parentheses. -/
def enclose (layers : List Layer) (text : Text) : Text :=
  match layers with
  | .pointer _ :: _ => "(" ++ text ++ ")"
  | _ => text

/-- The text around a name, given its layers from the outermost inwards. -/
def wrap (name : Text) : List Layer → Text
  | [] => name
  | .pointer qualifiers :: inner => pointerPart qualifiers (wrap name inner)
  | .array length :: inner => enclose inner (wrap name inner) ++ "[" ++ lengthText length ++ "]"
  | .function written :: inner => enclose inner (wrap name inner) ++ "(" ++ parameterList written ++ ")"

/-- The text around a name before a type is written outside of its layers. -/
def around (name : Text) (outer : List Layer) (t : CType) : Text :=
  if t.unqualified.isSuffixed then enclose outer (wrap name outer) else wrap name outer

theorem cons_reverse (layer : Layer) (s : Spine) (outer : List Layer) :
    (s.cons layer).layers.reverse ++ outer = s.layers.reverse ++ layer :: outer := by
  rw [Spine.cons, List.reverse_cons, List.append_assoc, List.singleton_append]

theorem split_eq (name : Text) : ∀ (t : CType) (qualifiers : List Text) (outer : List Layer),
    split qualifiers (around name outer t) t =
      (Text.join " " ((spine qualifiers t).qualifiers ++ [(spine qualifiers t).atom]),
        wrap name ((spine qualifiers t).layers.reverse ++ outer))
  | qualified base const volatile, qualifiers, outer => by
    rw [split, spine]
    exact split_eq name base _ outer
  | pointer target, qualifiers, outer => by
    rw [split, spine, cons_reverse]
    exact split_eq name target [] (.pointer qualifiers :: outer)
  -- what is written behind an array or a function is not put in parentheses again
  | array element length, qualifiers, outer => by
    have hsuffix : around name (.array length :: outer) element = wrap name (.array length :: outer) := ite_self _
    have h := split_eq name element [] (.array length :: outer)
    rw [hsuffix] at h
    rw [split, spine, cons_reverse]
    exact h
  | function result parameters variadic, qualifiers, outer => by
    have hsuffix : around name (.function (writtenParameters parameters variadic) :: outer) result =
      wrap name (.function (writtenParameters parameters variadic) :: outer) := ite_self _
    have h := split_eq name result [] (.function (writtenParameters parameters variadic) :: outer)
    rw [hsuffix] at h
    rw [split, spine, cons_reverse]
    exact h
  | named _, _, _ => by rw [split, spine]; rfl
  | scalar _, _, _ => by rw [split, spine]; rfl
  | void, _, _ => by rw [split, spine]; rfl

/-- **A declaration is written from the spine of its type.** -/
theorem declare_eq (t : CType) (name : Text) :
    t.declare name = assemble (Text.join " " ((spine [] t).qualifiers ++ [(spine [] t).atom]))
      (wrap name (spine [] t).layers.reverse) := by
  have hname : around name [] t = name := ite_self _
  have h := split_eq name t [] []
  rw [hname, List.append_nil] at h
  rw [declare, h]

/-! ## Parts of layers -/

/-- The words that a type's qualifiers are written with. -/
def IsQualifier (w : Text) : Prop := w = "const" ∨ w = "volatile"

instance (w : Text) : Decidable (IsQualifier w) := inferInstanceAs (Decidable (_ ∨ _))

/-- The text of a parameter, which never starts as a pointer does. -/
structure IsParameter (t : Text) : Prop where
  item : Item t
  start : t.head? ≠ some (.char '*')

/-- The layer can stand in a declarator; a list of nothing but `void` is how an empty one is written. -/
def Layer.Proper : Layer → Prop
  | pointer qualifiers => ∀ w ∈ qualifiers, IsQualifier w
  | array _ => True
  | function written => (∀ t ∈ written, IsParameter t) ∧ written ≠ ["void"]

/-- The name is an identifier or empty. -/
def IsName (name : Text) : Prop := ∀ g ∈ name, g.isWord = true

instance (name : Text) : Decidable (IsName name) := inferInstanceAs (Decidable (∀ g ∈ name, g.isWord = true))

variable {name t u : Text} {l l' : List Layer} {q q' : List Text}

theorem item_void : Item "void" := item_of_plain (by decide)

theorem parameterList_nested (h : ∀ t ∈ q, IsParameter t) : Nested (parameterList q) := by
  unfold parameterList
  split
  · exact item_void.toNested
  · exact Item.join fun t ht => (h t ht).item

theorem parameterList_head (h : ∀ t ∈ q, IsParameter t) : (parameterList q).head? ≠ some (.char '*') := by
  unfold parameterList
  cases q with
  | nil => decide
  | cons t q =>
    have ht := (h t List.mem_cons_self).start
    cases q with
    | nil => exact ht
    | cons u q =>
      rw [List.isEmpty_cons, if_neg Bool.false_ne_true, join_cons_cons]
      cases t with
      | nil =>
        show some (Glyph.char ',') ≠ some (.char '*')
        decide
      | cons g t => exact ht

theorem parameterList_injective (h : (Layer.function q).Proper) (h' : (Layer.function q').Proper)
    (heq : parameterList q = parameterList q') : q = q' := by
  have hvoid : ∀ {q : List Text}, (Layer.function q).Proper → q ≠ [] → parameterList q ≠ "void" := by
    intro q h hne heq
    rw [parameterList, if_neg (by simpa using hne)] at heq
    exact h.2 (join_items (fun t ht => (h.1 t ht).item) (by simpa using item_void) hne (by simp) heq)
  by_cases hq : q = []
  · by_cases hq' : q' = []
    · rw [hq, hq']
    · exact absurd heq.symm (by rw [hq]; exact hvoid h' hq')
  · by_cases hq' : q' = []
    · exact absurd heq (by rw [hq']; exact hvoid h hq)
    · rw [parameterList, parameterList, if_neg (by simpa using hq), if_neg (by simpa using hq')] at heq
      exact join_items (fun t ht => (h.1 t ht).item) (fun t ht => (h'.1 t ht).item) hq hq' heq

theorem not_mem_lengthText {g : Glyph} (h : g.isAsciiDigit = false) (hminus : g ≠ .char '-')
    (length : Option Int) : g ∉ lengthText length := by
  have hnatural : ∀ n, g ∉ natural n := fun n hg => by
    have := natural_digits n g hg
    rw [h] at this
    exact Bool.false_ne_true this
  cases length with
  | none => exact List.not_mem_nil
  | some n =>
    show g ∉ decimal n
    unfold decimal
    split
    · intro hg
      rcases List.mem_append.1 hg with hg | hg
      · exact hminus (List.mem_singleton.1 hg)
      · exact hnatural _ hg
    · exact hnatural _

theorem decimal_injective {m n : Int} (h : decimal m = decimal n) : m = n := by
  have hminus : ∀ k l : Nat, ("-" ++ natural k : Text) ≠ natural l := fun k l h => by
    have hmem : Glyph.char '-' ∈ natural l := h ▸ List.mem_cons_self
    exact absurd (natural_digits l _ hmem) (by decide)
  unfold decimal at h
  by_cases hm : m < 0 <;> by_cases hn : n < 0
  · rw [if_pos hm, if_pos hn] at h
    have := natural_injective (List.append_cancel_left h)
    omega
  · rw [if_pos hm, if_neg hn] at h
    exact absurd h (hminus _ _)
  · rw [if_neg hm, if_pos hn] at h
    exact absurd h.symm (hminus _ _)
  · rw [if_neg hm, if_neg hn] at h
    have := natural_injective h
    omega

theorem decimal_ne_nil (n : Int) : decimal n ≠ [] := by
  unfold decimal natural
  split
  · exact List.cons_ne_nil _ _
  · rw [ne_eq, List.map_eq_nil_iff]
    exact Nat.toDigits_ne_nil

theorem lengthText_injective {m n : Option Int} (h : lengthText m = lengthText n) : m = n := by
  cases m with
  | none =>
    cases n with
    | none => rfl
    | some n => exact absurd h.symm (decimal_ne_nil n)
  | some m =>
    cases n with
    | none => exact absurd h (decimal_ne_nil m)
    | some n => exact congrArg some (decimal_injective h)

/-! ## Where a text starts and ends -/

/-- The text does not end in white space. -/
def Trimmed (t : Text) : Prop := ∀ g ∈ t.getLast?, g.isSpace = false

theorem Trimmed.append (hne : u ≠ []) (h : Trimmed u) : Trimmed (t ++ u) := by
  intro g hg
  rw [List.getLast?_append_of_ne_nil _ hne] at hg
  exact h g hg

theorem Trimmed.stripEnd (h : Trimmed t) : stripEnd t = t := by
  have hnone : ∀ g ∈ ([] : Text), g.isSpace = true := nofun
  have hstrip := trimEnd_append hnone h
  rwa [List.append_nil] at hstrip

theorem stripEnd_trimmed (t : Text) : Trimmed (stripEnd t) := by
  intro g hg
  rw [stripEnd, trimEnd, List.getLast?_reverse] at hg
  have hnot := List.head?_dropWhile_not Glyph.isSpace t.reverse
  rw [hg] at hnot
  simpa using hnot

theorem IsQualifier.trimmed {w : Text} (h : IsQualifier w) : w ≠ [] ∧ Trimmed w := by
  rcases h with rfl | rfl
  · exact ⟨by decide, by unfold Trimmed; decide⟩
  · exact ⟨by decide, by unfold Trimmed; decide⟩

/-- A joined text ends with its last part. -/
theorem join_last (hne : q ≠ []) : ∃ front, ∃ w ∈ q, Text.join " " q = front ++ w := by
  induction q with
  | nil => exact absurd rfl hne
  | cons w q ih =>
    cases q with
    | nil => exact ⟨[], w, List.mem_cons_self, rfl⟩
    | cons w' q =>
      obtain ⟨front, x, hx, h⟩ := ih (List.cons_ne_nil _ _)
      exact ⟨w ++ " " ++ front, x, List.mem_cons_of_mem w hx, by rw [Text.join, h, ← List.append_assoc]⟩

theorem join_concat (hne : q ≠ []) (t : Text) : Text.join " " (q ++ [t]) = Text.join " " q ++ " " ++ t := by
  induction q with
  | nil => exact absurd rfl hne
  | cons w q ih =>
    cases q with
    | nil => rfl
    | cons w' q =>
      have h := ih (List.cons_ne_nil _ _)
      rw [List.cons_append] at h
      rw [List.cons_append, List.cons_append, Text.join, h, Text.join]
      simp only [List.append_assoc]

/-- A text as a part of a list of words, which an empty one is not. -/
def asPart (t : Text) : List Text := if t.isEmpty then [] else [t]

/-- **A pointer's text** is a star in front of its qualifiers and of the text inside. -/
theorem pointerPart_eq (hq : (Layer.pointer q).Proper) (ht : Trimmed t) :
    pointerPart q t = .char '*' :: Text.join " " (q ++ asPart t) := by
  unfold pointerPart asPart
  cases q with
  | nil =>
    cases t with
    | nil => rfl
    | cons g t => rfl
  | cons w q =>
    rw [List.isEmpty_cons, if_neg Bool.false_ne_true]
    obtain ⟨front, x, hx, hjoin⟩ := join_last (List.cons_ne_nil w q)
    have hlast := (hq x hx).trimmed
    cases t with
    | nil =>
      rw [List.isEmpty_nil, if_pos rfl, List.append_nil, List.append_nil]
      have hend : Trimmed ("*" ++ Text.join " " (w :: q)) := by
        rw [hjoin, ← List.append_assoc]
        exact hlast.2.append hlast.1
      exact trimEnd_append (by decide) hend
    | cons g t =>
      rw [List.isEmpty_cons, if_neg Bool.false_ne_true, join_concat (List.cons_ne_nil w q)]
      have hend : Trimmed ("*" ++ Text.join " " (w :: q) ++ " " ++ g :: t) := ht.append (List.cons_ne_nil g t)
      rw [hend.stripEnd]
      simp only [List.append_assoc]
      rfl

theorem wrap_trimmed (hname : IsName name) : ∀ l : List Layer, Trimmed (wrap name l)
  | [] => fun g hg => by
    rw [Bool.eq_false_iff]
    intro hspace
    have hword := hname g (List.mem_of_getLast? hg)
    rw [not_isWord_of_isSpace hspace] at hword
    exact Bool.false_ne_true hword
  | .pointer q :: l => by
    rw [wrap, pointerPart]
    split
    · cases hw : wrap name l with
      | nil => unfold Trimmed; decide
      | cons g t =>
        have h := wrap_trimmed hname l
        rw [hw] at h
        exact h.append (List.cons_ne_nil g t)
    · exact stripEnd_trimmed _
  | .array length :: l => Trimmed.append (by decide) (by unfold Trimmed; decide)
  | .function written :: l => Trimmed.append (by decide) (by unfold Trimmed; decide)

end TrapStub.CType
