import TrapStub.Proofs.CType.Layers
import TrapStub.Proofs.Text.Runs

/-!
# Reading a declarator

The text around a name shows its outermost layer at its ends, and taking that layer away leaves the
text of the layers inside. The name is known, so a word in front of a text is told from a qualifier.

* `CType.qualifiers_unique`: qualifiers are read off the text that they stand in front of.
* `CType.sign_wrap`: the outermost layer shows.
* `CType.wrap_injective`: **the layers are read off the text around the name.**
-/

namespace TrapStub.CType

open Text

variable {name t u : Text} {l l' : List Layer} {q q' : List Text}

/-! ## The word in front -/

theorem startsApart_nil : StartsApart [] := nofun

theorem startsApart_cons {g : Glyph} (hg : g.isWord = false) : StartsApart (g :: t) := by
  intro x hx
  obtain rfl : g = x := Option.some.inj hx
  exact hg

/-- The text starts with the name or apart, and no space follows there. -/
structure Starts (name t : Text) : Prop where
  split : ∃ w rest, t = w ++ rest ∧ (w = name ∨ w = []) ∧ StartsApart rest ∧ rest.head? ≠ some (.char ' ')
  empty : t = [] → name = []

theorem Starts.append_cons {g : Glyph} (hg : g.isWord = false) (hspace : g ≠ .char ' ') (h : Starts name t) :
    Starts name (t ++ g :: u) := by
  obtain ⟨w, rest, rfl, hw, hrest, hhead⟩ := h.split
  refine ⟨⟨w, rest ++ g :: u, by rw [List.append_assoc], hw, ?_, ?_⟩, by simp⟩
  · cases rest with
    | nil => exact startsApart_cons hg
    | cons x rest => exact startsApart_cons (hrest x rfl)
  · cases rest with
    | nil => simpa using hspace
    | cons x rest => exact hhead

theorem starts_cons {g : Glyph} (hg : g.isWord = false) (hspace : g ≠ .char ' ') : Starts name (g :: t) :=
  ⟨⟨[], g :: t, rfl, Or.inr rfl, startsApart_cons hg, by simpa using hspace⟩, nofun⟩

theorem starts_name (name : Text) : Starts name name :=
  ⟨⟨name, [], by rw [List.append_nil], Or.inl rfl, startsApart_nil, nofun⟩, id⟩

theorem punctuation {c : Char} (h : c ∈ ['*', '(', ')', '[', ']', ' ', ',', '.']) : (Glyph.char c).isWord = false := by
  have hall : ['*', '(', ')', '[', ']', ' ', ',', '.'].all (fun c => isAsciiApart (.char c)) = true := by decide
  exact isWord_of_apart (List.all_eq_true.1 hall c h)

theorem wrap_pointer (hname : IsName name) (hq : (Layer.pointer q).Proper) (l : List Layer) :
    wrap name (.pointer q :: l) = .char '*' :: Text.join " " (q ++ asPart (wrap name l)) :=
  pointerPart_eq hq (wrap_trimmed hname l)

theorem wrap_array (name : Text) (length : Option Int) (l : List Layer) : wrap name (.array length :: l) =
    enclose l (wrap name l) ++ .char '[' :: (lengthText length ++ [.char ']']) := by
  rw [wrap, List.append_assoc, List.append_assoc]
  rfl

theorem wrap_function (name : Text) (written : List Text) (l : List Layer) :
    wrap name (.function written :: l) =
      enclose l (wrap name l) ++ .char '(' :: (parameterList written ++ [.char ')']) := by
  rw [wrap, List.append_assoc, List.append_assoc]
  rfl

theorem Starts.enclose (h : Starts name t) (l : List Layer) : Starts name (enclose l t) := by
  unfold CType.enclose
  split
  · exact starts_cons (punctuation (by decide)) (by decide)
  · exact h

theorem wrap_starts (hname : IsName name) : ∀ {l : List Layer}, (∀ x ∈ l, x.Proper) → Starts name (wrap name l)
  | [], _ => starts_name name
  | .pointer q :: l, hl => by
    rw [wrap_pointer hname (hl _ List.mem_cons_self)]
    exact starts_cons (punctuation (by decide)) (by decide)
  | .array length :: l, hl => by
    have h := wrap_starts hname fun x hx => hl x (List.mem_cons_of_mem _ hx)
    rw [wrap_array]
    exact (h.enclose l).append_cons (punctuation (by decide)) (by decide)
  | .function written :: l, hl => by
    have h := wrap_starts hname fun x hx => hl x (List.mem_cons_of_mem _ hx)
    rw [wrap_function]
    exact (h.enclose l).append_cons (punctuation (by decide)) (by decide)

theorem IsQualifier.isName {w : Text} (h : IsQualifier w) : IsName w := by
  rcases h with rfl | rfl
  · decide
  · decide

/-- The text does not start with a qualifier that a space follows. -/
def Unqualified (t : Text) : Prop := ∀ w rest, IsQualifier w → t ≠ w ++ .char ' ' :: rest

theorem Starts.unqualified (h : Starts name t) (hname : IsName name) : Unqualified t := by
  intro w rest hw ht
  obtain ⟨v, more, rfl, hv, hmore, hspace⟩ := h.split
  have hv : IsName v := by
    rcases hv with rfl | rfl
    · exact hname
    · nofun
  have hunique := run_unique hv hw.isName hmore (startsApart_cons (punctuation (by decide))) ht
  rw [hunique.2] at hspace
  exact hspace rfl

theorem Starts.name_ne_nil (h : Starts name t) (ht : IsQualifier t) : name ≠ [] := by
  obtain ⟨w, rest, hsplit, hw, hrest, -⟩ := h.split
  intro hname
  have hempty : w = [] := hw.elim (fun h => h.trans hname) id
  rw [hempty] at hsplit
  have htext : t ++ [] = [] ++ rest := by rw [List.append_nil, ← hsplit]
  have hnone : IsName [] := nofun
  have hunique := run_unique ht.isName hnone startsApart_nil hrest htext
  exact ht.trimmed.1 hunique.1

/-- What follows a word in a list of words. -/
theorem join_cons_eq (w : Text) (parts : List Text) :
    Text.join " " (w :: parts) = w ++ if parts = [] then [] else .char ' ' :: Text.join " " parts := by
  cases parts with
  | nil => rw [if_pos rfl, List.append_nil]; rfl
  | cons v parts =>
    rw [if_neg (List.cons_ne_nil _ _), Text.join, List.append_assoc]
    rfl

theorem startsApart_rest (parts : List Text) :
    StartsApart (if parts = [] then [] else .char ' ' :: Text.join " " parts) := by
  split
  · exact startsApart_nil
  · exact startsApart_cons (punctuation (by decide))

/-- **Qualifiers are read off** the text that they stand in front of. -/
theorem qualifiers_unique (hq : ∀ w ∈ q, IsQualifier w) (hq' : ∀ w ∈ q', IsQualifier w)
    (ht : Unqualified t) (hu : Unqualified u) (htu : IsQualifier t → u ≠ []) (hut : IsQualifier u → t ≠ [])
    (h : Text.join " " (q ++ asPart t) = Text.join " " (q' ++ asPart u)) : q = q' ∧ t = u := by
  have hpart : ∀ t : Text, Text.join " " (asPart t) = t := fun t => by cases t <;> rfl
  -- a list that starts with a qualifier is none that starts with a text inside
  have hfirst : ∀ {w : Text} {q : List Text} {t u : Text}, IsQualifier w → Unqualified u →
      (IsQualifier u → t ≠ []) → Text.join " " (w :: q ++ asPart t) ≠ u := by
    intro w q t u hw hu hut h
    rw [List.cons_append, join_cons_eq] at h
    split at h
    · next hnil =>
      have hempty : asPart t = [] := (List.append_eq_nil_iff.1 hnil).2
      rw [List.append_nil] at h
      refine hut (h ▸ hw) ?_
      unfold asPart at hempty
      split at hempty
      · next hnone => exact List.isEmpty_iff.1 hnone
      · exact absurd hempty (List.cons_ne_nil _ _)
    · exact hu w _ hw h.symm
  induction q generalizing q' with
  | nil =>
    cases q' with
    | nil => exact ⟨rfl, by rwa [List.nil_append, List.nil_append, hpart, hpart] at h⟩
    | cons w q' =>
      rw [List.nil_append, hpart] at h
      exact absurd h.symm (hfirst (hq' w List.mem_cons_self) ht htu)
  | cons w q ih =>
    cases q' with
    | nil =>
      rw [List.nil_append, hpart] at h
      exact absurd h (hfirst (hq w List.mem_cons_self) hu hut)
    | cons w' q' =>
      have hw := hq w List.mem_cons_self
      have hw' := hq' w' List.mem_cons_self
      rw [List.cons_append, List.cons_append, join_cons_eq, join_cons_eq] at h
      obtain ⟨rfl, hrest⟩ := run_unique hw.isName hw'.isName (startsApart_rest _) (startsApart_rest _) h
      have hjoin : Text.join " " (q ++ asPart t) = Text.join " " (q' ++ asPart u) := by
        split at hrest
        · next hnil =>
          split at hrest
          · next hnil' => rw [hnil, hnil']
          · exact absurd hrest.symm (List.cons_ne_nil _ _)
        · split at hrest
          · exact absurd hrest (List.cons_ne_nil _ _)
          · exact (List.cons.inj hrest).2
      obtain ⟨rfl, htu⟩ := ih (fun x hx => hq x (List.mem_cons_of_mem w hx))
        (fun x hx => hq' x (List.mem_cons_of_mem w hx)) hjoin
      exact ⟨rfl, htu⟩

/-! ## Reading the layers -/

theorem item_name (hname : IsName name) : Item name := by
  refine item_of_plain fun g hg => ?_
  have hword := hname g hg
  refine ⟨?_, ?_, ?_⟩ <;> rintro rfl <;> exact Bool.eq_false_iff.1 (punctuation (by decide)) hword

theorem item_lengthText (length : Option Int) : Item (lengthText length) := by
  refine item_of_plain fun g hg => ?_
  refine ⟨?_, ?_, ?_⟩ <;> rintro rfl <;> exact absurd hg (not_mem_lengthText (by decide) (by decide) length)

theorem item_join (hq : ∀ w ∈ q, Item w) : Item (Text.join " " q) := by
  induction q with
  | nil => exact item_of_plain nofun
  | cons w q ih =>
    have hrest := ih fun x hx => hq x (List.mem_cons_of_mem w hx)
    have hspace : Item (" " : Text) := item_of_plain (by decide)
    rw [join_cons_eq]
    refine (hq w List.mem_cons_self).append ?_
    split
    · exact item_of_plain nofun
    · exact hspace.append hrest

theorem item_asPart (ht : Item t) : ∀ w ∈ asPart t, Item w := by
  unfold asPart
  split
  · nofun
  · intro w hw
    rwa [List.mem_singleton.1 hw]

theorem item_enclose (ht : Item t) (l : List Layer) : Item (enclose l t) := by
  unfold CType.enclose
  split
  · exact ht.toNested.item_group
  · exact ht

theorem wrap_item (hname : IsName name) : ∀ {l : List Layer}, (∀ x ∈ l, x.Proper) → Item (wrap name l)
  | [], _ => item_name hname
  | .pointer q :: l, hl => by
    have h := wrap_item hname fun x hx => hl x (List.mem_cons_of_mem _ hx)
    have hq : (Layer.pointer q).Proper := hl _ List.mem_cons_self
    have hstar : Item ("*" : Text) := item_of_plain (by decide)
    have hparts : ∀ w ∈ q ++ asPart (wrap name l), Item w := by
      intro w hw
      rcases List.mem_append.1 hw with hw | hw
      · exact item_name (hq w hw).isName
      · exact item_asPart h w hw
    rw [wrap_pointer hname hq]
    exact hstar.append (item_join hparts)
  | .array length :: l, hl => by
    have h := wrap_item hname fun x hx => hl x (List.mem_cons_of_mem _ hx)
    have hopening : Item ("[" : Text) := item_of_plain (by decide)
    have hclosing : Item ("]" : Text) := item_of_plain (by decide)
    exact (((item_enclose h l).append hopening).append (item_lengthText length)).append hclosing
  | .function written :: l, hl => by
    have h := wrap_item hname fun x hx => hl x (List.mem_cons_of_mem _ hx)
    have hwritten : (Layer.function written).Proper := hl _ List.mem_cons_self
    rw [wrap_function]
    exact (item_enclose h l).append (parameterList_nested hwritten.1).item_group

/-- The glyph that shows the outermost layer of a text: a star in front, or what stands at its end. -/
def sign (t : Text) : Option Glyph :=
  if t.head? = some (.char '*') then some (.char '*') else t.getLast?.filter (!·.isWord)

def Layer.sign : Layer → Glyph
  | pointer _ => .char '*'
  | array _ => .char ']'
  | function _ => .char ')'

/-- What an array or a function is written behind does not start with a star. -/
theorem enclose_head (hname : IsName name) : ∀ l : List Layer,
    (enclose l (wrap name l)).head? ≠ some (.char '*')
  | [] => by
    intro h
    have hword := hname _ (List.mem_of_head? h)
    rw [punctuation (by decide)] at hword
    exact Bool.false_ne_true hword
  | .pointer q :: l => by
    show some (Glyph.char '(') ≠ some (.char '*')
    decide
  | .array length :: l => by
    show (wrap name (.array length :: l)).head? ≠ some (.char '*')
    rw [wrap_array, List.head?_append, ne_eq, Option.or_eq_some_iff]
    rintro (h | ⟨-, h⟩)
    · exact enclose_head hname l h
    · exact absurd (Option.some.inj h) (by decide)
  | .function written :: l => by
    show (wrap name (.function written :: l)).head? ≠ some (.char '*')
    rw [wrap_function, List.head?_append, ne_eq, Option.or_eq_some_iff]
    rintro (h | ⟨-, h⟩)
    · exact enclose_head hname l h
    · exact absurd (Option.some.inj h) (by decide)

theorem sign_append {g : Glyph} (hhead : t.head? ≠ some (.char '*')) (hlast : t.getLast? = some g)
    (hg : g.isWord = false) : sign t = some g := by
  rw [sign, if_neg hhead, hlast, Option.filter_some, hg]
  rfl

/-- **The outermost layer shows.** -/
theorem sign_wrap (hname : IsName name) {l : List Layer} (hl : ∀ x ∈ l, x.Proper) :
    sign (wrap name l) = l.head?.map Layer.sign := by
  match l with
  | [] =>
    have hhead := enclose_head hname []
    have hlast : (name.getLast?).filter (!·.isWord) = none := by
      rw [Option.filter_eq_none_iff]
      intro g hg
      rw [hname g (List.mem_of_getLast? hg)]
      exact Bool.false_ne_true
    exact (if_neg hhead).trans hlast
  | .pointer q :: l =>
    rw [wrap_pointer hname (hl _ List.mem_cons_self)]
    rfl
  | .array length :: l =>
    refine sign_append (enclose_head hname (.array length :: l)) ?_ (punctuation (by decide))
    rw [wrap, List.getLast?_append]
    rfl
  | .function written :: l =>
    refine sign_append (enclose_head hname (.function written :: l)) ?_ (punctuation (by decide))
    rw [wrap, List.getLast?_append]
    rfl

/-- What stands in front of the last of some glyph is unique. -/
theorem last_unique {g : Glyph} {a a' b b' : Text} (hb : g ∉ b) (hb' : g ∉ b') (h : a ++ g :: b = a' ++ g :: b') :
    a = a' ∧ b = b' := by
  have hlonger : ∀ {a a' b b' c : Text}, g ∉ b → a' = a ++ c → g :: b = c ++ g :: b' → a = a' ∧ b = b' := by
    intro a a' b b' c hb hc h
    cases c with
    | nil => exact ⟨by rw [hc, List.append_nil], (List.cons.inj h).2⟩
    | cons x c =>
      have hmem : g ∈ c ++ g :: b' := List.mem_append_right c List.mem_cons_self
      exact absurd ((List.cons.inj h).2 ▸ hmem) hb
  rcases List.append_eq_append_iff.1 h with ⟨c, hc, h⟩ | ⟨c, hc, h⟩
  · exact hlonger hb hc h
  · obtain ⟨h1, h2⟩ := hlonger hb' hc h
    exact ⟨h1.symm, h2.symm⟩

/-- A pointer's text in parentheses is not what stands around a name. -/
theorem enclosed_ne_wrap (hname : IsName name) (hl : ∀ x ∈ l, x.Proper) (hstar : t.head? = some (.char '*'))
    (ht : Nested t) : .char '(' :: (t ++ [.char ')']) ≠ wrap name l := by
  intro h
  have hsign : sign (wrap name l) = some (.char ')') := by
    rw [← h]
    refine sign_append ?_ ?_ (punctuation (by decide))
    · show some (Glyph.char '(') ≠ some (.char '*')
      decide
    · rw [← List.cons_append, List.getLast?_concat]
  rw [sign_wrap hname hl] at hsign
  match l with
  | [] => exact absurd hsign nofun
  | .pointer q :: l => exact absurd (Option.some.inj hsign) (by simp [Layer.sign])
  | .array length :: l => exact absurd (Option.some.inj hsign) (by simp [Layer.sign])
  | .function written :: l =>
    have hwritten : (Layer.function written).Proper := hl _ List.mem_cons_self
    rw [wrap_function] at h
    obtain ⟨-, hparameters⟩ := group_unique (a := []) ht (parameterList_nested hwritten.1) h
    exact parameterList_head hwritten.1 (hparameters ▸ hstar)

theorem enclose_injective (hname : IsName name) (hl : ∀ x ∈ l, x.Proper) (hl' : ∀ x ∈ l', x.Proper)
    (h : enclose l (wrap name l) = enclose l' (wrap name l')) : wrap name l = wrap name l' := by
  have hstar : ∀ {q : List Text} {l : List Layer}, (∀ x ∈ Layer.pointer q :: l, x.Proper) →
      (wrap name (.pointer q :: l)).head? = some (.char '*') := by
    intro q l hl
    rw [wrap_pointer hname (hl _ List.mem_cons_self)]
    rfl
  unfold enclose at h
  split at h
  · split at h
    · exact List.append_cancel_left (List.append_cancel_right h)
    · exact absurd h (enclosed_ne_wrap hname hl' (hstar hl) (wrap_item hname hl).toNested)
  · split at h
    · exact absurd h.symm (enclosed_ne_wrap hname hl (hstar hl') (wrap_item hname hl').toNested)
    · exact h

/-- **The layers are read off the text around the name.** -/
theorem wrap_injective (hname : IsName name) : ∀ {l l' : List Layer}, (∀ x ∈ l, x.Proper) →
    (∀ x ∈ l', x.Proper) → wrap name l = wrap name l' → l = l' := by
  intro l
  induction l with
  | nil =>
    intro l' hl hl' h
    have hsign := sign_wrap hname hl'
    rw [← h, sign_wrap hname hl] at hsign
    cases l' with
    | nil => rfl
    | cons x l' => exact absurd hsign nofun
  | cons x l ih =>
    intro l' hl hl' h
    have hsign := sign_wrap hname hl'
    rw [← h, sign_wrap hname hl] at hsign
    cases l' with
    | nil => exact absurd hsign nofun
    | cons y l' =>
      have hsign : x.sign = y.sign := Option.some.inj hsign
      have hrest : ∀ z ∈ l, z.Proper := fun z hz => hl z (List.mem_cons_of_mem x hz)
      have hrest' : ∀ z ∈ l', z.Proper := fun z hz => hl' z (List.mem_cons_of_mem y hz)
      have hx := hl x List.mem_cons_self
      have hy := hl' y List.mem_cons_self
      cases x with
      | pointer q =>
        cases y with
        | pointer q' =>
          rw [wrap_pointer hname hx, wrap_pointer hname hy] at h
          have hstarts := wrap_starts hname hrest
          have hstarts' := wrap_starts hname hrest'
          -- a text inside is a qualifier only where the name is one
          obtain ⟨rfl, hinner⟩ := qualifiers_unique hx hy (hstarts.unqualified hname) (hstarts'.unqualified hname)
            (fun hq hnil => hstarts.name_ne_nil hq (hstarts'.empty hnil))
            (fun hq hnil => hstarts'.name_ne_nil hq (hstarts.empty hnil)) (List.cons.inj h).2
          rw [ih hrest hrest' hinner]
        | array n => exact absurd hsign (by simp [Layer.sign])
        | function w => exact absurd hsign (by simp [Layer.sign])
      | array n =>
        cases y with
        | pointer q => exact absurd hsign (by simp [Layer.sign])
        | array n' =>
          rw [wrap_array, wrap_array, ← List.cons_append, ← List.cons_append, ← List.append_assoc,
            ← List.append_assoc] at h
          have hbracket := not_mem_lengthText (g := .char '[') (by decide) (by decide)
          obtain ⟨henclosed, hlength⟩ := last_unique (hbracket n) (hbracket n') (List.append_cancel_right h)
          rw [lengthText_injective hlength, ih hrest hrest' (enclose_injective hname hrest hrest' henclosed)]
        | function w => exact absurd hsign (by simp [Layer.sign])
      | function w =>
        cases y with
        | pointer q => exact absurd hsign (by simp [Layer.sign])
        | array n => exact absurd hsign (by simp [Layer.sign])
        | function w' =>
          rw [wrap_function, wrap_function] at h
          obtain ⟨henclosed, hlist⟩ := group_unique (parameterList_nested hx.1) (parameterList_nested hy.1) h
          rw [parameterList_injective hx hy hlist, ih hrest hrest' (enclose_injective hname hrest hrest' henclosed)]

end TrapStub.CType
