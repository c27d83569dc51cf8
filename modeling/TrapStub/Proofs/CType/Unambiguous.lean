import TrapStub.Proofs.CType.Reading

/-!
# Declarations are unambiguous

A declaration shows its type up to what C does not tell apart: qualifiers that stand over one another
are one set, and an atom is no more than its spelling. The types are those that a declarator has a
place for everything of.

* `CType.merged`: the type that a declaration shows.
* `CType.Legible`: no qualifier stands over an array or a function, every atom is a run of words, and
  the lists of parameters are as some condition asks.
* `CType.declare_unambiguous`: **declarations of one name with one text show one type**, if no list of
  parameters reads as an empty one. That functions return no functions or arrays, and that arrays hold
  no functions, is not needed.
* `CType.declare_void_ambiguous`: a parameter of a type that is called `void` makes its list read so.
-/

namespace TrapStub.CType

open Text

/-- The type with the given qualifiers, if any, over it. -/
def withQualifiers (const volatile : Bool) (t : CType) : CType :=
  if const || volatile then qualified t const volatile else t

mutual

/-- What a type under some qualifiers comes to: those that stand over one another are one set, which is
dropped where it is empty, and an atom is its spelling. -/
def merge (const volatile : Bool) : CType → CType
  | qualified base c v => merge (const || c) (volatile || v) base
  | pointer target => withQualifiers const volatile (pointer (merge false false target))
  | array element length => withQualifiers const volatile (array (merge false false element) length)
  | function result parameters variadic =>
    withQualifiers const volatile (function (merge false false result) (mergeAll parameters) variadic)
  | named key => withQualifiers const volatile (named key)
  | scalar type => withQualifiers const volatile (named type.spelling)
  | void => withQualifiers const volatile (named "void")

def mergeAll : List CType → List CType
  | [] => []
  | t :: rest => merge false false t :: mergeAll rest

end

/-- The type that a declaration shows. -/
def merged (t : CType) : CType := merge false false t

/-- A text of one or more words, of which none is a qualifier. -/
def IsAtom (t : Text) : Prop :=
  ∃ words : List Text, words ≠ [] ∧ (∀ w ∈ words, w ≠ [] ∧ IsName w ∧ ¬ IsQualifier w) ∧ t = Text.join " " words

mutual

/-- A declarator has a place for everything of the type, and its lists of parameters are as `listed` asks,
which is also told whether further parameters may follow. -/
def Legible (listed : List CType → Bool → Prop) : CType → Prop
  | qualified base _ _ => base.isSuffixed = false ∧ Legible listed base
  | pointer target => Legible listed target
  | array element _ => Legible listed element
  | function result parameters variadic =>
    Legible listed result ∧ AllLegible listed parameters ∧ listed parameters variadic
  | named key => IsAtom key
  | scalar type => IsAtom type.spelling
  | void => True

def AllLegible (listed : List CType → Bool → Prop) : List CType → Prop
  | [] => True
  | t :: rest => Legible listed t ∧ AllLegible listed rest

end

/-- No parameter is `void` itself. -/
def NoneVoid (parameters : List CType) (_ : Bool) : Prop := void ∉ parameters

/-- The list is not one parameter that comes to `void`, under whatever spelling: an empty list is written so. -/
def ReadsApart (parameters : List CType) (variadic : Bool) : Prop :=
  variadic = false → mergeAll parameters ≠ [named "void"]

variable {name atom t u : Text} {q q' : List Text}

/-! ## Words -/

/-- The glyph is of a word or stands between two of them. -/
def isPlain (g : Glyph) : Bool := g.isWord || g = .char ' '

theorem isPlain_space : isPlain (.char ' ') = true := Bool.or_true _

theorem isPlain_eq_false {g : Glyph} (hg : isAsciiApart g = true) (hspace : g ≠ .char ' ') : isPlain g = false := by
  rw [isPlain, isWord_of_apart hg, Bool.false_or, decide_eq_false hspace]

/-- A text of words with spaces between them. -/
structure Words (t : Text) : Prop where
  plain : ∀ g ∈ t, isPlain g = true
  first : ∃ g, t.head? = some g ∧ g.isWord = true
  trimmed : Trimmed t

theorem IsName.words (h : IsName t) (hne : t ≠ []) : Words t := by
  refine ⟨fun g hg => by rw [isPlain, h g hg]; rfl, ?_, wrap_trimmed h []⟩
  obtain ⟨g, rest, rfl⟩ := List.exists_cons_of_ne_nil hne
  exact ⟨g, rfl, h g List.mem_cons_self⟩

theorem Words.ne_nil (h : Words t) : t ≠ [] := by
  rintro rfl
  obtain ⟨g, hg, -⟩ := h.first
  exact absurd hg nofun

theorem words_join (hne : q ≠ []) (hq : ∀ w ∈ q, Words w) : Words (Text.join " " q) := by
  induction q with
  | nil => exact absurd rfl hne
  | cons w q ih =>
    have hw := hq w List.mem_cons_self
    rw [join_cons_eq]
    split
    · rwa [List.append_nil]
    · next hrest =>
      have hjoin := ih hrest fun x hx => hq x (List.mem_cons_of_mem w hx)
      refine ⟨fun g hg => ?_, ?_, ?_⟩
      · rcases List.mem_append.1 hg with hg | hg
        · exact hw.plain g hg
        · rcases List.mem_cons.1 hg with rfl | hg
          · exact isPlain_space
          · exact hjoin.plain g hg
      · obtain ⟨g, hg, hword⟩ := hw.first
        exact ⟨g, by rw [List.head?_append, hg]; rfl, hword⟩
      · exact Trimmed.append (List.cons_ne_nil _ _) (Trimmed.append (t := [.char ' ']) hjoin.ne_nil hjoin.trimmed)

theorem IsAtom.words (h : IsAtom t) : Words t := by
  obtain ⟨words, hne, hwords, rfl⟩ := h
  exact words_join hne fun w hw => (hwords w hw).2.1.words (hwords w hw).1

theorem IsAtom.unqualified (h : IsAtom t) : Unqualified t := by
  obtain ⟨words, hne, hwords, rfl⟩ := h
  intro w rest hw ht
  obtain ⟨v, more, rfl⟩ := List.exists_cons_of_ne_nil hne
  have hv := hwords v List.mem_cons_self
  have hspace : StartsApart (.char ' ' :: rest) := startsApart_cons (punctuation (by decide))
  rw [join_cons_eq] at ht
  have hvw := (run_unique hv.2.1 hw.isName (startsApart_rest more) hspace ht).1
  exact hv.2.2 (hvw ▸ hw)

theorem isAtom_void : IsAtom "void" := ⟨["void"], by decide, by decide, rfl⟩

/-! ## What is written first -/

/-- The spine of a type that can be read. -/
structure Spine.Proper (s : Spine) : Prop where
  layers : ∀ l ∈ s.layers, l.Proper
  qualifiers : ∀ w ∈ s.qualifiers, IsQualifier w
  atom : IsAtom s.atom

theorem first_words (hq : ∀ w ∈ q, IsQualifier w) (hatom : IsAtom atom) :
    Words (Text.join " " (q ++ [atom])) := by
  refine words_join (by simp) fun w hw => ?_
  rcases List.mem_append.1 hw with hw | hw
  · exact (hq w hw).isName.words (hq w hw).trimmed.1
  · rw [List.mem_singleton.1 hw]
    exact hatom.words

theorem assemble_eq (hne : u ≠ []) : assemble t u = t ++ .char ' ' :: u := by
  obtain ⟨g, u, rfl⟩ := List.exists_cons_of_ne_nil hne
  rw [assemble, List.isEmpty_cons, if_neg Bool.false_ne_true, List.append_assoc]
  rfl

/-- The longest plain run at the start of a declaration ends with the name, or in front of it. -/
theorem assemble_run {first inner : Text} (hname : IsName name) (hfirst : Words first)
    (hinner : Starts name inner) (hne : inner ≠ []) :
    ∃ w rest, inner = w ++ rest ∧ (w = name ∨ w = []) ∧ assemble first inner = (first ++ .char ' ' :: w) ++ rest ∧
      (∀ g ∈ first ++ .char ' ' :: w, isPlain g = true) ∧ ∀ g ∈ rest.head?, isPlain g = false := by
  obtain ⟨w, rest, rfl, hw, hrest, hspace⟩ := hinner.split
  refine ⟨w, rest, rfl, hw, ?_, fun g hg => ?_, fun g hg => ?_⟩
  · rw [assemble_eq hne, List.append_assoc]
    rfl
  · rcases List.mem_append.1 hg with hg | hg
    · exact hfirst.plain g hg
    · rcases List.mem_cons.1 hg with rfl | hg
      · exact isPlain_space
      · rcases hw with rfl | rfl
        · rw [isPlain, hname g hg]
          rfl
        · exact absurd hg List.not_mem_nil
  · have hg' : g ≠ .char ' ' := fun h => hspace (h ▸ hg)
    rw [isPlain, hrest g hg, decide_eq_false hg']
    rfl

/-- **A declaration falls apart** into what is written first and what stands around the name. -/
theorem assemble_unique {first first' inner inner' : Text} (hname : IsName name) (hfirst : Words first)
    (hfirst' : Words first') (hinner : Starts name inner) (hinner' : Starts name inner')
    (h : assemble first inner = assemble first' inner') : first = first' ∧ inner = inner' := by
  -- without a name, a text that ends with what is written first has nothing behind it
  have hnone : ∀ {first first' inner : Text}, Words first → Words first' → name = [] → Starts name inner →
      inner ≠ [] → assemble first [] ≠ assemble first' inner := by
    intro first first' inner hfirst hfirst' hempty hinner hne h
    obtain ⟨w, rest, -, hw, hrun, hplain, hrest⟩ := assemble_run hname hfirst' hinner hne
    have hw : w = [] := hw.elim (fun h => h.trans hempty) id
    have htext : first ++ [] = (first' ++ .char ' ' :: w) ++ rest := by
      rw [List.append_nil, ← hrun, ← h]
      rfl
    have hend : ∀ g ∈ ([] : Text).head?, isPlain g = false := nofun
    have hsplit := run_unique hfirst.plain hplain hend hrest htext
    have htrimmed := hfirst.trimmed
    rw [hsplit.1, hw] at htrimmed
    exact absurd (htrimmed (.char ' ') (by simp)) (by decide)
  by_cases hi : inner = []
  · by_cases hi' : inner' = []
    · subst hi hi'
      exact ⟨h, rfl⟩
    · subst hi
      exact absurd h (hnone hfirst hfirst' (hinner.empty rfl) hinner' hi')
  · by_cases hi' : inner' = []
    · subst hi'
      exact absurd h.symm (hnone hfirst' hfirst (hinner'.empty rfl) hinner hi)
    · obtain ⟨w, rest, rfl, hw, hrun, hplain, hrest⟩ := assemble_run hname hfirst hinner hi
      obtain ⟨w', rest', rfl, hw', hrun', hplain', hrest'⟩ := assemble_run hname hfirst' hinner' hi'
      have hspace : ∀ {w : Text}, (w = name ∨ w = []) → Glyph.char ' ' ∉ w := by
        rintro w (rfl | rfl) hmem
        · have hword := hname _ hmem
          rw [punctuation (by decide)] at hword
          exact Bool.false_ne_true hword
        · exact List.not_mem_nil hmem
      obtain ⟨hfront, rfl⟩ := run_unique hplain hplain' hrest hrest' (by rw [← hrun, ← hrun', h])
      obtain ⟨rfl, rfl⟩ := last_unique (hspace hw) (hspace hw') hfront
      exact ⟨rfl, rfl⟩

/-- **The spine is read off a declaration.** -/
theorem spine_unique (hname : IsName name) {t u : CType} (ht : (spine [] t).Proper) (hu : (spine [] u).Proper)
    (h : t.declare name = u.declare name) : spine [] t = spine [] u := by
  rw [declare_eq, declare_eq] at h
  have hproper : ∀ {s : Spine}, s.Proper → ∀ l ∈ s.layers.reverse, l.Proper := fun hs l hl =>
    hs.layers l (List.mem_reverse.1 hl)
  have hpart : ∀ {s : Spine}, s.Proper → [s.atom] = asPart s.atom := by
    intro s hs
    obtain ⟨g, rest, hatom⟩ := List.exists_cons_of_ne_nil hs.atom.words.ne_nil
    rw [hatom]
    rfl
  obtain ⟨hfirst, hinner⟩ := assemble_unique hname (first_words ht.qualifiers ht.atom)
    (first_words hu.qualifiers hu.atom) (wrap_starts hname (hproper ht)) (wrap_starts hname (hproper hu)) h
  rw [hpart ht, hpart hu] at hfirst
  obtain ⟨hqualifiers, hatom⟩ := qualifiers_unique ht.qualifiers hu.qualifiers ht.atom.unqualified
    hu.atom.unqualified (fun _ => hu.atom.words.ne_nil) (fun _ => ht.atom.words.ne_nil) hfirst
  have hlayers := List.reverse_injective (wrap_injective hname (hproper ht) (hproper hu) hinner)
  exact Spine.ext hlayers hqualifiers hatom

/-! ## The type that a spine shows -/

/-- A type under some qualifiers, as a declaration shows it. -/
def shows (q : List Text) (t : CType) : CType :=
  merge (decide (("const" : Text) ∈ q)) (decide (("volatile" : Text) ∈ q)) t

/-- A type with some qualifiers, if any, over it. -/
def under (q : List Text) (t : CType) : CType :=
  withQualifiers (decide (("const" : Text) ∈ q)) (decide (("volatile" : Text) ∈ q)) t

theorem shows_qualified (q : List Text) (base : CType) (c v : Bool) :
    shows q (qualified base c v) = shows (q ++ qualifierWords c v) base := by
  have hconst : decide (("const" : Text) ∈ qualifierWords c v) = c := by
    cases c <;> cases v <;> decide
  have hvolatile : decide (("volatile" : Text) ∈ qualifierWords c v) = v := by
    cases c <;> cases v <;> decide
  unfold shows
  simp only [List.mem_append, Bool.decide_or, hconst, hvolatile]
  rw [merge]

theorem shows_atom : ∀ (t : CType) (q : List Text), (spine q t).layers = [] →
    shows q t = under (spine q t).qualifiers (named (spine q t).atom)
  | qualified base c v, q, h => by
    rw [spine] at h ⊢
    rw [shows_qualified]
    exact shows_atom base _ h
  | pointer _, _, h => absurd h (List.cons_ne_nil _ _)
  | array _ _, _, h => absurd h (List.cons_ne_nil _ _)
  | function _ _ _, _, h => absurd h (List.cons_ne_nil _ _)
  | named _, _, _ => by rw [shows, merge, spine]; rfl
  | scalar _, _, _ => by rw [shows, merge, spine]; rfl
  | void, _, _ => by rw [shows, merge, spine]; rfl

/-! ## Legible types have proper spines -/

theorem qualifierWords_qualifier {c v : Bool} : ∀ w ∈ qualifierWords c v, IsQualifier w := by
  cases c <;> cases v <;> decide

theorem declareAll_cons (t : CType) (rest : List CType) :
    declareAll (t :: rest) = t.declare [] :: declareAll rest := rfl

theorem isName_nil : IsName [] := nofun

theorem declare_head {t : CType} (ht : (spine [] t).Proper) (name : Text) :
    ∃ g, (t.declare name).head? = some g ∧ g.isWord = true := by
  obtain ⟨g, hg, hword⟩ := (first_words ht.qualifiers ht.atom).first
  refine ⟨g, ?_, hword⟩
  rw [declare_eq, assemble]
  split
  · exact hg
  · rw [List.append_assoc, List.head?_append, hg]
    rfl

theorem declare_item {t : CType} (ht : (spine [] t).Proper) : Item (t.declare []) := by
  have hfirst : Item (Text.join " " ((spine [] t).qualifiers ++ [(spine [] t).atom])) := by
    refine item_of_plain fun g hg => ?_
    have hplain := (first_words ht.qualifiers ht.atom).plain g hg
    refine ⟨?_, ?_, ?_⟩ <;> rintro rfl <;> exact Bool.eq_false_iff.1 (isPlain_eq_false (by decide) (by decide)) hplain
  have hspace : Item (" " : Text) := item_of_plain (by decide)
  have hinner : Item (wrap [] (spine [] t).layers.reverse) :=
    wrap_item isName_nil fun l hl => ht.layers l (List.mem_reverse.1 hl)
  rw [declare_eq, assemble]
  split
  · exact hfirst
  · exact (hfirst.append hspace).append hinner

theorem isParameter_dots : IsParameter "..." := ⟨item_of_plain (by decide), by decide⟩

theorem spine_void : (spine [] void).Proper := ⟨nofun, nofun, isAtom_void⟩

/-- A type that is written like `void` shows `void`. -/
theorem merged_of_declare_void {t : CType} (ht : (spine [] t).Proper) (h : t.declare [] = "void") :
    t.merged = named "void" := by
  have hspine := spine_unique isName_nil ht spine_void h
  have hshows := shows_atom t [] (by rw [hspine]; rfl)
  rw [hspine] at hshows
  exact hshows

/-- A parameter's text stands for no more than the parameter. -/
theorem declare_isParameter {t : CType} (ht : (spine [] t).Proper) :
    IsParameter (t.declare []) ∧ t.declare [] ≠ "..." := by
  obtain ⟨g, hg, hword⟩ := declare_head ht []
  have hne : ∀ c, c ∈ ['*', '(', ')', '[', ']', ' ', ',', '.'] → (t.declare []).head? ≠ some (.char c) := by
    intro c hc hhead
    rw [hg] at hhead
    rw [Option.some.inj hhead, punctuation hc] at hword
    exact Bool.false_ne_true hword
  exact ⟨⟨declare_item ht, hne '*' (by decide)⟩, fun hdots => hne '.' (by decide) (by rw [hdots]; rfl)⟩

theorem declareAll_eq_map (ps : List CType) : declareAll ps = ps.map (·.declare []) := by
  induction ps with
  | nil => rfl
  | cons p rest ih => rw [declareAll_cons, ih, List.map_cons]

/-- The texts of parameters, and of the dots behind them, can stand in a parameter list that reads apart. -/
theorem function_proper {ps : List CType} {variadic : Bool} (hps : ∀ p ∈ ps, (spine [] p).Proper)
    (hlisted : ReadsApart ps variadic) : (Layer.function (writtenParameters ps variadic)).Proper := by
  refine ⟨fun x hx => ?_, fun hvoid => ?_⟩
  · rcases List.mem_append.1 hx with hx | hx
    · rw [declareAll_eq_map] at hx
      obtain ⟨p, hp, rfl⟩ := List.mem_map.1 hx
      exact (declare_isParameter (hps p hp)).1
    · cases variadic with
      | false => exact absurd hx List.not_mem_nil
      | true =>
        rw [List.mem_singleton.1 hx]
        exact isParameter_dots
  · cases ps with
    | nil => cases variadic <;> exact absurd hvoid (by decide)
    | cons p rest =>
      obtain ⟨hp, hrest⟩ := List.cons.inj hvoid
      obtain ⟨hnone, hdots⟩ := List.append_eq_nil_iff.1 hrest
      have hvariadic : variadic = false := by
        cases variadic with
        | false => rfl
        | true => exact absurd hdots (List.cons_ne_nil _ _)
      obtain rfl : rest = [] := by
        cases rest with
        | nil => rfl
        | cons q rest => exact absurd hnone (List.cons_ne_nil _ _)
      -- the only parameter is written like the empty list
      have hmerged := merged_of_declare_void (hps p List.mem_cons_self) hp
      exact hlisted hvariadic (congrArg (fun t => [t]) hmerged)

mutual

theorem spine_proper : ∀ (t : CType) (q : List Text), t.Legible ReadsApart → (∀ w ∈ q, IsQualifier w) →
    (spine q t).Proper
  | qualified base c v, q, ht, hq => by
    rw [spine]
    refine spine_proper base _ ht.2 fun w hw => ?_
    rcases List.mem_append.1 hw with hw | hw
    · exact hq w hw
    · exact qualifierWords_qualifier w hw
  | pointer target, q, ht, hq => by
    have h := spine_proper target [] ht nofun
    rw [spine]
    exact ⟨List.forall_mem_cons.2 ⟨hq, h.layers⟩, h.qualifiers, h.atom⟩
  | array element length, q, ht, _ => by
    have h := spine_proper element [] ht nofun
    rw [spine]
    exact ⟨List.forall_mem_cons.2 ⟨trivial, h.layers⟩, h.qualifiers, h.atom⟩
  | function result parameters variadic, q, ht, _ => by
    have h := spine_proper result [] ht.1 nofun
    have hlayer := function_proper (parameters_proper parameters ht.2.1) ht.2.2
    rw [spine]
    exact ⟨List.forall_mem_cons.2 ⟨hlayer, h.layers⟩, h.qualifiers, h.atom⟩
  | named key, q, ht, hq => by
    rw [spine]
    exact ⟨nofun, hq, ht⟩
  | scalar type, q, ht, hq => by
    rw [spine]
    exact ⟨nofun, hq, ht⟩
  | void, q, ht, hq => by
    rw [spine]
    exact ⟨nofun, hq, isAtom_void⟩

theorem parameters_proper : ∀ ps : List CType, AllLegible ReadsApart ps → ∀ p ∈ ps, (spine [] p).Proper
  | [], _ => nofun
  | p :: rest, h => List.forall_mem_cons.2 ⟨spine_proper p [] h.1 nofun, parameters_proper rest h.2⟩

end

/-! ## The type is read off its spine -/

theorem cons_injective {l l' : Layer} {s s' : Spine} (h : s.cons l = s'.cons l') : l = l' ∧ s = s' := by
  have hlayers := List.cons.inj (congrArg Spine.layers h)
  have hqualifiers := congrArg Spine.qualifiers h
  have hatom := congrArg Spine.atom h
  exact ⟨hlayers.1, Spine.ext hlayers.2 hqualifiers hatom⟩

theorem writtenParameters_injective {ps ps' : List CType} {v v' : Bool} (hps : AllLegible ReadsApart ps)
    (hps' : AllLegible ReadsApart ps') (h : writtenParameters ps v = writtenParameters ps' v') :
    declareAll ps = declareAll ps' ∧ v = v' := by
  have hdots : ∀ {ps ps' : List CType}, AllLegible ReadsApart ps →
      writtenParameters ps false ≠ writtenParameters ps' true := by
    intro ps ps' hps h
    have hmem : ("..." : Text) ∈ writtenParameters ps false := by
      rw [h]
      exact List.mem_append_right _ (List.mem_singleton.2 rfl)
    rcases List.mem_append.1 hmem with hmem | hmem
    · rw [declareAll_eq_map] at hmem
      obtain ⟨p, hp, hdots⟩ := List.mem_map.1 hmem
      exact (declare_isParameter (parameters_proper ps hps p hp)).2 hdots
    · exact absurd hmem List.not_mem_nil
  cases v <;> cases v'
  · exact ⟨List.append_cancel_right h, rfl⟩
  · exact absurd h (hdots hps)
  · exact absurd h.symm (hdots hps')
  · exact ⟨List.append_cancel_right h, rfl⟩

/-- Every type comes to one without qualifiers on top, under those that it had. -/
theorem peel : ∀ (t : CType) (q : List Text), t.Legible ReadsApart → (t.isSuffixed = true → q = []) →
    ∃ core q', spine q t = spine q' core ∧ shows q t = shows q' core ∧ core.Legible ReadsApart ∧
      (core.isSuffixed = true → q' = []) ∧ ∀ base c v, core ≠ qualified base c v
  | qualified base c v, q, ht, _ => by
    rw [spine, shows_qualified]
    exact peel base _ ht.2 fun hbase => absurd hbase (by rw [ht.1]; exact Bool.false_ne_true)
  | pointer target, q, ht, hq => ⟨pointer target, q, rfl, rfl, ht, hq, nofun⟩
  | array element length, q, ht, hq => ⟨array element length, q, rfl, rfl, ht, hq, nofun⟩
  | function result ps v, q, ht, hq => ⟨function result ps v, q, rfl, rfl, ht, hq, nofun⟩
  | named key, q, ht, hq => ⟨named key, q, rfl, rfl, ht, hq, nofun⟩
  | scalar type, q, ht, hq => ⟨scalar type, q, rfl, rfl, ht, hq, nofun⟩
  | void, q, ht, hq => ⟨void, q, rfl, rfl, ht, hq, nofun⟩

theorem shows_of_no_layer {t u : CType} (ht : (spine q t).layers = []) (h : spine q t = spine q' u) :
    shows q t = shows q' u := by
  rw [shows_atom t q ht, shows_atom u q' (h ▸ ht), h]

mutual

theorem shows_unique : ∀ (t u : CType) (q q' : List Text), t.Legible ReadsApart → u.Legible ReadsApart →
    (t.isSuffixed = true → q = []) → (u.isSuffixed = true → q' = []) → spine q t = spine q' u →
    shows q t = shows q' u
  | qualified base c v, u, q, q', ht, hu, _, hq', h => by
    rw [spine] at h
    rw [shows_qualified]
    exact shows_unique base u _ q' ht.2 hu
      (fun hbase => absurd hbase (by rw [ht.1]; exact Bool.false_ne_true)) hq' h
  | pointer target, u, q, q', ht, hu, _, hq', h => by
    obtain ⟨core, q₀, hspine, hshows, hcore, hq₀, htop⟩ := peel u q' hu hq'
    rw [hspine] at h
    rw [hshows]
    cases core with
    | pointer target' =>
      obtain ⟨hlayer, hrest⟩ := cons_injective h
      have htarget := shows_unique target target' [] [] ht hcore (fun _ => rfl) (fun _ => rfl) hrest
      show under q (pointer (shows [] target)) = under q₀ (pointer (shows [] target'))
      rw [htarget, Layer.pointer.inj hlayer]
    | qualified base c v => exact absurd rfl (htop base c v)
    | array | function => exact absurd (cons_injective h).1 nofun
    | named | scalar | void => exact absurd (congrArg Spine.layers h) nofun
  | array element length, u, q, q', ht, hu, hq, hq', h => by
    obtain ⟨core, q₀, hspine, hshows, hcore, hq₀, htop⟩ := peel u q' hu hq'
    rw [hspine] at h
    rw [hshows]
    cases core with
    | array element' length' =>
      obtain ⟨hlayer, hrest⟩ := cons_injective h
      have helement := shows_unique element element' [] [] ht hcore (fun _ => rfl) (fun _ => rfl) hrest
      rw [hq rfl, hq₀ rfl]
      show array (shows [] element) length = array (shows [] element') length'
      rw [helement, Layer.array.inj hlayer]
    | qualified base c v => exact absurd rfl (htop base c v)
    | pointer | function => exact absurd (cons_injective h).1 nofun
    | named | scalar | void => exact absurd (congrArg Spine.layers h) nofun
  | function result ps v, u, q, q', ht, hu, hq, hq', h => by
    obtain ⟨core, q₀, hspine, hshows, hcore, hq₀, htop⟩ := peel u q' hu hq'
    rw [hspine] at h
    rw [hshows]
    cases core with
    | function result' ps' v' =>
      obtain ⟨hlayer, hrest⟩ := cons_injective h
      have hresult := shows_unique result result' [] [] ht.1 hcore.1 (fun _ => rfl) (fun _ => rfl) hrest
      obtain ⟨htexts, hvariadic⟩ := writtenParameters_injective ht.2.1 hcore.2.1 (Layer.function.inj hlayer)
      have hparameters := mergeAll_unique ps ps' ht.2.1 hcore.2.1 htexts
      rw [hq rfl, hq₀ rfl]
      show function (shows [] result) (mergeAll ps) v = function (shows [] result') (mergeAll ps') v'
      rw [hresult, hparameters, hvariadic]
    | qualified base c v => exact absurd rfl (htop base c v)
    | pointer | array => exact absurd (cons_injective h).1 nofun
    | named | scalar | void => exact absurd (congrArg Spine.layers h) nofun
  | named key, u, q, q', _, _, _, _, h => shows_of_no_layer rfl h
  | scalar type, u, q, q', _, _, _, _, h => shows_of_no_layer rfl h
  | void, u, q, q', _, _, _, _, h => shows_of_no_layer rfl h

theorem mergeAll_unique : ∀ ps ps' : List CType, AllLegible ReadsApart ps → AllLegible ReadsApart ps' →
    declareAll ps = declareAll ps' → mergeAll ps = mergeAll ps'
  | [], [], _, _, _ => rfl
  | [], _ :: _, _, _, h => absurd h nofun
  | _ :: _, [], _, _, h => absurd h nofun
  | p :: rest, p' :: rest', hp, hp', h => by
    obtain ⟨hfirst, hrest⟩ := List.cons.inj h
    have hspine := spine_unique isName_nil (spine_proper p [] hp.1 nofun) (spine_proper p' [] hp'.1 nofun) hfirst
    have hshows := shows_unique p p' [] [] hp.1 hp'.1 (fun _ => rfl) (fun _ => rfl) hspine
    show shows [] p :: mergeAll rest = shows [] p' :: mergeAll rest'
    rw [hshows, mergeAll_unique rest rest' hp.2 hp'.2 hrest]

end

/-- **Declarations of one name with one text show one type.** -/
theorem declare_unambiguous {t u : CType} (hname : IsName name) (ht : t.Legible ReadsApart)
    (hu : u.Legible ReadsApart) (h : t.declare name = u.declare name) : t.merged = u.merged := by
  have hspine := spine_unique hname (spine_proper t [] ht nofun) (spine_proper u [] hu nofun) h
  exact shows_unique t u [] [] ht hu (fun _ => rfl) (fun _ => rfl) hspine

theorem declare_unambiguous_handler :
    let handler (base : CType) : CType := pointer (function void [base, pointer (named "struct a")] false)
    let t := qualified (handler (scalar ⟨"uint8_t", 1, false, false⟩)) true true
    let u := qualified (qualified (handler (named "uint8_t")) false true) true false
    IsName "h" ∧ t.Legible ReadsApart ∧ u.Legible ReadsApart ∧ t.declare "h" = u.declare "h" ∧
      t.merged = u.merged := by
  intro handler t u
  have hname : IsName "h" := by decide
  have hbyte : IsAtom "uint8_t" := ⟨["uint8_t"], by decide, by decide, rfl⟩
  have hstruct : IsAtom "struct a" := ⟨["struct", "a"], by decide, by decide, rfl⟩
  have ht : t.Legible ReadsApart := ⟨rfl, trivial, ⟨hbyte, hstruct, trivial⟩, fun _ => nofun⟩
  have hu : u.Legible ReadsApart := ⟨rfl, rfl, trivial, ⟨hbyte, hstruct, trivial⟩, fun _ => nofun⟩
  have htexts : t.declare "h" = u.declare "h" := by decide
  exact ⟨hname, ht, hu, htexts, declare_unambiguous hname ht hu htexts⟩

/-- A function without parameters and one whose parameter has a type that is called `void`: no parameter is `void`
itself, and both are declared alike. -/
theorem declare_void_ambiguous :
    let int : CType := scalar ⟨"int", 4, true, false⟩
    let t := function int [] false
    let u := function int [named "void"] false
    IsName "f" ∧ int.isSuffixed = false ∧ t.Legible NoneVoid ∧ u.Legible NoneVoid ∧
      t.declare "f" = "int f(void)" ∧ u.declare "f" = "int f(void)" ∧ t.merged ≠ u.merged := by
  intro int t u
  have hint : IsAtom "int" := ⟨["int"], by decide, by decide, rfl⟩
  have ht : t.Legible NoneVoid := ⟨hint, trivial, List.not_mem_nil⟩
  have hu : u.Legible NoneVoid := ⟨hint, ⟨isAtom_void, trivial⟩, by unfold NoneVoid; simp⟩
  exact ⟨by decide, rfl, ht, hu, by decide, by decide, nofun⟩

end TrapStub.CType
