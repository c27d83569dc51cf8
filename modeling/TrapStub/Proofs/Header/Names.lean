import TrapStub.Proofs.Header.Spelling
import TrapStub.Proofs.Text.Identifiers

/-!
# The names in a written type

A declaration is written from keywords, punctuation, numbers and names. The names are those of the
types it mentions and, for an anonymous definition that is written with its body, those of its
members and enumerators. So an identifier that none of these holds does not occur in the text.

* `Speller.namesOf`, `Speller.innerNames`: the names of types, and those inside anonymous bodies.
* `CType.declare_avoids`: a declarator adds no unwanted identifier.
* `Speller.declare_avoids`: **neither does a declaration with its keys spelled.**
-/

namespace TrapStub

open Text

variable {unwanted : Text → Prop}

namespace CType

mutual

/-- The spellings of the arithmetic types in a type. -/
def spellings : CType → List Text
  | void => []
  | scalar type => [type.spelling]
  | pointer target => spellings target
  | named _ => []
  | array element _ => spellings element
  | function result parameters _ => spellings result ++ spellingsOfAll parameters
  | qualified base _ _ => spellings base

/-- The spellings of the arithmetic types in some types. -/
def spellingsOfAll : List CType → List Text
  | [] => []
  | t :: rest => spellings t ++ spellingsOfAll rest

end

theorem qualifierWords_avoids (hu : ∀ w, unwanted w → Glyph.char '_' ∈ w) (const volatile : Bool) :
    ∀ q ∈ qualifierWords const volatile, Avoids unwanted q := by
  intro q hq
  refine avoids_of_no_underscore hu ?_
  revert q
  cases const <;> cases volatile <;> decide

theorem pointerPart_avoids {qualifiers : List Text} {inner : Text}
    (hq : ∀ q ∈ qualifiers, Avoids unwanted q) (hi : Avoids unwanted inner) :
    Avoids unwanted (pointerPart qualifiers inner) := by
  unfold pointerPart
  split
  · exact hi.prepend (apart (by decide))
  · rw [List.append_assoc, List.append_assoc]
    refine Avoids.stripEnd (Avoids.prepend (apart (by decide)) ?_)
    rw [← List.append_assoc]
    have hwords : Avoids unwanted (Text.join " " qualifiers) :=
      Avoids.join (apart (by decide)) (by decide) hq
    exact hwords.append_append (apart (by decide)) (by decide) hi

/-- A text in parentheses or brackets behind another. -/
theorem enclosed_avoids {a b opening closing : Text} (ho : ∀ g ∈ opening, g.isWord = false)
    (hc : ∀ g ∈ closing, g.isWord = false) (hone : opening ≠ []) (hcne : closing ≠ [])
    (ha : Avoids unwanted a) (hb : Avoids unwanted b) :
    Avoids unwanted (a ++ opening ++ b ++ closing) := by
  have := (ha.append_append ho hone hb).append_append hc hcne avoids_nil
  rwa [List.append_nil] at this

theorem assemble_avoids {first inner : Text} (hf : Avoids unwanted first) (hi : Avoids unwanted inner) :
    Avoids unwanted (assemble first inner) := by
  unfold assemble
  split
  · exact hf
  · exact hf.append_append (apart (by decide)) (by decide) hi

/-- The first part of a declaration, the qualifiers in front of a name. -/
theorem first_avoids {qualifiers : List Text} {name : Text} (hq : ∀ q ∈ qualifiers, Avoids unwanted q)
    (hn : Avoids unwanted name) : Avoids unwanted (Text.join " " (qualifiers ++ [name])) := by
  refine Avoids.join (apart (by decide)) (by decide) fun part hp => ?_
  rcases List.mem_append.1 hp with hp | hp
  · exact hq part hp
  · rw [List.mem_singleton.1 hp]; exact hn

theorem parameterList_avoids (hu : ∀ w, unwanted w → Glyph.char '_' ∈ w) {written : List Text}
    (hw : ∀ part ∈ written, Avoids unwanted part) :
    Avoids unwanted (if written.isEmpty then ("void" : Text) else Text.join ", " written) := by
  split
  · exact avoids_of_no_underscore hu (by decide)
  · exact Avoids.join (apart (by decide)) (by decide) hw

mutual

/-- A declarator's two parts hold the identifiers of its names and of the text around the name. -/
theorem split_avoids (hu : ∀ w, unwanted w → Glyph.char '_' ∈ w) : ∀ (t : CType)
    (qualifiers : List Text) (inner : Text), (∀ s ∈ t.spellings, Avoids unwanted s) →
    (∀ key ∈ t.keys, Avoids unwanted key) → (∀ q ∈ qualifiers, Avoids unwanted q) →
    Avoids unwanted inner →
    Avoids unwanted (split qualifiers inner t).1 ∧ Avoids unwanted (split qualifiers inner t).2
  | .void, qualifiers, inner, _, _, hq, hi => by
    rw [split]
    exact ⟨first_avoids hq (avoids_of_no_underscore hu (by decide)), hi⟩
  | .scalar type, qualifiers, inner, hs, _, hq, hi => by
    rw [split]
    exact ⟨first_avoids hq (hs _ (by simp [spellings])), hi⟩
  | .named key, qualifiers, inner, _, hk, hq, hi => by
    rw [split]
    exact ⟨first_avoids hq (hk _ (by simp [keys])), hi⟩
  | .qualified base const volatile, qualifiers, inner, hs, hk, hq, hi => by
    rw [split]
    refine split_avoids hu base _ inner hs hk (fun q h => ?_) hi
    rcases List.mem_append.1 h with h | h
    · exact hq q h
    · exact qualifierWords_avoids hu const volatile q h
  -- a pointer to an array or function stands in parentheses
  | .pointer target, qualifiers, inner, hs, hk, hq, hi => by
    rw [split]
    refine split_avoids hu target [] _ hs hk (by simp) ?_
    have hp := pointerPart_avoids hq hi
    split
    · exact enclosed_avoids (a := []) (apart (by decide)) (apart (by decide)) (by decide)
        (by decide) avoids_nil hp
    · exact hp
  | .array element length, qualifiers, inner, hs, hk, hq, hi => by
    rw [split]
    refine split_avoids hu element [] _ hs hk (by simp) ?_
    refine enclosed_avoids (apart (by decide)) (apart (by decide)) (by decide) (by decide) hi ?_
    cases length with
    | none => exact avoids_nil
    | some n => exact avoids_of_no_underscore hu (underscore_not_mem_decimal n)
  | .function result parameters variadic, qualifiers, inner, hs, hk, hq, hi => by
    rw [split]
    have hs' := List.forall_mem_append.1 hs
    have hk' := List.forall_mem_append.1 hk
    -- the parameters are declared without names, each on its own
    have hall := declareAll_avoids hu parameters hs'.2 hk'.2
    refine split_avoids hu result [] _ hs'.1 hk'.1 (by simp) ?_
    refine enclosed_avoids (apart (by decide)) (apart (by decide)) (by decide) (by decide) hi ?_
    refine parameterList_avoids hu fun part hp => ?_
    rcases List.mem_append.1 hp with hp | hdots
    · exact hall part hp
    · cases variadic with
      | false => cases hdots
      | true =>
        rw [List.mem_singleton.1 hdots]
        exact avoids_of_no_underscore hu (by decide)

theorem declareAll_avoids (hu : ∀ w, unwanted w → Glyph.char '_' ∈ w) : ∀ ts : List CType,
    (∀ s ∈ spellingsOfAll ts, Avoids unwanted s) → (∀ key ∈ keysOfAll ts, Avoids unwanted key) →
    ∀ part ∈ declareAll ts, Avoids unwanted part
  | [], _, _ => by simp [declareAll]
  | t :: rest, hs, hk => by
    rw [declareAll]
    have hs' := List.forall_mem_append.1 hs
    have hk' := List.forall_mem_append.1 hk
    intro part hp
    rcases List.mem_cons.1 hp with rfl | hp
    · have ht := split_avoids hu t [] [] hs'.1 hk'.1 (by simp) avoids_nil
      exact assemble_avoids ht.1 ht.2
    · exact declareAll_avoids hu rest hs'.2 hk'.2 part hp

end

/-- **A declarator adds no unwanted identifier** to those of its names. -/
theorem declare_avoids (hu : ∀ w, unwanted w → Glyph.char '_' ∈ w) {t : CType} {name : Text}
    (hs : ∀ s ∈ t.spellings, Avoids unwanted s) (hk : ∀ key ∈ t.keys, Avoids unwanted key)
    (hn : Avoids unwanted name) : Avoids unwanted (t.declare name) := by
  have ht := split_avoids hu t [] name hs hk (by simp) hn
  exact assemble_avoids ht.1 ht.2

end CType

/-! ## Spelled keys -/

namespace CType

variable {f : Text → Except Fault Text}

mutual

/-- The names of a type with its keys replaced are its spellings and what its keys became. -/
theorem mapNames_avoids : ∀ {t t' : CType}, t.mapNames f = .ok t' →
    (∀ s ∈ t.spellings, Avoids unwanted s) →
    (∀ key ∈ t.keys, ∀ text, f key = .ok text → Avoids unwanted text) →
    (∀ s ∈ t'.spellings, Avoids unwanted s) ∧ ∀ key ∈ t'.keys, Avoids unwanted key
  | .void, t', h, _, _ => by
    rw [mapNames, Except.ok.injEq] at h
    subst h
    exact ⟨nofun, nofun⟩
  | .scalar type, t', h, hs, _ => by
    rw [mapNames, Except.ok.injEq] at h
    subst h
    exact ⟨hs, nofun⟩
  | .pointer target, t', h, hs, hk => by
    rw [mapNames] at h
    obtain ⟨target', ht, h⟩ := bind_eq_ok.1 h
    rw [← pure_eq_ok.1 h]
    have h1 := mapNames_avoids ht hs hk
    exact h1
  | .named key, t', h, _, hk => by
    rw [mapNames] at h
    obtain ⟨text, ht, h⟩ := bind_eq_ok.1 h
    rw [← pure_eq_ok.1 h]
    refine ⟨nofun, fun k m => ?_⟩
    rw [List.mem_singleton.1 m]
    exact hk key List.mem_cons_self text ht
  | .array element length, t', h, hs, hk => by
    rw [mapNames] at h
    obtain ⟨element', he, h⟩ := bind_eq_ok.1 h
    rw [← pure_eq_ok.1 h]
    have h1 := mapNames_avoids he hs hk
    exact h1
  | .function result parameters variadic, t', h, hs, hk => by
    rw [mapNames] at h
    obtain ⟨parameters', hp, h⟩ := bind_eq_ok.1 h
    obtain ⟨result', hr, h⟩ := bind_eq_ok.1 h
    rw [← pure_eq_ok.1 h]
    have hs' := List.forall_mem_append.1 hs
    have hk' := List.forall_mem_append.1 hk
    have h1 := mapNames_avoids hr hs'.1 hk'.1
    have h2 := mapNamesOfAll_avoids hp hs'.2 hk'.2
    exact ⟨List.forall_mem_append.2 ⟨h1.1, h2.1⟩, List.forall_mem_append.2 ⟨h1.2, h2.2⟩⟩
  | .qualified base const volatile, t', h, hs, hk => by
    rw [mapNames] at h
    obtain ⟨base', hb, h⟩ := bind_eq_ok.1 h
    rw [← pure_eq_ok.1 h]
    have h1 := mapNames_avoids hb hs hk
    exact h1

theorem mapNamesOfAll_avoids : ∀ {ts ts' : List CType}, mapNamesOfAll f ts = .ok ts' →
    (∀ s ∈ spellingsOfAll ts, Avoids unwanted s) →
    (∀ key ∈ keysOfAll ts, ∀ text, f key = .ok text → Avoids unwanted text) →
    (∀ s ∈ spellingsOfAll ts', Avoids unwanted s) ∧ ∀ key ∈ keysOfAll ts', Avoids unwanted key
  | [], ts', h, _, _ => by
    rw [mapNamesOfAll, Except.ok.injEq] at h
    subst h
    exact ⟨nofun, nofun⟩
  | t :: rest, ts', h, hs, hk => by
    rw [mapNamesOfAll] at h
    obtain ⟨t', ht, h⟩ := bind_eq_ok.1 h
    obtain ⟨rest', hr, h⟩ := bind_eq_ok.1 h
    rw [← pure_eq_ok.1 h]
    have hs' := List.forall_mem_append.1 hs
    have hk' := List.forall_mem_append.1 hk
    have h1 := mapNames_avoids ht hs'.1 hk'.1
    have h2 := mapNamesOfAll_avoids hr hs'.2 hk'.2
    exact ⟨List.forall_mem_append.2 ⟨h1.1, h2.1⟩, List.forall_mem_append.2 ⟨h1.2, h2.2⟩⟩

end

end CType

/-! ## Bodies -/

namespace Tagged

/-- The words in front of a definition's brace. -/
def heading : Tagged → Text
  | record r => opening r.key r.anonymous
  | enumeration e => opening e.key e.anonymous

/-- The names that a body gives to its members or enumerators, and the arguments of its members'
attributes. -/
def innerNames : Tagged → List Text
  | record r => (r.members.getD []).flatMap fun m => m.name :: m.aligned.toList
  | enumeration e => e.variants.map (·.1)

/-- The types of a body's members. -/
def memberTypes : Tagged → List CType
  | record r => (r.members.getD []).map (·.type)
  | enumeration _ => []

theorem underscore_of_registerLike (hu : ∀ w, unwanted w → ("__r" : Text) <+: w) :
    ∀ w, unwanted w → Glyph.char '_' ∈ w :=
  fun w hw => (hu w hw).subset (by decide)

theorem attributeList_avoids (hu : ∀ w, unwanted w → ("__r" : Text) <+: w) {attributes : List Text}
    (ha : ∀ a ∈ attributes, Avoids unwanted a) : Avoids unwanted (attributeList attributes) := by
  unfold attributeList
  split
  · exact avoids_nil
  · have hword : Avoids unwanted (" __attribute__" : Text) := by
      intro w hw hbad
      rw [identifiers_of_ascii (by decide)] at hw
      have hone : asciiIdentifiers " __attribute__" = [("__attribute__" : Text)] := by decide
      rw [hone, List.mem_singleton] at hw
      rw [hw] at hbad
      exact absurd (hu _ hbad) (by decide)
    show Avoids unwanted ((" __attribute__" : Text) ++ "((" ++ Text.join ", " attributes ++ "))")
    exact CType.enclosed_avoids (apart (by decide)) (apart (by decide)) (by decide) (by decide) hword
      (Avoids.join (apart (by decide)) (by decide) ha)

theorem attributeList_startsApart (attributes : List Text) : StartsApart (attributeList attributes) := by
  unfold attributeList
  split
  · nofun
  · intro g hg
    obtain rfl : Glyph.char ' ' = g := Option.some.inj hg
    exact isWord_of_apart (by decide)

theorem memberAttributes_avoids (hu : ∀ w, unwanted w → ("__r" : Text) <+: w) {m : Member}
    (hm : ∀ argument ∈ m.aligned, Avoids unwanted argument) : Avoids unwanted (memberAttributes m) := by
  have hu' := underscore_of_registerLike hu
  refine attributeList_avoids hu fun a ha => ?_
  rcases List.mem_append.1 ha with ha | ha
  · cases hp : m.packed with
    | false => rw [hp] at ha; cases ha
    | true => rw [hp] at ha; rw [List.mem_singleton.1 ha]; exact avoids_of_no_underscore hu' (by decide)
  · cases h : m.aligned with
    | none => rw [h] at ha; cases ha
    | some argument =>
      rw [h] at ha
      cases argument with
      | nil => rw [List.mem_singleton.1 ha]; exact avoids_of_no_underscore hu' (by decide)
      | cons g rest =>
        rw [List.mem_singleton.1 ha]
        exact CType.enclosed_avoids (a := "aligned") (apart (by decide)) (apart (by decide)) (by decide)
          (by decide) (avoids_of_no_underscore hu' (by decide)) (hm _ h)

theorem recordAttributes_avoids (hu : ∀ w, unwanted w → ("__r" : Text) <+: w) (r : Record) :
    Avoids unwanted (recordAttributes r) := by
  have hu' := underscore_of_registerLike hu
  refine attributeList_avoids hu fun a ha => ?_
  rcases List.mem_append.1 ha with ha | ha
  · cases hp : r.packed with
    | false => rw [hp] at ha; cases ha
    | true => rw [hp] at ha; rw [List.mem_singleton.1 ha]; exact avoids_of_no_underscore hu' (by decide)
  · cases hp : r.aligned with
    | false => rw [hp] at ha; cases ha
    | true =>
      rw [hp] at ha
      rw [List.mem_singleton.1 ha]
      exact CType.enclosed_avoids (a := "aligned") (apart (by decide)) (apart (by decide)) (by decide)
        (by decide) (avoids_of_no_underscore hu' (by decide))
        (avoids_of_no_underscore hu' (underscore_not_mem_decimal r.align))

theorem memberLine_avoids (hu : ∀ w, unwanted w → ("__r" : Text) <+: w) {declared : Text} {m : Member}
    (hd : Avoids unwanted declared) (hm : ∀ argument ∈ m.aligned, Avoids unwanted argument) :
    Avoids unwanted (memberLine declared m ++ ";") := by
  have hu' := underscore_of_registerLike hu
  have hline : Avoids unwanted (memberLine declared m) := by
    unfold memberLine
    refine Avoids.append ?_ (memberAttributes_avoids hu hm) (attributeList_startsApart _)
    cases m.bits with
    | none => simpa using hd
    | some bits =>
      show Avoids unwanted (declared ++ (" : " ++ Text.decimal bits))
      rw [← List.append_assoc]
      exact hd.append_append (apart (by decide)) (by decide)
        (avoids_of_no_underscore hu' (underscore_not_mem_decimal bits))
  exact hline.append_cons (g := .char ';') (isWord_of_apart (by decide)) avoids_nil

theorem indent_apart : ∀ g ∈ Header.indent, g.isWord = false := apart (by decide)

theorem times_indent (n : Nat) : ∀ g ∈ Text.times n Header.indent, g.isWord = false := by
  intro g hg
  obtain ⟨part, hp, hg⟩ := List.mem_flatten.1 hg
  rw [List.eq_of_mem_replicate hp] at hg
  exact indent_apart g hg

theorem braces_avoids {depth : Nat} {opening closing : Text} {contents : List Text}
    (ho : Avoids unwanted opening) (hc : ∀ line ∈ contents, Avoids unwanted line)
    (hclose : Avoids unwanted closing) : Avoids unwanted (braces depth opening contents closing) := by
  refine Avoids.join (apart (by decide)) (by decide) fun line hl => ?_
  rcases List.mem_append.1 hl with hl | hl
  · rcases List.mem_append.1 hl with hl | hl
    · rw [List.mem_singleton.1 hl]
      rw [← List.append_nil (opening ++ _)]
      exact ho.append_append (apart (by decide)) (by decide) avoids_nil
    · obtain ⟨content, hcont, rfl⟩ := List.mem_map.1 hl
      exact (hc content hcont).prepend (times_indent _)
  · rw [List.mem_singleton.1 hl, List.append_assoc]
    exact (hclose.prepend (apart (by decide))).prepend (times_indent _)

/-- A body holds the identifiers of its heading, of what it names, and of its members' types. -/
theorem body_avoids (hu : ∀ w, unwanted w → ("__r" : Text) <+: w) {spell : Text → Except Fault Text}
    {depth : Nat} {definition : Tagged} {text : Text} (h : body spell depth definition = .ok text)
    (hh : Avoids unwanted definition.heading) (hi : ∀ n ∈ definition.innerNames, Avoids unwanted n)
    (hs : ∀ t ∈ definition.memberTypes, ∀ s ∈ t.spellings, Avoids unwanted s)
    (hk : ∀ t ∈ definition.memberTypes, ∀ key ∈ t.keys, ∀ text, spell key = .ok text → Avoids unwanted text) :
    Avoids unwanted text := by
  have hu' := underscore_of_registerLike hu
  cases definition with
  | enumeration e =>
    rw [body, Except.ok.injEq] at h
    rw [← h]
    refine braces_avoids hh (fun line hl => ?_) avoids_nil
    obtain ⟨⟨name, value⟩, hv, rfl⟩ := List.mem_map.1 hl
    have hname := hi name (List.mem_map.2 ⟨_, hv, rfl⟩)
    exact (hname.append_append (apart (by decide)) (by decide)
      (avoids_of_no_underscore hu' (underscore_not_mem_decimal value))).append_cons
        (g := .char ',') (isWord_of_apart (by decide)) avoids_nil
  | record r =>
    cases hm : r.members with
    | none => simp only [body, hm, reduceCtorEq] at h
    | some members =>
      simp only [body, hm] at h
      obtain ⟨lines, hl, h⟩ := bind_eq_ok.1 h
      rw [← pure_eq_ok.1 h]
      -- a line is the declaration of one member, and the closing line holds the attributes
      refine braces_avoids hh (fun line hline => ?_) ?_
      · obtain ⟨m, hmem, hline⟩ := forall₂_exists_of_mem_right (mapM_eq_ok.1 hl) hline
        obtain ⟨type, ht, hline⟩ := bind_eq_ok.1 hline
        rw [← pure_eq_ok.1 hline]
        have htype : m.type ∈ (record r).memberTypes := by
          simp only [memberTypes, hm, Option.getD_some]
          exact List.mem_map_of_mem hmem
        have hinner : ∀ n ∈ m.name :: m.aligned.toList, Avoids unwanted n := fun n hn => hi n (by
          simp only [innerNames, hm, Option.getD_some]
          exact List.mem_flatMap.2 ⟨m, hmem, hn⟩)
        have hnames := CType.mapNames_avoids ht (hs _ htype) (hk _ htype)
        refine memberLine_avoids hu (CType.declare_avoids hu' hnames.1 hnames.2 (hinner _ List.mem_cons_self)) ?_
        intro argument ha
        exact hinner argument (List.mem_cons_of_mem _ (Option.mem_toList.2 ha))
      · exact recordAttributes_avoids hu r

end Tagged

/-! ## Spelled declarations -/

namespace Speller

variable {speller : Speller}

/-- The anonymous definitions of the table. -/
def anonymousDefinitions (speller : Speller) : List Tagged :=
  (speller.table.entries.filter TypeDef.isAnonymous).filterMap Tagged.ofTypeDef?

/-- The keys of a type that are written as they are. -/
def plainKeys (speller : Speller) (t : CType) : List Text :=
  t.keys.filter fun key => (speller.anonymous? key).isNone

/-- The names of types that a key of an anonymous definition can be written with. -/
def bodyNames (speller : Speller) : List Text :=
  speller.names.map (·.2) ++ speller.anonymousDefinitions.flatMap fun definition =>
    definition.heading :: definition.memberTypes.flatMap fun t => t.spellings ++ speller.plainKeys t

/-- The names of types that a declaration with type `t` can be written with. -/
def namesOf (speller : Speller) (t : CType) : List Text :=
  t.spellings ++ speller.plainKeys t ++ speller.bodyNames

/-- The names that the bodies of anonymous definitions give to what is inside them. -/
def innerNames (speller : Speller) : List Text := speller.anonymousDefinitions.flatMap Tagged.innerNames

theorem mem_anonymousDefinitions {key : Text} {definition : Tagged}
    (h : speller.anonymous? key = some definition) : definition ∈ speller.anonymousDefinitions := by
  obtain ⟨d, hd, hanon, htag⟩ := anonymous?_eq_some.1 h
  exact List.mem_filterMap.2 ⟨d, List.mem_filter.2 ⟨List.mem_of_find?_eq_some hd, hanon⟩, htag⟩

theorem mem_plainKeys {t : CType} {key : Text} :
    key ∈ speller.plainKeys t ↔ key ∈ t.keys ∧ speller.anonymous? key = none := by
  rw [plainKeys, List.mem_filter, Option.isNone_iff_eq_none]

/-- A key is written without unwanted identifiers. -/
theorem spellWithin_avoids (hu : ∀ w, unwanted w → ("__r" : Text) <+: w)
    (hb : ∀ n ∈ speller.bodyNames, Avoids unwanted n) (hi : ∀ n ∈ speller.innerNames, Avoids unwanted n)
    (limit : Nat) : ∀ {depth : Nat} {key text : Text}, speller.spellWithin limit depth key = .ok text →
      (speller.anonymous? key = none → Avoids unwanted key) → Avoids unwanted text := by
  induction limit with
  | zero => intro depth key text h; cases h
  | succ limit ih =>
    intro depth key text h hk
    unfold spellWithin at h
    cases ha : speller.anonymous? key with
    | none =>
      rw [ha, Except.ok.injEq] at h
      rw [← h]; exact hk ha
    | some definition =>
      cases hn : speller.nameOf? key with
      | some name =>
        rw [ha, hn, Except.ok.injEq] at h
        rw [← h]
        -- a typedef has named the definition
        obtain ⟨before, after, hsplit, -⟩ := List.lookup_eq_some_iff.1 hn
        exact hb name (List.mem_append_left _ (List.mem_map.2 ⟨(key, name), by rw [hsplit]; simp, rfl⟩))
      | none =>
        rw [ha, hn] at h
        have hdef := mem_anonymousDefinitions ha
        -- the names of this definition are among those of all bodies
        have hown : ∀ n ∈ definition.heading :: definition.memberTypes.flatMap
            (fun t => t.spellings ++ speller.plainKeys t), Avoids unwanted n := fun n hn =>
          hb n (List.mem_append_right _ (List.mem_flatMap.2 ⟨definition, hdef, hn⟩))
        have hmember : ∀ t ∈ definition.memberTypes, ∀ n ∈ t.spellings ++ speller.plainKeys t,
            Avoids unwanted n := fun t ht n hn =>
          hown n (List.mem_cons_of_mem _ (List.mem_flatMap.2 ⟨t, ht, hn⟩))
        refine Tagged.body_avoids hu h (hown _ List.mem_cons_self) ?_ ?_ ?_
        · exact fun n hn => hi n (List.mem_flatMap.2 ⟨definition, hdef, hn⟩)
        · exact fun t ht s hs => hmember t ht s (List.mem_append_left _ hs)
        · exact fun t ht inner hinner text htext => ih htext fun hplain =>
            hmember t ht inner (List.mem_append_right _ (mem_plainKeys.2 ⟨hinner, hplain⟩))

/-- **A declaration is written without unwanted identifiers** if its own name, the names of its types
and the names inside anonymous bodies have none. -/
theorem declare_avoids (hu : ∀ w, unwanted w → ("__r" : Text) <+: w) {depth : Nat} {t : CType}
    {name text : Text} (h : speller.declare depth t name = .ok text)
    (ht : ∀ n ∈ speller.namesOf t, Avoids unwanted n) (hi : ∀ n ∈ speller.innerNames, Avoids unwanted n)
    (hn : Avoids unwanted name) : Avoids unwanted text := by
  obtain ⟨t', hmap, h⟩ := bind_eq_ok.1 h
  rw [← pure_eq_ok.1 h]
  have hb : ∀ n ∈ speller.bodyNames, Avoids unwanted n := fun n hn => ht n (List.mem_append_right _ hn)
  -- what the type itself is written with, apart from bodies
  have hown : ∀ n ∈ t.spellings ++ speller.plainKeys t, Avoids unwanted n := fun n hn =>
    ht n (List.mem_append_left _ hn)
  have hnames := CType.mapNames_avoids hmap (fun s hs => hown s (List.mem_append_left _ hs))
    fun key hkey text htext => spellWithin_avoids hu hb hi _ htext fun hplain =>
      hown key (List.mem_append_right _ (mem_plainKeys.2 ⟨hkey, hplain⟩))
  exact CType.declare_avoids (Tagged.underscore_of_registerLike hu) hnames.1 hnames.2 hn

end Speller

end TrapStub
