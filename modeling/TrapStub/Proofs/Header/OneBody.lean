import TrapStub.Proofs.Header.Sites
import TrapStub.Proofs.Survey.Mentions

/-!
# Anonymous definitions and their bodies

A definition without a name is written with its body wherever its key is spelled, until a typedef has named it.
Two spellings of it are two definitions: of different types, and of the same enumerators.

* `TypeTable.MetOnce`, `TypeTable.NamedFirst`: the two ways in which one body is enough. The key is mentioned once,
  or the first definition to mention it is a typedef that names it.
* `TypeTable.inlined_succ`: what one more layer of bodies adds. `TypeTable.inlined_nodup`: so no layer writes
  a body twice.
* `Source.bodies_once`: **a header where every anonymous definition is met in one of these ways writes each body
  once, and defines no enumerator more often than the headers that were read.**
-/

namespace TrapStub

open Draft

/-- **Different bodies hold no more than all definitions do**, of whatever definitions hold. -/
theorem Tagged.count_flatMap_le {bodies : List Tagged} {entries : List TypeDef}
    (hn : (bodies.map Tagged.key).Nodup) (h : ∀ d ∈ bodies, d.toTypeDef ∈ entries) (f : TypeDef → List Text)
    (name : Text) : (bodies.flatMap fun d => f d.toTypeDef).count name ≤ (entries.flatMap f).count name := by
  have hsub : (bodies.map toTypeDef).Subperm entries := by
    refine List.subperm_of_subset ?_ fun d hd => ?_
    · have hkeys : (bodies.map toTypeDef).map TypeDef.key = bodies.map Tagged.key := List.map_map ..
      exact List.Nodup.of_map TypeDef.key (hkeys ▸ hn)
    · obtain ⟨body, hbody, rfl⟩ := List.mem_map.1 hd
      exact h body hbody
  obtain ⟨l, hperm, hl⟩ := hsub
  rw [← List.flatMap_map, ← (hperm.flatMap_right f).count_eq name]
  exact (hl.flatMap f).count_le name

namespace Speller

variable {speller : Speller} {keys : List Text}

theorem filterMap_inlined_key (speller : Speller) (keys : List Text) :
    (keys.filterMap speller.inlined?).map Tagged.key = keys.filter fun key => (speller.inlined? key).isSome := by
  induction keys with
  | nil => rfl
  | cons key rest ih =>
    cases h : speller.inlined? key with
    | none => rw [List.filterMap_cons_none h, ih, List.filter_cons_of_neg (by simp [h])]
    | some d =>
      rw [List.filterMap_cons_some h, List.map_cons, ih, List.filter_cons_of_pos (by simp [h]),
        (inlined?_entry h).1]

/-- The keys of the bodies in one more layer: those that are spelled and those that the bodies mention, where they
have no name. -/
theorem bodiesWithin_succ_keys (speller : Speller) (limit : Nat) (keys : List Text) :
    ((keys.flatMap (speller.bodiesWithin (limit + 1))).map Tagged.key).Perm
      ((keys ++ (keys.flatMap (speller.bodiesWithin limit)).flatMap Tagged.mentions).filter
        fun key => (speller.inlined? key).isSome) := by
  rw [← filterMap_inlined_key, List.filterMap_append]
  refine List.Perm.map _ ?_
  refine (List.Perm.flatMap_left _ fun key _ => bodiesWithin_succ limit key).trans ?_
  refine (List.flatMap_append_perm _ _ _).symm.trans (List.Perm.of_eq ?_)
  rw [List.filterMap_eq_flatMap_toList speller.inlined? keys, List.flatMap_assoc, List.filterMap_flatMap]

/-- A key with a name, or without an anonymous definition, is written as it is from then on. -/
theorem inlined?_after {key : Text} (h : speller.inlined? key = none) (d : TypeDef) :
    (speller.after d).inlined? key = none := by
  cases d with
  | record r => exact h
  | enumeration e => exact h
  | typedef a =>
    cases hnamed : TypeSection.namedFirst? speller a with
    | none => rwa [after_of_none hnamed]
    | some named =>
      obtain ⟨k, definition⟩ := named
      rw [after_of_some hnamed]
      unfold inlined? at h ⊢
      by_cases hk : key = k
      · subst hk
        rw [nameOf?_give]
        rfl
      · rw [nameOf?_give_of_ne hk]
        exact h

theorem inlined?_foldl_after {key : Text} (definitions : List TypeDef) (h : speller.inlined? key = none) :
    (definitions.foldl after speller).inlined? key = none := by
  induction definitions generalizing speller with
  | nil => exact h
  | cons d rest ih => exact ih (inlined?_after h d)

/-- **A typedef of a key leaves it with a name**, if it has a definition to name. -/
theorem inlined?_after_typedef {a : Typedef} {key : Text} (h : a.target.unqualified = .named key) :
    (speller.after (.typedef a)).inlined? key = none := by
  cases hk : speller.inlined? key with
  | none => exact inlined?_after hk _
  | some d =>
    rw [after_of_some (namedFirst?_eq_some.2 ⟨h, hk⟩), inlined?, nameOf?_give]
    rfl

end Speller

namespace TypeTable

open Speller TypeSection

/-- The key is mentioned once, and not by a result, which a stub may spell several times. -/
def MetOnce (table : TypeTable) (plans : List Plan) (key : Text) : Prop :=
  (mentioned table plans).count key ≤ 1 ∧ ∀ plan ∈ plans, key ∉ plan.declaration.returnType.keys

/-- The first definition that mentions the key is a typedef that names it, and no anonymous one mentions it. -/
def NamedFirst (table : TypeTable) (key : Text) : Prop :=
  (∃ before a after, table.entries = before ++ .typedef a :: after ∧ a.target.unqualified = .named key ∧
    ∀ d ∈ before, key ∉ d.mentions) ∧
  ∀ d ∈ table.entries, d.isAnonymous = true → key ∉ d.mentions

variable {table : TypeTable} {plans : List Plan} {key : Text} {limit : Nat}

/-- The keys that one site asks for in one more layer. -/
def asked (limit : Nat) (s : Speller × List Text) : List Text :=
  (s.2 ++ (s.2.flatMap (s.1.bodiesWithin limit)).flatMap Tagged.mentions).filter
    fun key => (s.1.inlined? key).isSome

/-- **One more layer of bodies** has the keys that the sites ask for. -/
theorem inlined_succ (table : TypeTable) (plans : List Plan) (limit : Nat) :
    ((table.inlined plans (limit + 1)).map Tagged.key).Perm ((table.sites plans).flatMap (asked limit)) := by
  unfold inlined
  rw [List.map_flatMap]
  exact List.Perm.flatMap_left _ fun s _ => s.1.bodiesWithin_succ_keys limit s.2

theorem not_mem_inner {s : Speller × List Text} (hs : s ∈ table.sites plans)
    (h : ∀ d ∈ table.entries, d.isAnonymous = true → key ∉ d.mentions) :
    key ∉ (s.2.flatMap (s.1.bodiesWithin limit)).flatMap Tagged.mentions := by
  intro hkey
  obtain ⟨d, hd, hkey⟩ := List.mem_flatMap.1 hkey
  obtain ⟨hentry, hanon⟩ := inlined_entry (List.mem_flatMap.2 ⟨s, hs, hd⟩)
  exact h _ hentry hanon hkey

/-- Where the key has a name, it is not asked for. -/
theorem count_asked_named {s : Speller × List Text} (h : s.1.inlined? key = none) : (asked limit s).count key = 0 := by
  refine List.count_eq_zero.2 fun hkey => ?_
  have := (List.mem_filter.1 hkey).2
  rw [h] at this
  cases this

/-- Nor is it where the site does not spell it and no anonymous definition mentions it. -/
theorem count_asked_le {s : Speller × List Text} (hs : s ∈ table.sites plans)
    (h : ∀ d ∈ table.entries, d.isAnonymous = true → key ∉ d.mentions) :
    (asked limit s).count key ≤ s.2.count key := by
  refine (List.filter_sublist.count_le key).trans ?_
  rw [List.count_append, List.count_eq_zero.2 (not_mem_inner hs h), Nat.add_zero]

/-- The sites around a definition that is written. -/
theorem sites_split (plans : List Plan) {before after : List TypeDef} {d : TypeDef}
    (hsplit : table.entries = before ++ d :: after) (hwritten : d.isWritten (mentioned table plans) = true) :
    ∃ early late,
      table.sites plans = early ++ (before.foldl Speller.after (.ofTable table), d.mentions) :: late ∧
      (∀ s ∈ early, ∃ e ∈ before, s.2 = e.mentions) ∧
      ∀ s ∈ late, ∃ rest : List TypeDef,
        s.1 = rest.foldl Speller.after ((before.foldl Speller.after (.ofTable table)).after d) := by
  refine ⟨(((Speller.ofTable table).writing before).filter fun w => w.2.isWritten (mentioned table plans)).map
      fun w => (w.1, w.2.mentions),
    ((((before.foldl Speller.after (.ofTable table)).after d).writing after).filter fun w =>
      w.2.isWritten (mentioned table plans)).map (fun w => (w.1, w.2.mentions)) ++
      [(table.entries.foldl Speller.after (.ofTable table), plans.flatMap Plan.spelled)], ?_, ?_, ?_⟩
  · unfold sites
    rw [hsplit, writing_append, writing, List.filter_append, List.filter_cons, if_pos hwritten, List.map_append,
      List.map_cons, List.append_assoc, List.cons_append]
  · intro s hs
    obtain ⟨w, hw, rfl⟩ := List.mem_map.1 hs
    exact ⟨w.2, mem_of_mem_writing (List.mem_filter.1 hw).1, rfl⟩
  · intro s hs
    rcases List.mem_append.1 hs with hs | hs
    · obtain ⟨w, hw, rfl⟩ := List.mem_map.1 hs
      obtain ⟨rest, -, -, hspeller⟩ := mem_writing_iff.1 (List.mem_filter.1 hw).1
      exact ⟨rest, hspeller⟩
    · rw [List.mem_singleton.1 hs]
      refine ⟨after, ?_⟩
      show table.entries.foldl Speller.after (.ofTable table) = _
      rw [hsplit, List.foldl_append, List.foldl_cons]

/-- **A key that is named first is asked for once.** Before its typedef nothing spells it, and behind it it has a
name. -/
theorem NamedFirst.count_asked (h : table.NamedFirst key) (limit : Nat) :
    ((table.sites plans).flatMap (asked limit)).count key ≤ 1 := by
  obtain ⟨⟨before, a, after, hsplit, htarget, hbefore⟩, hinner⟩ := h
  have hasked : ∀ s ∈ table.sites plans, (asked limit s).count key ≤ s.2.count key :=
    fun s hs => count_asked_le hs hinner
  obtain ⟨early, late, hsites, hearly, hlate⟩ := sites_split plans hsplit rfl
  rw [hsites] at hasked ⊢
  have hkeys : (TypeDef.typedef a).mentions = [key] := CType.keys_of_unqualified htarget
  have hzero : ∀ l : List (Speller × List Text), (∀ s ∈ l, (asked limit s).count key = 0) →
      (l.flatMap (asked limit)).count key = 0 := by
    intro l hl
    refine List.count_eq_zero.2 fun hkey => ?_
    obtain ⟨s, hs, hkey⟩ := List.mem_flatMap.1 hkey
    exact List.count_eq_zero.1 (hl s hs) hkey
  have hfirst : (early.flatMap (asked limit)).count key = 0 := by
    refine hzero early fun s hs => Nat.le_zero.1 ((hasked s (List.mem_append_left _ hs)).trans ?_)
    obtain ⟨e, he, hmentions⟩ := hearly s hs
    rw [hmentions, List.count_eq_zero.2 (hbefore e he)]
  have hown := hasked _ (List.mem_append_right early List.mem_cons_self)
  rw [hkeys, List.count_singleton_self] at hown
  have hlast : (late.flatMap (asked limit)).count key = 0 := by
    refine hzero late fun s hs => count_asked_named ?_
    obtain ⟨rest, hspeller⟩ := hlate s hs
    rw [hspeller]
    exact inlined?_foldl_after rest (inlined?_after_typedef htarget)
  rw [List.flatMap_append, List.flatMap_cons, List.count_append, List.count_append, hfirst, hlast, hkeys]
  omega

/-! ### Keys that are met once -/

/-- What is written on its own and what is written in place mention no more than all definitions do. -/
theorem count_written_add_anonymous (entries : List TypeDef) (keys : List Text) (key : Text) :
    ((entries.filter fun d => d.isWritten keys).flatMap TypeDef.mentions).count key +
        ((entries.filter TypeDef.isAnonymous).flatMap TypeDef.mentions).count key ≤
      (entries.flatMap TypeDef.mentions).count key := by
  induction entries with
  | nil => exact Nat.le_refl 0
  | cons d rest ih =>
    rw [List.flatMap_cons, List.count_append, List.filter_cons, List.filter_cons]
    by_cases hwritten : d.isWritten keys = true
    · by_cases hanon : d.isAnonymous = true
      · rw [if_pos hwritten, if_pos hanon, List.flatMap_cons, List.flatMap_cons, mentions_of_written hwritten hanon,
          List.nil_append, List.nil_append]
        exact Nat.le_add_left_of_le ih
      · rw [if_pos hwritten, if_neg hanon, List.flatMap_cons, List.count_append]
        omega
    · rw [if_neg hwritten]
      by_cases hanon : d.isAnonymous = true
      · rw [if_pos hanon, List.flatMap_cons, List.count_append]
        omega
      · rw [if_neg hanon]
        omega

/-- The sites spell what the definitions that are written mention, and what the stubs spell. -/
theorem sites_spelled (table : TypeTable) (plans : List Plan) : (table.sites plans).flatMap Prod.snd =
    (table.entries.filter fun d => d.isWritten (mentioned table plans)).flatMap TypeDef.mentions ++
      plans.flatMap Plan.spelled := by
  unfold sites
  rw [List.flatMap_append, List.flatMap_map, List.flatMap_singleton]
  congr 1
  have hentries := writing_snd (.ofTable table) table.entries
  generalize (Speller.ofTable table).writing table.entries = writing at hentries
  rw [← hentries, List.filter_map, List.flatMap_map]
  rfl

/-- A key that is in no result is spelled by the stubs as often as their parameters mention it. -/
theorem count_spelled (h : ∀ plan ∈ plans, key ∉ plan.declaration.returnType.keys) :
    (plans.flatMap Plan.spelled).count key = (plans.flatMap fun plan =>
      plan.declaration.returnType.keys ++ plan.declaration.parameters.flatMap (·.type.keys)).count key := by
  induction plans with
  | nil => rfl
  | cons plan rest ih =>
    have hrest := ih fun p hp => h p (List.mem_cons_of_mem plan hp)
    have hresult : plan.declaration.returnType.keys.count key = 0 :=
      List.count_eq_zero.2 (h plan List.mem_cons_self)
    rw [List.flatMap_cons, List.flatMap_cons, List.count_append, List.count_append, hrest]
    congr 1
    unfold Plan.spelled
    have hstorage : (if plan.resultSlot?.isSome then plan.declaration.returnType.keys else []).count key = 0 := by
      split
      · exact hresult
      · rfl
    have hreply : (plan.returns.spelled plan.declaration.returnType.keys).count key = 0 := by
      cases plan.returns with
      | void => rfl
      | storage => rfl
      | register carriage => exact hresult
      | registerPair image => exact hresult
    simp only [List.count_append, hstorage, hreply, Nat.add_zero]

/-- The definitions that are written in place mention no more than the anonymous ones do, if none is written
twice. -/
theorem count_inner_le (key : Text) (honce : ((table.inlined plans limit).map Tagged.key).Nodup) :
    ((table.inlined plans limit).flatMap Tagged.mentions).count key ≤
      ((table.entries.filter TypeDef.isAnonymous).flatMap TypeDef.mentions).count key :=
  Tagged.count_flatMap_le honce (fun _ hd => List.mem_filter.2 (inlined_entry hd)) TypeDef.mentions key

/-- **A key that is met once is asked for once**, where the bodies that are written are different. -/
theorem MetOnce.count_asked (h : table.MetOnce plans key)
    (honce : ((table.inlined plans limit).map Tagged.key).Nodup) :
    ((table.sites plans).flatMap (asked limit)).count key ≤ 1 := by
  obtain ⟨hmentioned, hresults⟩ := h
  rw [mentioned_eq, List.count_append, ← count_spelled hresults] at hmentioned
  have hsites : ((table.sites plans).flatMap Prod.snd).count key =
      ((table.entries.filter fun d => d.isWritten (mentioned table plans)).flatMap TypeDef.mentions).count key +
        (plans.flatMap Plan.spelled).count key := by
    rw [sites_spelled, List.count_append]
  have hinner := count_inner_le key honce
  have hall := count_written_add_anonymous table.entries (mentioned table plans) key
  -- a site asks for nothing but what it spells and what is mentioned in the bodies it writes
  have hasked : ((table.sites plans).flatMap (asked limit)).count key ≤
      ((table.sites plans).flatMap Prod.snd).count key +
        ((table.inlined plans limit).flatMap Tagged.mentions).count key := by
    rw [← List.count_append, inlined, List.flatMap_assoc, (List.flatMap_append_perm _ _ _).count_eq key]
    exact (List.Sublist.flatMap_right _ fun s _ => List.filter_sublist).count_le key
  omega

/-! ### Bodies that are written once -/

/-- Every anonymous definition is met once, or named first. -/
def EachOnce (table : TypeTable) (plans : List Plan) : Prop :=
  ∀ d ∈ table.entries, d.isAnonymous = true → table.MetOnce plans d.key ∨ table.NamedFirst d.key

/-- **No layer writes a body twice.** The layers above it have written different bodies, so each of them asks for
what it mentions once. -/
theorem inlined_nodup (h : table.EachOnce plans) :
    ∀ limit, ((table.inlined plans limit).map Tagged.key).Nodup := by
  intro limit
  induction limit with
  | zero =>
    have hnone : table.inlined plans 0 = [] :=
      List.flatMap_eq_nil_iff.2 fun s _ => List.flatMap_eq_nil_iff.2 fun key _ => rfl
    rw [hnone]
    exact List.nodup_nil
  | succ limit ih =>
    refine List.nodup_iff_count_le_one.2 fun key => ?_
    by_cases hmem : key ∈ (table.inlined plans (limit + 1)).map Tagged.key
    · obtain ⟨d, hd, rfl⟩ := List.mem_map.1 hmem
      obtain ⟨hentry, hanon⟩ := inlined_entry hd
      rw [(table.inlined_succ plans limit).count_eq]
      rcases h _ hentry hanon with hmet | hnamed
      · exact hmet.count_asked ih
      · exact hnamed.count_asked limit
    · rw [List.count_eq_zero.2 hmem]
      exact Nat.zero_le 1

/-- What is written in place is mentioned. -/
theorem inlined_mentioned {d : Tagged} (h : d ∈ table.inlined plans limit) : d.key ∈ mentioned table plans := by
  cases limit with
  | zero =>
    obtain ⟨s, -, hd⟩ := List.mem_flatMap.1 h
    obtain ⟨key, -, hd⟩ := List.mem_flatMap.1 hd
    cases hd
  | succ limit =>
    have hkey := ((table.inlined_succ plans limit).mem_iff).1 (List.mem_map_of_mem h)
    obtain ⟨s, hs, hkey⟩ := List.mem_flatMap.1 hkey
    rcases List.mem_append.1 (List.mem_filter.1 hkey).1 with hkey | hkey
    · exact sites_mentioned hs hkey
    · obtain ⟨outer, houter, hkey⟩ := List.mem_flatMap.1 hkey
      have hentry := (inlined_entry (List.mem_flatMap.2 ⟨s, hs, houter⟩)).1
      rw [mentioned_eq]
      exact List.mem_append_left _ (List.mem_flatMap.2 ⟨_, hentry, hkey⟩)

theorem ownBodies_nodup (hn : table.keys.Nodup) : ((table.ownBodies plans).map Tagged.key).Nodup := by
  have hsub : ((table.ownBodies plans).map Tagged.key).Sublist table.keys := by
    unfold ownBodies
    have hkeys : ∀ entries : List TypeDef, ((entries.filterMap Tagged.ofTypeDef?).map Tagged.key).Sublist
        (entries.map TypeDef.key) := by
      intro entries
      induction entries with
      | nil => exact .slnil
      | cons d rest ih =>
        cases d with
        | record r => exact ih.cons_cons _
        | enumeration e => exact ih.cons_cons _
        | typedef a => exact ih.cons _
    exact (hkeys _).trans (List.filter_sublist.map _)
  exact hn.sublist hsub

/-- **No body is written twice**, neither on its own nor in place. -/
theorem bodies_nodup (h : table.EachOnce plans) (hn : table.keys.Nodup) (limit : Nat) :
    ((table.ownBodies plans ++ table.inlined plans limit).map Tagged.key).Nodup := by
  rw [List.map_append]
  refine List.nodup_append.2 ⟨ownBodies_nodup hn, inlined_nodup h limit, ?_⟩
  rintro key hown _ hinlined rfl
  obtain ⟨d, hd, rfl⟩ := List.mem_map.1 hown
  obtain ⟨e, he, hkey⟩ := List.mem_map.1 hinlined
  obtain ⟨hentry, hwritten⟩ := mem_ownBodies.1 hd
  obtain ⟨hanonEntry, hanon⟩ := inlined_entry he
  -- both stand under one key, so they are the same
  have hsame : e.toTypeDef = d.toTypeDef := by
    have hget := get?_of_mem hn hentry
    rw [show d.toTypeDef.key = e.toTypeDef.key from hkey.symm, get?_of_mem hn hanonEntry] at hget
    exact Option.some.inj hget
  rw [hsame] at hanon
  cases d with
  | record r =>
    have htag : r.anonymous = true := hanon
    simp [Tagged.toTypeDef, TypeDef.isWritten, htag] at hwritten
  | enumeration e' =>
    -- an anonymous enum that is mentioned is not written on its own
    have hmention := inlined_mentioned he
    rw [hkey] at hmention
    have hanon' : e'.anonymous = true := hanon
    simp only [Tagged.toTypeDef, TypeDef.isWritten, hanon', Bool.true_and, Bool.not_eq_true',
      List.contains_eq_mem, decide_eq_false_iff_not] at hwritten
    exact hwritten hmention

end TypeTable

namespace Source

open TypeTable

/-- **No body is written twice.** Where every anonymous definition of the headers is met once or named first, the
bodies of the output have different keys, so two places that lead to one type without a name write it once or by
its name; and no enumerator is defined more often than in the headers. -/
theorem bodies_once {source : Source} {interface : Interface} (h : source.interface = .ok interface)
    {corpus : Corpus} (htable : corpus.table = interface.table) {plans : List Plan} {settings : Settings}
    {outputName written : Text} (hrender : Header.render corpus plans settings outputName = .ok written)
    (honce : interface.table.EachOnce plans) :
    ∃ header, Header.draft corpus plans settings outputName = .ok header ∧ text header = written ∧
      (header.bodies.map Tagged.key).Nodup ∧
      ∀ name, (header.bodies.flatMap (·.toTypeDef.enumerators)).count name ≤
        (interface.table.entries.flatMap TypeDef.enumerators).count name := by
  obtain ⟨header, hdraft, hdrafted⟩ := Header.render_drafted hrender
  have hbodies := hdrafted.bodies
  rw [htable] at hbodies
  have hkeys := bodies_nodup honce (interface_keys_nodup h) (interface.table.entries.length + 1)
  have hnodup := ((hbodies.map Tagged.key).nodup_iff).2 hkeys
  have hentries : ∀ d ∈ header.bodies, d.toTypeDef ∈ interface.table.entries :=
    fun d hd => bodies_entry (hbodies.mem_iff.1 hd)
  exact ⟨header, hdraft, hdrafted.text, hnodup, Tagged.count_flatMap_le hnodup hentries TypeDef.enumerators⟩

end Source

/-! The header `typedef struct { enum { A, B } kind; int n; } item_t; struct pair { item_t a, b; };`, where a typedef
names the struct before it is used twice, and the enum is met once. -/

def pairSource : Source :=
  { staged := ⟨[], [("a.h", [])], []⟩
    unit :=
      { top := [some 0, some 1, some 2], diagnostics := []
        cursors := #[
          { kind := .structDecl, file := some "corpus/a.h", line := 1, column := 9, isDefinition := true
            isAnonymous := true, definition := some 0, type := some 0 },
          { kind := .typedefDecl, spelling := "item_t", file := some "corpus/a.h", underlying := some 0 },
          { kind := .structDecl, spelling := "pair", file := some "corpus/a.h", isDefinition := true
            definition := some 2, type := some 1 },
          { kind := .enumDecl, file := some "corpus/a.h", line := 1, column := 18, isDefinition := true
            isAnonymous := true, definition := some 3, type := some 2, enumType := some 3
            children := [some 8, some 9] },
          { spelling := "kind", type := some 2, fieldOffset := 0 },
          { spelling := "n", type := some 5, fieldOffset := 32 },
          { spelling := "a", type := some 4, fieldOffset := 0 },
          { spelling := "b", type := some 4, fieldOffset := 64 },
          { kind := .enumConstantDecl, spelling := "A", enumValue := 0 },
          { kind := .enumConstantDecl, spelling := "B", enumValue := 1 }]
        types := #[
          { kind := .record, size := 8, align := 4, declaration := some 0, fields := [some 4, some 5] },
          { kind := .record, size := 16, align := 4, declaration := some 2, fields := [some 6, some 7] },
          { kind := .enumeration, size := 4, align := 4, declaration := some 3 },
          { kind := .scalar .uint, spelling := "unsigned int", size := 4, align := 4 },
          { kind := .typedef, size := 8, align := 4, declaration := some 1 },
          { kind := .scalar .int, spelling := "int", size := 4, align := 4 }] } }

def kindEnum : TypeDef := .enumeration
  { key := "enum @a.h:1:18", variants := [("A", 0), ("B", 1)], size := 4, signed := false, anonymous := true
    origin := "a.h", comment := none }

def itemStruct : TypeDef := .record
  { key := "struct @a.h:1:9", kind := .struct, size := 8, align := 4, packed := false, aligned := false
    pack := none, anonymous := true, origin := "a.h", comment := none
    members := some [⟨"kind", .named "enum @a.h:1:18", none, some 0, false, none⟩,
      ⟨"n", .scalar ⟨"int", 4, true, false⟩, none, some 32, false, none⟩] }

def itemTypedef : Typedef :=
  { key := "item_t", target := .named "struct @a.h:1:9", origin := "a.h", comment := none }

def pairStruct : TypeDef := .record
  { key := "struct pair", kind := .struct, size := 16, align := 4, packed := false, aligned := false
    pack := none, anonymous := false, origin := "a.h", comment := none
    members := some [⟨"a", .named "item_t", none, some 0, false, none⟩,
      ⟨"b", .named "item_t", none, some 64, false, none⟩] }

def pairTable : TypeTable := ⟨[kindEnum, itemStruct, .typedef itemTypedef, pairStruct], true⟩

theorem pairTable_eachOnce : pairTable.EachOnce [] := by
  intro d hd hanon
  simp only [pairTable, List.mem_cons, List.not_mem_nil, or_false] at hd
  rcases hd with rfl | rfl | rfl | rfl
  · exact Or.inl ⟨by decide, fun _ hplan => absurd hplan List.not_mem_nil⟩
  · exact Or.inr ⟨⟨[kindEnum, itemStruct], itemTypedef, [pairStruct], rfl, rfl, by decide⟩, by decide⟩
  · cases hanon
  · cases hanon

/-- What is known of the headers of one directory from a table. -/
def Corpus.ofTable (table : TypeTable) : Corpus :=
  { sourceName := "headers", headerCount := 1, table, declarations := [], constants := [] }

theorem pairSource_once : ∃ interface written header, pairSource.interface = .ok interface ∧
    (Corpus.ofTable pairTable).table = interface.table ∧
    Header.render (.ofTable pairTable) [] .default "svcall.h" = .ok written ∧ interface.table.EachOnce [] ∧
    Header.draft (.ofTable pairTable) [] .default "svcall.h" = .ok header ∧ Draft.text header = written ∧
    (header.bodies.map Tagged.key).Nodup := by
  have htable : pairSource.interface.toOption.map Interface.table = some pairTable := by decide +kernel
  obtain ⟨interface, hinterface, htable⟩ := exists_of_toOption_map htable
  have hok : (Header.render (.ofTable pairTable) [] .default "svcall.h").toOption.isSome = true := by decide
  obtain ⟨written, hwritten⟩ := exists_of_isSome hok
  have honce : interface.table.EachOnce [] := htable ▸ pairTable_eachOnce
  obtain ⟨header, hdraft, htext, hnodup, -⟩ := Source.bodies_once hinterface htable.symm hwritten honce
  exact ⟨interface, written, header, hinterface, htable.symm, hwritten, honce, hdraft, htext, hnodup⟩

/-! The header `struct s { enum { A, B } x, y; };`, where two members are declared with one enum. -/

def twiceSource : Source :=
  { staged := ⟨[], [("a.h", [])], []⟩
    unit :=
      { top := [some 0], diagnostics := []
        cursors := #[
          { kind := .structDecl, spelling := "s", file := some "corpus/a.h", isDefinition := true
            definition := some 0, type := some 0 },
          { kind := .enumDecl, file := some "corpus/a.h", line := 1, column := 12, isDefinition := true
            isAnonymous := true, definition := some 1, type := some 1, enumType := some 2
            children := [some 4, some 5] },
          { spelling := "x", type := some 1, fieldOffset := 0 },
          { spelling := "y", type := some 1, fieldOffset := 32 },
          { kind := .enumConstantDecl, spelling := "A", enumValue := 0 },
          { kind := .enumConstantDecl, spelling := "B", enumValue := 1 }]
        types := #[
          { kind := .record, size := 8, align := 4, declaration := some 0, fields := [some 2, some 3] },
          { kind := .enumeration, size := 4, align := 4, declaration := some 1 },
          { kind := .scalar .uint, spelling := "unsigned int", size := 4, align := 4 }] } }

def twiceTable : TypeTable :=
  ⟨[ .enumeration
      { key := "enum @a.h:1:12", variants := [("A", 0), ("B", 1)], size := 4, signed := false, anonymous := true
        origin := "a.h", comment := none },
     .record
      { key := "struct s", kind := .struct, size := 8, align := 4, packed := false, aligned := false
        pack := none, anonymous := false, origin := "a.h", comment := none
        members := some [⟨"x", .named "enum @a.h:1:12", none, some 0, false, none⟩,
          ⟨"y", .named "enum @a.h:1:12", none, some 32, false, none⟩] }], true⟩

/-- Each member is written with the body of the enum, and its enumerators are defined twice. -/
theorem twiceSource_twice : ∃ interface written header, twiceSource.interface = .ok interface ∧
    (Corpus.ofTable twiceTable).table = interface.table ∧
    Header.render (.ofTable twiceTable) [] .default "svcall.h" = .ok written ∧
    Header.draft (.ofTable twiceTable) [] .default "svcall.h" = .ok header ∧ Draft.text header = written ∧
    header.bodies.map Tagged.key = ["struct s", "enum @a.h:1:12", "enum @a.h:1:12"] ∧
    (header.bodies.flatMap (·.toTypeDef.enumerators)).count ("A" : Text) = 2 := by
  have htable : twiceSource.interface.toOption.map Interface.table = some twiceTable := by decide +kernel
  obtain ⟨interface, hinterface, htable⟩ := exists_of_toOption_map htable
  have hok : (Header.render (.ofTable twiceTable) [] .default "svcall.h").toOption.isSome = true := by decide
  obtain ⟨written, hwritten⟩ := exists_of_isSome hok
  obtain ⟨header, hdraft, hdrafted⟩ := Header.render_drafted hwritten
  have hbodies : (Header.draft (.ofTable twiceTable) [] .default "svcall.h").toOption.map (fun header =>
      (header.bodies.map Tagged.key, (header.bodies.flatMap (·.toTypeDef.enumerators)).count ("A" : Text))) =
      some (([ "struct s", "enum @a.h:1:12", "enum @a.h:1:12"] : List Text), 2) := by decide
  rw [hdraft] at hbodies
  obtain ⟨hkeys, hcount⟩ := Prod.mk.inj (Option.some.inj hbodies)
  exact ⟨interface, written, header, hinterface, htable.symm, hwritten, hdraft, hdrafted.text, hkeys, hcount⟩

end TrapStub
