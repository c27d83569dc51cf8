import TrapStub.Proofs.Header.Draft
import TrapStub.Proofs.Header.Spelling
import TrapStub.Proofs.TypeTable.Register

/-!
# The bodies that writing a type writes

An anonymous definition without a name is written with its body wherever its key is spelled, and so are the
anonymous definitions that its members mention.

* `Speller.bodies`: the bodies that spelling some keys writes, each as often as it is written.
* `Speller.declareDraft_text`, `Speller.declareDraft_bodies`: a declaration with the bodies noted reads as the
  declaration does, and notes these bodies. `Speller.bodyDraft_text`, `Speller.bodyDraft_bodies`: so does a body.
* `Speller.bodiesWithin_succ`: what is written in one more layer is what the bodies written so far mention.
* `Speller.bodies_closed`: **where the writing ends, the bodies that are written hold all that they mention.**
-/

namespace TrapStub

/-- The body that a note is about. -/
def Note.body? : Note → Option Tagged
  | body definition => some definition
  | _ => none

/-- The notes of these bodies. -/
def Note.bodies (definitions : List Tagged) : List Note := definitions.map Note.body

@[simp] theorem Note.bodies_append (a b : List Tagged) : bodies (a ++ b) = bodies a ++ bodies b := List.map_append

theorem Note.filterMap_bodies (definitions : List Tagged) : (bodies definitions).filterMap body? = definitions := by
  unfold bodies
  rw [List.filterMap_map]
  exact List.filterMap_some

theorem Note.bodies_flatMap {α : Type} (l : List α) (f : α → List Tagged) :
    bodies (l.flatMap f) = l.flatMap fun a => bodies (f a) := List.map_flatMap ..

namespace Tagged

open Draft

/-- The definition as it stands in a table. -/
def toTypeDef : Tagged → TypeDef
  | record r => .record r
  | enumeration e => .enumeration e

/-- The key that the definition stands under. -/
def key (definition : Tagged) : Text := definition.toTypeDef.key

/-- The keys that the definition mentions. -/
def mentions (definition : Tagged) : List Text := definition.toTypeDef.mentions

theorem ofTypeDef?_eq_some {d : TypeDef} {definition : Tagged} :
    ofTypeDef? d = some definition ↔ definition.toTypeDef = d := by
  cases d <;> cases definition <;> simp [ofTypeDef?, toTypeDef, eq_comm]

/-- A body with its braces, the closing one at `depth`. -/
def bracesDraft (depth : Nat) (opening : Text) (contents : List Draft) (closing : Text) : Draft :=
  unlines <|
    [plain (opening ++ " \x7b")] ++ contents.map (plain (Text.times (depth + 1) Header.indent) ++ ·) ++
    [plain (Text.times depth Header.indent ++ "\x7d" ++ closing)]

/-- The line of a member, where `spell` writes its keys. -/
def memberDraft (spell : Text → Draft) (m : Member) : Draft :=
  m.type.declareDraft spell (plain m.name) ++ plain (memberLine [] m ++ ";")

/-- The body with a note at its start, where `spell` writes its keys. -/
def draft (spell : Text → Draft) (depth : Nat) (definition : Tagged) : Draft :=
  mark (.body definition) ++ match definition with
    | enumeration e => bracesDraft depth (opening e.key e.anonymous)
        (e.variants.map fun (name, value) => plain (name ++ " = " ++ Text.decimal value ++ ",")) []
    | record r => bracesDraft depth (opening r.key r.anonymous) ((r.members.getD []).map (memberDraft spell))
        (recordAttributes r)

theorem bracesDraft_text (depth : Nat) (opening : Text) (contents : List Draft) (closing : Text) :
    text (bracesDraft depth opening contents closing) = braces depth opening (contents.map text) closing := by
  simp [bracesDraft, braces, Function.comp_def]

theorem bracesDraft_notes (depth : Nat) (opening : Text) (contents : List Draft) (closing : Text) :
    notes (bracesDraft depth opening contents closing) = contents.flatMap notes := by
  simp [bracesDraft, List.flatMap_map]

variable {f : Text → Except Fault Text} {spell : Text → Draft} {definition : Tagged} {depth : Nat}

theorem memberDraft_text (hspell : ∀ key written, f key = .ok written → text (spell key) = written)
    {m : Member} {type : CType} (h : m.type.mapNames f = .ok type) :
    text (memberDraft spell m) = memberLine (type.declare m.name) m ++ ";" := by
  simp [memberDraft, memberLine, CType.declareDraft_text hspell h]

/-- The draft of a body reads as the body does. -/
theorem draft_text (hspell : ∀ key written, f key = .ok written → text (spell key) = written)
    {written : Text} (h : definition.body f depth = .ok written) :
    text (definition.draft spell depth) = written := by
  cases definition with
  | enumeration e =>
    cases h
    simp [draft, bracesDraft_text, Function.comp_def]
  | record r =>
    unfold body at h
    cases hm : r.members with
    | none =>
      simp only [hm] at h
      cases h
    | some members =>
      simp only [hm] at h
      obtain ⟨lines, hlines, h⟩ := bind_eq_ok.1 h
      have hmembers : (members.map (memberDraft spell)).map text = lines := by
        rw [List.map_map]
        refine (map_eq_map_of_forall₂ (forall₂_imp_of_mem (mapM_eq_ok.1 hlines) ?_)).trans lines.map_id
        intro m _ line _ hline
        obtain ⟨type, htype, hline⟩ := bind_eq_ok.1 hline
        rw [← pure_eq_ok.1 hline]
        exact memberDraft_text hspell htype
      rw [← pure_eq_ok.1 h, draft, hm, text_append, text_mark, List.nil_append, bracesDraft_text,
        Option.getD_some, hmembers]

/-- The notes of a body are its own and those of the keys that it mentions. -/
theorem draft_notes (spell : Text → Draft) (depth : Nat) (definition : Tagged) :
    (notes (definition.draft spell depth)).Perm
      (.body definition :: definition.mentions.flatMap fun key => notes (spell key)) := by
  unfold draft
  rw [notes_append, notes_mark, List.singleton_append]
  refine List.Perm.cons _ ?_
  cases definition with
  | enumeration e =>
    rw [bracesDraft_notes, List.flatMap_map, List.flatMap_eq_nil_iff.2 fun v _ => notes_plain _]
    exact .nil
  | record r =>
    show (notes (bracesDraft _ _ _ _)).Perm (((r.members.getD []).flatMap (·.type.keys)).flatMap _)
    rw [bracesDraft_notes, List.flatMap_map, List.flatMap_assoc]
    refine List.Perm.flatMap_left _ fun m _ => ?_
    rw [memberDraft, notes_append, notes_plain, List.append_nil]
    refine (CType.declareDraft_notes spell m.type _).trans (List.Perm.of_eq ?_)
    rw [notes_plain, List.append_nil]

end Tagged

/-- A type that is a key but for its qualifiers mentions that key. -/
theorem CType.keys_of_unqualified {t : CType} {key : Text} (h : t.unqualified = .named key) : t.keys = [key] := by
  rw [← keys_unqualified, h]
  rfl

namespace CType

variable {ε : Type} {f : Text → Except ε Text}

mutual

/-- A type with its keys replaced has an image for each of them. -/
theorem mapNames_key {key : Text} : ∀ {t t' : CType}, t.mapNames f = .ok t' → key ∈ t.keys →
    ∃ image, f key = .ok image
  | .void, _, _, hk => absurd hk List.not_mem_nil
  | .scalar _, _, _, hk => absurd hk List.not_mem_nil
  | .pointer target, t', h, hk => by
    rw [mapNames] at h
    obtain ⟨target', ht, -⟩ := bind_eq_ok.1 h
    exact mapNames_key ht hk
  | .named name, t', h, hk => by
    rw [mapNames] at h
    obtain ⟨image, himage, -⟩ := bind_eq_ok.1 h
    rw [List.mem_singleton.1 hk]
    exact ⟨image, himage⟩
  | .array element length, t', h, hk => by
    rw [mapNames] at h
    obtain ⟨element', he, -⟩ := bind_eq_ok.1 h
    exact mapNames_key he hk
  | .function result parameters variadic, t', h, hk => by
    rw [mapNames] at h
    obtain ⟨parameters', hp, h⟩ := bind_eq_ok.1 h
    obtain ⟨result', hr, -⟩ := bind_eq_ok.1 h
    rcases List.mem_append.1 hk with hk | hk
    · exact mapNames_key hr hk
    · exact mapNamesOfAll_key hp hk
  | .qualified base const volatile, t', h, hk => by
    rw [mapNames] at h
    obtain ⟨base', hb, -⟩ := bind_eq_ok.1 h
    exact mapNames_key hb hk

theorem mapNamesOfAll_key {key : Text} : ∀ {ts ts' : List CType}, mapNamesOfAll f ts = .ok ts' →
    key ∈ keysOfAll ts → ∃ image, f key = .ok image
  | [], _, _, hk => absurd hk List.not_mem_nil
  | t :: rest, ts', h, hk => by
    rw [mapNamesOfAll] at h
    obtain ⟨t', ht, h⟩ := bind_eq_ok.1 h
    obtain ⟨rest', hr, -⟩ := bind_eq_ok.1 h
    rcases List.mem_append.1 hk with hk | hk
    · exact mapNames_key ht hk
    · exact mapNamesOfAll_key hr hk

end

end CType

/-- A body that has a text has one for every key in it. -/
theorem Tagged.body_key {f : Text → Except Fault Text} {depth : Nat} {definition : Tagged} {written key : Text}
    (h : definition.body f depth = .ok written) (hk : key ∈ definition.mentions) :
    ∃ image, f key = .ok image := by
  cases definition with
  | enumeration e => exact absurd hk List.not_mem_nil
  | record r =>
    unfold body at h
    cases hm : r.members with
    | none =>
      simp only [hm] at h
      cases h
    | some members =>
      simp only [hm] at h
      obtain ⟨lines, hlines, -⟩ := bind_eq_ok.1 h
      have hmention : key ∈ members.flatMap (·.type.keys) := by
        simpa [mentions, toTypeDef, TypeDef.mentions, hm] using hk
      obtain ⟨m, hmem, hkey⟩ := List.mem_flatMap.1 hmention
      obtain ⟨line, -, hline⟩ := forall₂_exists_of_mem_left (mapM_eq_ok.1 hlines) hmem
      obtain ⟨type, htype, -⟩ := bind_eq_ok.1 hline
      exact CType.mapNames_key htype hkey

namespace Speller

open Draft

/-- The definition that spelling a key writes in full: an anonymous one that has no name yet. -/
def inlined? (speller : Speller) (key : Text) : Option Tagged :=
  if (speller.nameOf? key).isSome then none else speller.anonymous? key

/-- The bodies that spelling a key writes, through at most so many inside each other. -/
def bodiesWithin (speller : Speller) : (limit : Nat) → Text → List Tagged
  | 0, _ => []
  | limit + 1, key =>
    match speller.inlined? key with
    | none => []
    | some definition => definition :: definition.mentions.flatMap (bodiesWithin speller limit)

/-- The bodies that spelling some keys writes. -/
def bodies (speller : Speller) (keys : List Text) : List Tagged :=
  keys.flatMap (speller.bodiesWithin speller.limit)

/-- The draft for a key at a depth of nesting. -/
def draftWithin (speller : Speller) : (limit depth : Nat) → Text → Draft
  | 0, _, _ => []
  | limit + 1, depth, key =>
    match speller.anonymous? key, speller.nameOf? key with
    | none, _ => plain key
    | some _, some name => plain name
    | some definition, none => definition.draft (draftWithin speller limit (depth + 1)) depth

/-- The draft of a body, its closing brace at `depth`. -/
def bodyDraft (speller : Speller) (depth : Nat) (definition : Tagged) : Draft :=
  definition.draft (speller.draftWithin speller.limit (depth + 1)) depth

/-- The draft of a declaration. -/
def declareDraft (speller : Speller) (depth : Nat) (t : CType) (name : Draft) : Draft :=
  t.declareDraft (speller.draftWithin speller.limit depth) name

variable {speller : Speller} {limit depth : Nat} {key written : Text} {keys : List Text}

theorem inlined?_eq_some {definition : Tagged} : speller.inlined? key = some definition ↔
    speller.nameOf? key = none ∧ speller.anonymous? key = some definition := by
  unfold inlined?
  cases speller.nameOf? key <;> simp

/-- What is written in full stands in the table, under its key, and has no name of its own. -/
theorem inlined?_entry {definition : Tagged} (h : speller.inlined? key = some definition) :
    definition.key = key ∧ definition.toTypeDef ∈ speller.table.entries ∧
      definition.toTypeDef.isAnonymous = true := by
  obtain ⟨d, hget, hanon, hd⟩ := anonymous?_eq_some.1 (inlined?_eq_some.1 h).2
  obtain ⟨hmem, hkey⟩ := TypeTable.get?_eq_some_mem hget
  obtain rfl := Tagged.ofTypeDef?_eq_some.1 hd
  exact ⟨hkey, hmem, hanon⟩

theorem bodiesWithin_zero (key : Text) : speller.bodiesWithin 0 key = [] := rfl

theorem bodiesWithin_of_none (h : speller.inlined? key = none) (limit : Nat) :
    speller.bodiesWithin limit key = [] := by
  cases limit with
  | zero => rfl
  | succ limit => rw [bodiesWithin, h]

theorem bodiesWithin_of_some {definition : Tagged} (h : speller.inlined? key = some definition) (limit : Nat) :
    speller.bodiesWithin (limit + 1) key =
      definition :: definition.mentions.flatMap (speller.bodiesWithin limit) := by
  rw [bodiesWithin, h]

/-- Every body that is written is that of an anonymous definition without a name. -/
theorem inlined?_of_mem {d : Tagged} : ∀ {limit : Nat} {key : Text}, d ∈ speller.bodiesWithin limit key →
    speller.inlined? d.key = some d
  | 0, _, h => absurd h List.not_mem_nil
  | limit + 1, key, h => by
    cases hk : speller.inlined? key with
    | none =>
      rw [bodiesWithin_of_none hk] at h
      cases h
    | some definition =>
      rw [bodiesWithin_of_some hk] at h
      rcases List.mem_cons.1 h with rfl | h
      · rw [(inlined?_entry hk).1]
        exact hk
      · obtain ⟨inner, -, h⟩ := List.mem_flatMap.1 h
        exact inlined?_of_mem h

/-! ### Drafts -/

/-- The draft of a key reads as the key is spelled. -/
theorem draftWithin_text : ∀ (limit depth : Nat) (key written : Text),
    speller.spellWithin limit depth key = .ok written → text (speller.draftWithin limit depth key) = written
  | 0, _, _, _, h => by cases h
  | limit + 1, depth, key, written, h => by
    unfold spellWithin at h
    unfold draftWithin
    cases ha : speller.anonymous? key with
    | none =>
      simp only [ha] at h
      cases h
      exact text_plain _
    | some definition =>
      cases hn : speller.nameOf? key with
      | some name =>
        simp only [ha, hn] at h
        cases h
        exact text_plain _
      | none =>
        simp only [ha, hn] at h
        exact Tagged.draft_text (draftWithin_text limit (depth + 1)) h

/-- The draft of a key notes the bodies that spelling it writes. -/
theorem draftWithin_bodies : ∀ (limit depth : Nat) (key : Text),
    (notes (speller.draftWithin limit depth key)).Perm (Note.bodies (speller.bodiesWithin limit key))
  | 0, _, _ => .nil
  | limit + 1, depth, key => by
    unfold draftWithin
    cases ha : speller.anonymous? key with
    | none =>
      rw [bodiesWithin_of_none (by simp [inlined?, ha])]
      exact .of_eq (notes_plain _)
    | some definition =>
      cases hn : speller.nameOf? key with
      | some name =>
        rw [bodiesWithin_of_none (by simp [inlined?, hn])]
        exact .of_eq (notes_plain _)
      | none =>
        rw [bodiesWithin_of_some (inlined?_eq_some.2 ⟨hn, ha⟩)]
        refine (Tagged.draft_notes _ depth definition).trans (List.Perm.cons _ ?_)
        rw [List.map_flatMap]
        exact List.Perm.flatMap_left _ fun inner _ => draftWithin_bodies limit (depth + 1) inner

/-- Spelling keys one by one notes the bodies that spelling all of them writes. -/
theorem spelled_bodies (speller : Speller) (depth : Nat) (keys : List Text) :
    (keys.flatMap fun key => notes (speller.draftWithin speller.limit depth key)).Perm
      (Note.bodies (speller.bodies keys)) := by
  rw [bodies, Note.bodies_flatMap]
  exact List.Perm.flatMap_left _ fun key _ => draftWithin_bodies _ depth key

theorem declareDraft_text {t : CType} {name : Draft} (h : speller.declare depth t (text name) = .ok written) :
    text (speller.declareDraft depth t name) = written := by
  obtain ⟨t', ht, h⟩ := bind_eq_ok.1 h
  rw [← pure_eq_ok.1 h]
  exact CType.declareDraft_text (draftWithin_text speller.limit depth) ht name

theorem declareDraft_bodies (speller : Speller) (depth : Nat) (t : CType) (name : Draft) :
    (notes (speller.declareDraft depth t name)).Perm (Note.bodies (speller.bodies t.keys) ++ notes name) :=
  (CType.declareDraft_notes _ t name).trans ((speller.spelled_bodies depth t.keys).append_right _)

theorem bodyDraft_text {definition : Tagged} (h : speller.body depth definition = .ok written) :
    text (speller.bodyDraft depth definition) = written :=
  Tagged.draft_text (draftWithin_text speller.limit (depth + 1)) h

theorem bodyDraft_bodies (speller : Speller) (depth : Nat) (definition : Tagged) :
    (notes (speller.bodyDraft depth definition)).Perm
      (Note.bodies (definition :: speller.bodies definition.mentions)) :=
  (Tagged.draft_notes _ depth definition).trans
    ((speller.spelled_bodies (depth + 1) definition.mentions).cons _)

/-! ### Layers -/

/-- **One more layer of bodies** holds what the bodies above it mention. -/
theorem bodiesWithin_succ : ∀ (limit : Nat) (key : Text), (speller.bodiesWithin (limit + 1) key).Perm
    ((speller.inlined? key).toList ++
      ((speller.bodiesWithin limit key).flatMap Tagged.mentions).filterMap speller.inlined?)
  | 0, key => by
    cases hk : speller.inlined? key with
    | none => simp [bodiesWithin_of_none hk]
    | some definition => simp [bodiesWithin_of_some hk, bodiesWithin_zero]
  | limit + 1, key => by
    cases hk : speller.inlined? key with
    | none => simp [bodiesWithin_of_none hk]
    | some definition =>
      rw [bodiesWithin_of_some hk (limit + 1), bodiesWithin_of_some hk limit, Option.toList_some,
        List.singleton_append, List.flatMap_cons, List.filterMap_append, List.flatMap_assoc]
      refine List.Perm.cons _ ?_
      refine (List.Perm.flatMap_left _ fun inner _ => bodiesWithin_succ limit inner).trans ?_
      refine (List.flatMap_append_perm _ _ _).symm.trans (List.Perm.of_eq ?_)
      rw [List.filterMap_eq_flatMap_toList, List.filterMap_flatMap]

/-- Where spelling ends, the body of what is inlined is written. -/
theorem mem_bodiesWithin {definition : Tagged} (hk : speller.inlined? key = some definition)
    (h : speller.spellWithin limit depth key = .ok written) : definition ∈ speller.bodiesWithin limit key := by
  cases limit with
  | zero => cases h
  | succ limit =>
    rw [bodiesWithin_of_some hk]
    exact List.mem_cons_self

/-- Inside a body that is written, every key is spelled. -/
theorem spellWithin_inner {definition : Tagged} (hk : speller.inlined? key = some definition)
    (h : speller.spellWithin (limit + 1) depth key = .ok written) {inner : Text}
    (hinner : inner ∈ definition.mentions) : ∃ image, speller.spellWithin limit (depth + 1) inner = .ok image := by
  obtain ⟨hn, ha⟩ := inlined?_eq_some.1 hk
  unfold spellWithin at h
  simp only [ha, hn] at h
  exact Tagged.body_key h hinner

/-- **Where spelling ends, what a written body mentions is written** if it has no name. -/
theorem bodiesWithin_closed : ∀ {limit depth : Nat} {key written : Text},
    speller.spellWithin limit depth key = .ok written → ∀ {d d' : Tagged} {inner : Text},
    d ∈ speller.bodiesWithin limit key → inner ∈ d.mentions → speller.inlined? inner = some d' →
    d' ∈ speller.bodiesWithin limit key
  | 0, _, _, _, h, _, _, _, _, _, _ => by cases h
  | limit + 1, depth, key, written, h, d, d', inner, hd, hinner, hd' => by
    cases hk : speller.inlined? key with
    | none =>
      rw [bodiesWithin_of_none hk] at hd
      cases hd
    | some definition =>
      rw [bodiesWithin_of_some hk] at hd ⊢
      refine List.mem_cons_of_mem _ (List.mem_flatMap.2 ?_)
      rcases List.mem_cons.1 hd with rfl | hd
      · obtain ⟨image, himage⟩ := spellWithin_inner hk h hinner
        exact ⟨inner, hinner, mem_bodiesWithin hd' himage⟩
      · obtain ⟨outer, houter, hd⟩ := List.mem_flatMap.1 hd
        obtain ⟨image, himage⟩ := spellWithin_inner hk h houter
        exact ⟨outer, houter, bodiesWithin_closed himage hd hinner hd'⟩

/-- The keys have texts. -/
def Spells (speller : Speller) (keys : List Text) : Prop :=
  ∀ key ∈ keys, ∃ depth written, speller.spell depth key = .ok written

theorem spells_of_declare {t : CType} {name : Text} (h : speller.declare depth t name = .ok written) :
    speller.Spells t.keys := by
  obtain ⟨t', ht, -⟩ := bind_eq_ok.1 h
  exact fun key hk => ⟨depth, CType.mapNames_key ht hk⟩

theorem spells_of_body {definition : Tagged} (h : speller.body depth definition = .ok written) :
    speller.Spells definition.mentions :=
  fun _ hk => ⟨depth + 1, Tagged.body_key h hk⟩

/-- The roots of a writing are written, unless they have names. -/
theorem mem_bodies (h : speller.Spells keys) {definition : Tagged} (hkey : key ∈ keys)
    (hk : speller.inlined? key = some definition) : definition ∈ speller.bodies keys := by
  obtain ⟨depth, written, hw⟩ := h key hkey
  exact List.mem_flatMap.2 ⟨key, hkey, mem_bodiesWithin hk hw⟩

theorem bodies_closed (h : speller.Spells keys) {d d' : Tagged} {inner : Text} (hd : d ∈ speller.bodies keys)
    (hinner : inner ∈ d.mentions) (hd' : speller.inlined? inner = some d') : d' ∈ speller.bodies keys := by
  obtain ⟨key, hkey, hd⟩ := List.mem_flatMap.1 hd
  obtain ⟨depth, written, hw⟩ := h key hkey
  exact List.mem_flatMap.2 ⟨key, hkey, bodiesWithin_closed hw hd hinner hd'⟩

end Speller

end TrapStub
