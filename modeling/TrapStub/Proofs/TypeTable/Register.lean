import Mathlib.Data.List.Nodup
import TrapStub.TypeTable

/-!
# What registering does to the table

Registering leaves the table as it is or puts the definition at its end, where at most a record that
was only named has stood under the key before. So everything but the names of records keeps its
place once it is there.

* `TypeDef.Completes`, `TypeDef.Renames`: how definitions of one key meet, with `meet_eq_complete`, `meet_eq_keep`.
* `TypeTable.register_cases`: the two outcomes.
* `TypeTable.Before`: one definition stands before another, with `Registered.before`.
* `TypeDef.holds`, `TypeTable.Embeds`: what a definition holds by value, with `Registered.holds_before`.
* `TypeTable.Settled`: a key has a definition that stays as it is, with `Registered.settled`.
-/

namespace TrapStub

namespace CType

/-- The key that a type holds by value, behind qualifiers and in arrays. -/
def held : CType → Option Text
  | named key => some key
  | array element _ => held element
  | qualified base _ _ => held base
  | void | scalar _ | pointer _ | function _ _ _ => none

theorem held_unqualified : ∀ t : CType, t.unqualified.held = t.held
  | .qualified base _ _ => held_unqualified base
  | .void => rfl
  | .scalar _ => rfl
  | .pointer _ => rfl
  | .named _ => rfl
  | .array _ _ => rfl
  | .function _ _ _ => rfl

theorem held_of_unqualified {t u : CType} (h : t.unqualified = u.unqualified) : t.held = u.held := by
  rw [← t.held_unqualified, ← u.held_unqualified, h]

theorem mem_keys_of_held {key : Text} : ∀ {t : CType}, t.held = some key → key ∈ t.keys
  | .named _, h => by
    rw [held, Option.some.injEq] at h
    exact h ▸ List.mem_singleton_self _
  | .array element _, h => mem_keys_of_held (t := element) h
  | .qualified base _ _, h => mem_keys_of_held (t := base) h

theorem held_of_no_keys {t : CType} (h : t.keys = []) : t.held = none := by
  refine Option.eq_none_iff_forall_ne_some.2 fun key hheld => ?_
  have hmem := mem_keys_of_held hheld
  rw [h] at hmem
  cases hmem

end CType

namespace TypeDef

/-- The keys that a definition mentions, in its members or in its target. -/
def mentions : TypeDef → List Text
  | record r => (r.members.getD []).flatMap (·.type.keys)
  | enumeration _ => []
  | typedef a => a.target.keys

/-- The keys that a definition holds by value. -/
def holds : TypeDef → List Text
  | record r => (r.members.getD []).filterMap (·.type.held)
  | enumeration _ => []
  | typedef a => a.target.held.toList

/-- The enumerators of a definition. -/
def enumerators : TypeDef → List Text
  | enumeration e => e.variants.map (·.1)
  | _ => []

def isRecord : TypeDef → Bool
  | record _ => true
  | _ => false

/-- The definition is that of a record which is only named. -/
def isForward : TypeDef → Bool
  | record r => !r.isComplete
  | _ => false

variable {earlier later : TypeDef} {key : Text}

theorem mentions_of_holds : ∀ {d : TypeDef}, key ∈ d.holds → key ∈ d.mentions
  | record _, h => by
    obtain ⟨m, hm, hheld⟩ := List.mem_filterMap.1 h
    exact List.mem_flatMap.2 ⟨m, hm, CType.mem_keys_of_held hheld⟩
  | typedef _, h => CType.mem_keys_of_held (Option.mem_toList.1 h)

/-- What is only named holds nothing. -/
theorem isForward_of_holds : ∀ {d : TypeDef}, key ∈ d.holds → d.isForward = false
  | record r, h => by
    obtain ⟨m, hm, -⟩ := List.mem_filterMap.1 h
    cases hmembers : r.members with
    | none =>
      rw [hmembers] at hm
      cases hm
    | some members => rw [isForward, Record.isComplete, hmembers]; rfl
  | typedef _, _ => rfl

theorem isRecord_withoutComment (d : TypeDef) : d.withoutComment.isRecord = d.isRecord := by
  cases d <;> rfl

theorem isForward_withoutComment (d : TypeDef) : d.withoutComment.isForward = d.isForward := by
  cases d <;> rfl

theorem enumerators_withoutComment (d : TypeDef) : d.withoutComment.enumerators = d.enumerators := by
  cases d <;> rfl

theorem isForward_of_enumerators {d : TypeDef} (h : key ∈ d.enumerators) : d.isForward = false := by
  cases d with
  | record r => cases h
  | enumeration e => rfl
  | typedef a => rfl

theorem isRecord_of_isForward {d : TypeDef} (h : d.isForward = true) : d.isRecord = true := by
  cases d with
  | record r => rfl
  | enumeration e => cases h
  | typedef a => cases h

theorem enumerators_of_isRecord {d : TypeDef} (h : d.isRecord = true) : d.enumerators = [] := by
  cases d with
  | record r => rfl
  | enumeration e => cases h
  | typedef a => cases h

/-! ## Definitions that meet -/

/-- The later definition completes the earlier one, a record that was only named. -/
def Completes (earlier later : TypeDef) : Prop :=
  earlier.isForward = true ∧ later.isRecord = true ∧ later.isForward = false

/-- The later definition only names a record that is complete. -/
def Renames (earlier later : TypeDef) : Prop :=
  earlier.isRecord = true ∧ earlier.isForward = false ∧ later.isForward = true

theorem sameShape_iff : earlier.sameShape later = true ↔ earlier.withoutComment = later.withoutComment := by
  simp [sameShape]

theorem isRecord_of_sameShape (h : earlier.sameShape later = true) : earlier.isRecord = later.isRecord := by
  rw [← isRecord_withoutComment earlier, sameShape_iff.1 h, isRecord_withoutComment]

theorem isForward_of_sameShape (h : earlier.sameShape later = true) : earlier.isForward = later.isForward := by
  rw [← isForward_withoutComment earlier, sameShape_iff.1 h, isForward_withoutComment]

theorem enumerators_of_sameShape (h : earlier.sameShape later = true) : earlier.enumerators = later.enumerators := by
  rw [← enumerators_withoutComment earlier, sameShape_iff.1 h, enumerators_withoutComment]

/-- What has the shape of a record is that record, its comment aside. -/
theorem eq_of_sameShape_record {r : Record} (h : earlier.sameShape (record r) = true) :
    ∃ comment, earlier = record { r with comment } := by
  have hsame := sameShape_iff.1 h
  cases earlier with
  | record r' =>
    refine ⟨r'.comment, ?_⟩
    have hrecord : { r' with comment := none } = { r with comment := none } := TypeDef.record.inj hsame
    cases r'
    cases r
    cases hrecord
    rfl
  | enumeration e => cases hsame
  | typedef a => cases hsame

theorem meet_eq_complete : earlier.meet later = .complete ↔ earlier.Completes later := by
  constructor
  · intro h
    unfold meet at h
    split at h
    · cases h
    · split at h
      · rename_i r s _
        cases hr : r.isComplete <;> cases hs : s.isComplete <;> simp [Completes, isForward, isRecord, hr, hs] at h ⊢
      · cases h
  · rintro ⟨hearlier, hrecord, hlater⟩
    have hdiffer : earlier.sameShape later = false := by
      rw [Bool.eq_false_iff]
      intro hsame
      rw [isForward_of_sameShape hsame, hlater] at hearlier
      cases hearlier
    unfold meet
    rw [hdiffer, if_neg Bool.false_ne_true]
    cases earlier <;> cases later <;> simp_all [isForward, isRecord]

theorem meet_eq_keep : earlier.meet later = .keep ↔ earlier.sameShape later = true ∨ earlier.Renames later := by
  unfold meet
  cases hsame : earlier.sameShape later with
  | true => simp
  | false =>
    rw [if_neg Bool.false_ne_true]
    cases earlier with
    | record r =>
      cases later with
      | record r' =>
        cases hr : r.isComplete <;> cases hr' : r'.isComplete <;> simp [Renames, isForward, isRecord, hr, hr']
      | enumeration e => simp [Renames, isForward]
      | typedef a => simp [Renames, isForward]
    | enumeration e => simp [Renames, isRecord]
    | typedef a => simp [Renames, isRecord]

/-- What stays when a definition is registered again is no less than the definition. -/
theorem meet_keep (h : earlier.meet later = .keep) :
    earlier.isRecord = later.isRecord ∧ (later.isForward = false → earlier.isForward = false) := by
  rcases meet_eq_keep.1 h with hsame | ⟨hrecord, hearlier, hlater⟩
  · exact ⟨isRecord_of_sameShape hsame, fun hforward => (isForward_of_sameShape hsame).trans hforward⟩
  · exact ⟨hrecord.trans (isRecord_of_isForward hlater).symm, fun _ => hearlier⟩

/-- What stays has the enumerators of what is registered again. -/
theorem enumerators_of_meet_keep (h : earlier.meet later = .keep) : earlier.enumerators = later.enumerators := by
  rcases meet_eq_keep.1 h with hsame | ⟨hrecord, -, hlater⟩
  · exact enumerators_of_sameShape hsame
  · rw [enumerators_of_isRecord hrecord, enumerators_of_isRecord (isRecord_of_isForward hlater)]

/-- What stays in the place of a complete record is the same record, its comment aside. -/
theorem eq_of_meet_keep {r : Record} (hr : r.isComplete = true) (h : earlier.meet (record r) = .keep) :
    ∃ comment, earlier = record { r with comment } := by
  refine eq_of_sameShape_record ((meet_eq_keep.1 h).resolve_right fun hrenames => ?_)
  have hforward := hrenames.2.2
  rw [isForward, hr] at hforward
  cases hforward

end TypeDef

namespace TypeTable

variable {table table' : TypeTable} {stored a b d : TypeDef} {key : Text}

theorem get?_eq_some_mem (h : table.get? key = some d) : d ∈ table.entries ∧ d.key = key := by
  have hkey := List.find?_some h
  exact ⟨List.mem_of_find?_eq_some h, by simpa using hkey⟩

theorem contains_iff : table.contains key = true ↔ ∃ d ∈ table.entries, d.key = key := by
  unfold contains get?
  rw [List.find?_isSome]
  simp

theorem get?_of_mem (hn : table.keys.Nodup) (hd : d ∈ table.entries) : table.get? d.key = some d := by
  cases h : table.get? d.key with
  | none =>
    have hnone := List.find?_eq_none.1 h d hd
    exact absurd (beq_self_eq_true d.key) hnone
  | some e =>
    obtain ⟨he, hkey⟩ := get?_eq_some_mem h
    rw [List.inj_on_of_nodup_map hn he hd hkey]

/-- The definition holds the key by value, directly or by typedefs of the table. -/
inductive Embeds (table : TypeTable) : TypeDef → Text → Prop
  | held {d : TypeDef} {key : Text} (h : key ∈ d.holds) : Embeds table d key
  | typedef {d : TypeDef} {a : Typedef} {key : Text} (ha : .typedef a ∈ table.entries) (h : a.key ∈ d.holds)
      (hn : Embeds table (.typedef a) key) : Embeds table d key

/-- Only the name of a record makes room for another definition under its key. -/
theorem key_ne_of_new (hnew : ∀ earlier, table.get? d.key = some earlier → earlier.isForward = true)
    (hget : table.get? a.key = some a) (ha : a.isForward = false) : a.key ≠ d.key := by
  intro hkey
  have hforward := hnew a (hkey ▸ hget)
  rw [ha] at hforward
  cases hforward

/-- What registering a definition leads to. -/
inductive Registered (table : TypeTable) (d : TypeDef) : TypeTable → Prop
  | kept {earlier : TypeDef} (hget : table.get? d.key = some earlier) (hmeet : earlier.meet d = .keep) :
      Registered table d table
  | placed (hnew : ∀ earlier, table.get? d.key = some earlier →
      earlier.isForward = true ∧ d.isRecord = true ∧ d.isForward = false) : Registered table d (table.placeLast d)

theorem register_cases (h : table.register d = .ok (table', stored)) : Registered table d table' := by
  unfold register at h
  split at h
  · cases h
  · split at h
    · rename_i hnone
      cases h
      exact .placed fun earlier hget => by rw [hnone] at hget; cases hget
    · rename_i earlier hget
      cases hmeet : earlier.meet d with
      | keep =>
        rw [hmeet] at h
        cases h
        exact .kept hget hmeet
      | complete =>
        rw [hmeet] at h
        cases h
        refine .placed fun other hother => ?_
        obtain rfl : earlier = other := Option.some.inj (hget.symm.trans hother)
        exact TypeDef.meet_eq_complete.1 hmeet
      | conflict => rw [hmeet] at h; cases h

/-- One definition stands before another in the table. -/
def Before (table : TypeTable) (a b : TypeDef) : Prop := [a, b].Sublist table.entries

/-- The key has a definition that stays as it is. -/
def Settled (table : TypeTable) (key : Text) : Prop := ∃ d, table.get? key = some d ∧ d.isForward = false

/-- The key is that of a record with its members. -/
def Complete (table : TypeTable) (key : Text) : Prop :=
  ∃ r : Record, table.get? key = some (.record r) ∧ r.isComplete = true

/-- The key is that of a record which stands before the definition, with its members. -/
def CompleteBefore (table : TypeTable) (key : Text) (d : TypeDef) : Prop :=
  ∃ r : Record, r.isComplete = true ∧ r.key = key ∧ table.Before (.record r) d

theorem Before.mem (h : table.Before a b) : a ∈ table.entries ∧ b ∈ table.entries :=
  ⟨h.subset List.mem_cons_self, h.subset (List.mem_cons_of_mem a List.mem_cons_self)⟩

theorem mem_placeLast : a ∈ (table.placeLast d).entries ↔ a ∈ table.entries ∧ a.key ≠ d.key ∨ a = d := by
  simp [placeLast]

theorem before_placeLast (h : table.Before a b) (ha : a.key ≠ d.key) (hb : b.key ≠ d.key) :
    (table.placeLast d).Before a b := by
  have hfilter := h.filter (·.key != d.key)
  have hboth : [a, b].filter (·.key != d.key) = [a, b] := by simp [ha, hb]
  rw [hboth] at hfilter
  exact hfilter.trans (List.sublist_append_left _ _)

/-- Where no key stands twice, the definitions stand in a line. -/
theorem Before.trans {c : TypeDef} (hn : table.keys.Nodup) (hab : table.Before a b) (hbc : table.Before b c) :
    table.Before a c := by
  obtain ⟨start, rest, heq, ha, hb⟩ := List.cons_sublist_iff.1 hab
  obtain ⟨start', rest', heq', hb', hc⟩ := List.cons_sublist_iff.1 hbc
  have hb := List.singleton_sublist.1 hb
  have hdistinct : table.entries.Nodup := List.Nodup.of_map _ hn
  unfold Before
  -- `b` is in the rest behind `a` and in the start before `c`, so the start reaches past `a`
  rcases List.append_eq_append_iff.1 (heq.symm.trans heq') with ⟨between, rfl, -⟩ | ⟨between, rfl, -⟩
  · rw [heq']
    exact (List.singleton_sublist.2 (List.mem_append_left between ha)).append hc
  · rw [heq] at hdistinct
    have hdisjoint := List.disjoint_of_nodup_append hdistinct
    exact absurd hb (hdisjoint (List.mem_append_left between hb'))

theorem CompleteBefore.trans (hn : table.keys.Nodup) (h : table.CompleteBefore key a) (hab : table.Before a b) :
    table.CompleteBefore key b := by
  obtain ⟨r, hr, hkey, hbefore⟩ := h
  exact ⟨r, hr, hkey, hbefore.trans hn hab⟩

/-- The definition at the end has all others before it. -/
theorem before_last (ha : a ∈ table.entries) (hkey : a.key ≠ d.key) : (table.placeLast d).Before a d := by
  have hmem : a ∈ table.entries.filter (·.key != d.key) := List.mem_filter.2 ⟨ha, by simpa using hkey⟩
  exact (List.singleton_sublist.2 hmem).append (List.Sublist.refl [d])

namespace Registered

variable (h : Registered table d table')

include h

theorem of_mem (ha : a ∈ table'.entries) : a ∈ table.entries ∨ a = d := by
  cases h with
  | kept => exact Or.inl ha
  | placed => exact (mem_placeLast.1 ha).imp_left And.left

theorem keys_nodup (hn : table.keys.Nodup) : table'.keys.Nodup := by
  cases h with
  | kept => exact hn
  | placed =>
    unfold TypeTable.keys placeLast
    rw [List.map_append, List.map_singleton]
    refine List.Nodup.append (hn.sublist (List.filter_sublist.map _)) (List.nodup_singleton _) ?_
    intro key hkey hlast
    obtain ⟨a, ha, rfl⟩ := List.mem_map.1 hkey
    have hne := (List.mem_filter.1 ha).2
    rw [List.mem_singleton] at hlast
    simp [hlast] at hne

/-- What the key stands for afterwards is a record if the definition is, and complete if the definition is. -/
theorem entry (hn : table.keys.Nodup) : ∃ e, table'.get? d.key = some e ∧ e.isRecord = d.isRecord ∧
    (d.isForward = false → e.isForward = false) := by
  have hn' := keys_nodup h hn
  cases h with
  | kept hget hmeet => exact ⟨_, hget, TypeDef.meet_keep hmeet⟩
  | placed => exact ⟨d, get?_of_mem hn' (mem_placeLast.2 (Or.inr rfl)), rfl, id⟩

theorem settled_key (hn : table.keys.Nodup) (hd : d.isForward = false) : table'.Settled d.key := by
  obtain ⟨e, hget, -, he⟩ := entry h hn
  exact ⟨e, hget, he hd⟩

theorem complete_key (hn : table.keys.Nodup) (hrecord : d.isRecord = true) (hd : d.isForward = false) :
    table'.Complete d.key := by
  obtain ⟨e, hget, he, hforward⟩ := entry h hn
  rw [hrecord] at he
  cases e with
  | record r => exact ⟨r, hget, by simpa [TypeDef.isForward] using hforward hd⟩
  | enumeration e => cases he
  | typedef a => cases he

theorem contains_key : table'.contains d.key = true := by
  cases h with
  | kept hget =>
    rw [contains, hget]
    rfl
  | placed => exact contains_iff.2 ⟨d, mem_placeLast.2 (Or.inr rfl), rfl⟩

theorem contains_mono (hkey : table.contains key = true) : table'.contains key = true := by
  cases h with
  | kept => exact hkey
  | placed =>
    obtain ⟨a, ha, rfl⟩ := contains_iff.1 hkey
    by_cases had : a.key = d.key
    · exact contains_iff.2 ⟨d, mem_placeLast.2 (Or.inr rfl), had.symm⟩
    · exact contains_iff.2 ⟨a, mem_placeLast.2 (Or.inl ⟨ha, had⟩), rfl⟩

/-- **A definition that is more than the name of a record stays.** -/
theorem get?_of_settled (hn : table.keys.Nodup) (hget : table.get? key = some a) (ha : a.isForward = false) :
    table'.get? key = some a := by
  have hn' := keys_nodup h hn
  cases h with
  | kept => exact hget
  | placed hnew =>
    obtain ⟨hmem, rfl⟩ := get?_eq_some_mem hget
    have hkey := key_ne_of_new (fun earlier hget => (hnew earlier hget).1) hget ha
    exact get?_of_mem hn' (mem_placeLast.2 (Or.inl ⟨hmem, hkey⟩))

theorem settled (hn : table.keys.Nodup) (hkey : table.Settled key) : table'.Settled key := by
  obtain ⟨a, hget, ha⟩ := hkey
  exact ⟨a, get?_of_settled h hn hget ha, ha⟩

theorem complete (hn : table.keys.Nodup) (hkey : table.Complete key) : table'.Complete key := by
  obtain ⟨r, hget, hr⟩ := hkey
  exact ⟨r, get?_of_settled h hn hget (by rw [TypeDef.isForward, hr]; rfl), hr⟩

/-- No enumerator is lost, and those of the definition are there. -/
theorem enumerators (hn : table.keys.Nodup) (ha : a ∈ table.entries ∨ a = d) (hkey : key ∈ a.enumerators) :
    ∃ b ∈ table'.entries, key ∈ b.enumerators := by
  rcases ha with ha | rfl
  · have hget := get?_of_settled h hn (get?_of_mem hn ha) (TypeDef.isForward_of_enumerators hkey)
    exact ⟨a, (get?_eq_some_mem hget).1, hkey⟩
  · cases h with
    | kept hget hmeet => exact ⟨_, (get?_eq_some_mem hget).1, TypeDef.enumerators_of_meet_keep hmeet ▸ hkey⟩
    | placed => exact ⟨a, mem_placeLast.2 (Or.inr rfl), hkey⟩

/-- **Of two definitions that stay, one keeps its place before the other.** -/
theorem before (hn : table.keys.Nodup) (hab : table.Before a b) (ha : a.isForward = false) (hb : b.isForward = false) :
    table'.Before a b := by
  cases h with
  | kept => exact hab
  | placed hnew =>
    have hnew := fun earlier hget => (hnew earlier hget).1
    exact before_placeLast hab (key_ne_of_new hnew (get?_of_mem hn hab.mem.1) ha)
      (key_ne_of_new hnew (get?_of_mem hn hab.mem.2) hb)

theorem completeBefore (hn : table.keys.Nodup) (hkey : table.CompleteBefore key a) (ha : a.isForward = false) :
    table'.CompleteBefore key a := by
  obtain ⟨r, hr, hkey, hbefore⟩ := hkey
  exact ⟨r, hr, hkey, before h hn hbefore (by rw [TypeDef.isForward, hr]; rfl) ha⟩

end Registered

theorem Embeds.of_freeze (h : table.freeze.Embeds d key) : table.Embeds d key := by
  induction h with
  | held h => exact .held h
  | typedef ha h _ ih => exact .typedef ha h ih

/-- What is complete stands before a definition that is new at the end. -/
theorem completeBefore_placeLast (hkey : table.Complete key)
    (hnew : ∀ earlier, table.get? d.key = some earlier → earlier.isForward = true) :
    (table.placeLast d).CompleteBefore key d := by
  obtain ⟨r, hget, hr⟩ := hkey
  obtain ⟨hmem, rfl⟩ := get?_eq_some_mem hget
  exact ⟨r, hr, rfl, before_last hmem (key_ne_of_new hnew hget (by rw [TypeDef.isForward, hr]; rfl))⟩

/-- **A definition enters the table behind what it holds.** This is kept for all keys of interest if those of
the new definition are complete. -/
theorem Registered.holds_before {P : TypeDef → Text → Prop} (h : Registered table d table') (hn : table.keys.Nodup)
    (ht : ∀ e ∈ table.entries, ∀ key ∈ e.holds, P e key → table.CompleteBefore key e)
    (hd : ∀ key ∈ d.holds, P d key → table.Complete key) :
    ∀ e ∈ table'.entries, ∀ key ∈ e.holds, P e key → table'.CompleteBefore key e := by
  intro e he key hkey hP
  have hold : e ∈ table.entries → table'.CompleteBefore key e :=
    fun hold => h.completeBefore hn (ht e hold key hkey hP) (TypeDef.isForward_of_holds hkey)
  cases h with
  | kept => exact hold he
  | placed hnew =>
    rcases mem_placeLast.1 he with ⟨he, -⟩ | rfl
    · exact hold he
    · exact completeBefore_placeLast (hd key hkey hP) fun earlier hget => (hnew earlier hget).1

end TypeTable

end TrapStub
