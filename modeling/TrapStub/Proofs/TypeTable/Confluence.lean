import TrapStub.Proofs.TypeTable.History

/-!
# Registration in any order

Some definitions that are registered in turn, without a conflict, leave under each key what the
definitions of that key come to: the shape of those that are more than the name of a record, and
that name where there are none. This does not depend on the order, although some orders may end in a
conflict where others do not, and the entries may stand in another order.

* `TypeDef.Sums`: what the definitions of one key come to, with `Sums.keep` and `Sums.complete`.
* `TypeTable.Gathers`: a table has this under each key, kept by `Gathers.register`.
* `TypeTable.ofList_perm`: **the order of registration makes no difference** to what the keys stand for.
-/

namespace TrapStub

namespace TypeDef

variable {l l' : List TypeDef} {d d' e : TypeDef}

/-- What some definitions of one key come to: one of them, with the shape of all that are more than the name of a
record. It is only such a name if they all are, with one shape. -/
structure Sums (l : List TypeDef) (d : TypeDef) : Prop where
  mem : d ∈ l
  defined : ∀ e ∈ l, e.isForward = false → d.sameShape e = true
  named : d.isForward = true → ∀ e ∈ l, d.sameShape e = true

theorem sums_singleton (d : TypeDef) : Sums [d] d := by
  have hself : ∀ e ∈ [d], d.sameShape e = true := by
    intro e he
    rw [List.mem_singleton.1 he, sameShape_iff]
  exact ⟨List.mem_singleton_self d, fun e he _ => hself e he, fun _ => hself⟩

/-- A definition of the same shape, or the name of a record that is complete, adds nothing. -/
theorem Sums.keep (h : Sums l d) (hkeep : d.sameShape e = true ∨ d.Renames e) : Sums (l ++ [e]) d := by
  have hlast : ∀ a ∈ l ++ [e], a ∈ l ∨ a = e := fun a ha => by simpa using ha
  refine ⟨List.mem_append_left [e] h.mem, fun a ha hforward => ?_, fun hforward a ha => ?_⟩
  · rcases hlast a ha with ha | rfl
    · exact h.defined a ha hforward
    · refine hkeep.resolve_right fun hrenames => ?_
      rw [hrenames.2.2] at hforward
      cases hforward
  · rcases hlast a ha with ha | rfl
    · exact h.named hforward a ha
    · refine hkeep.resolve_right fun hrenames => ?_
      rw [hrenames.2.1] at hforward
      cases hforward

/-- A complete record takes the place of names. -/
theorem Sums.complete (h : Sums l d) (hcompletes : d.Completes e) : Sums (l ++ [e]) e := by
  obtain ⟨hd, -, he⟩ := hcompletes
  refine ⟨List.mem_append_right l (List.mem_singleton_self e), fun a ha hforward => ?_, fun hforward => ?_⟩
  · rcases List.mem_append.1 ha with ha | ha
    · -- all that came before has the shape of a name
      have hsame := isForward_of_sameShape (h.named hd a ha)
      rw [hd, hforward] at hsame
      cases hsame
    · rw [List.mem_singleton.1 ha, sameShape_iff]
  · rw [he] at hforward
    cases hforward

/-- **Definitions come to one shape**, however they are listed. -/
theorem Sums.unique (h : Sums l d) (h' : Sums l' d') (hmem : ∀ e, e ∈ l ↔ e ∈ l') : d.sameShape d' = true := by
  cases hforward : d'.isForward with
  | false => exact h.defined d' ((hmem d').2 h'.mem) hforward
  | true =>
    have hsame := h'.named hforward d ((hmem d).1 h.mem)
    rw [sameShape_iff] at hsame ⊢
    exact hsame.symm

end TypeDef

namespace TypeTable

open TypeDef

variable {table table' t u : TypeTable} {l l' : List TypeDef} {d stored : TypeDef} {key : Text}

/-- The definitions in a list that stand for a key. -/
def ofKey (l : List TypeDef) (key : Text) : List TypeDef := l.filter (·.key == key)

theorem mem_ofKey : d ∈ ofKey l key ↔ d ∈ l ∧ d.key = key := by
  simp [ofKey]

theorem ofKey_concat_self (l : List TypeDef) (d : TypeDef) : ofKey (l ++ [d]) d.key = ofKey l d.key ++ [d] := by
  simp [ofKey]

theorem ofKey_concat_of_ne (h : d.key ≠ key) : ofKey (l ++ [d]) key = ofKey l key := by
  simp [ofKey, h]

/-- The table has under each key what the definitions of that key come to. -/
structure Gathers (table : TypeTable) (l : List TypeDef) : Prop where
  nodup : table.keys.Nodup
  absent : ∀ key, table.get? key = none → ofKey l key = []
  present : ∀ key d, table.get? key = some d → Sums (ofKey l key) d

/-- **One registration** adds one definition to what the table gathers. -/
theorem Gathers.register (h : table.Gathers l) (hr : table.register d = .ok (table', stored)) :
    table'.Gathers (l ++ [d]) := by
  have hregistered := register_cases hr
  refine ⟨hregistered.keys_nodup h.nodup, fun key hnone => ?_, fun key e hget => ?_⟩
  · -- a key without an entry is not that of the definition, and had none before
    have hkey : d.key ≠ key := by
      rintro rfl
      have hcontains := hregistered.contains_key
      rw [contains, hnone] at hcontains
      cases hcontains
    have hold : table.get? key = none := by
      refine Option.not_isSome_iff_eq_none.1 fun hsome => ?_
      have hcontains : table'.contains key = true := hregistered.contains_mono hsome
      rw [contains, hnone] at hcontains
      cases hcontains
    rw [ofKey_concat_of_ne hkey]
    exact h.absent key hold
  · by_cases hkey : d.key = key
    · subst hkey
      rw [ofKey_concat_self]
      cases hregistered with
      | @kept earlier hearlier hmeet =>
        obtain rfl : earlier = e := Option.some.inj (hearlier.symm.trans hget)
        exact (h.present d.key earlier hearlier).keep (meet_eq_keep.1 hmeet)
      | placed hnew =>
        rw [get?_placeLast, if_pos rfl] at hget
        obtain rfl := Option.some.inj hget
        cases hearlier : table.get? d.key with
        | none =>
          rw [h.absent d.key hearlier]
          exact sums_singleton d
        | some earlier => exact (h.present d.key earlier hearlier).complete (hnew earlier hearlier)
    · rw [ofKey_concat_of_ne hkey]
      refine h.present key e ?_
      cases hregistered with
      | kept => exact hget
      | placed =>
        rw [get?_placeLast, if_neg (Ne.symm hkey)] at hget
        exact hget

theorem gathers_empty : empty.Gathers [] :=
  ⟨List.nodup_nil, fun _ _ => rfl, fun _ _ hget => by cases hget⟩

/-- Some registrations in turn, from a table that has gathered others. -/
theorem Gathers.foldlM (h : table.Gathers l)
    (hr : l'.foldlM (fun table d => (·.1) <$> table.register d) table = .ok t) : t.Gathers (l ++ l') := by
  induction l' generalizing table l with
  | nil =>
    obtain rfl := pure_eq_ok.1 hr
    rwa [List.append_nil]
  | cons d rest ih =>
    rw [List.foldlM_cons] at hr
    obtain ⟨next, hnext, hrest⟩ := bind_eq_ok.1 hr
    obtain ⟨⟨table', stored⟩, hregister, rfl⟩ := map_eq_ok.1 hnext
    have hgathered := ih (h.register hregister) hrest
    rwa [List.append_assoc] at hgathered

theorem ofList_gathers (h : ofList l = .ok t) : t.Gathers l :=
  gathers_empty.foldlM h

/-- The keys of a table are those of the definitions that it gathers. -/
theorem Gathers.mem_keys (h : t.Gathers l) : key ∈ t.keys ↔ ∃ d ∈ l, d.key = key := by
  constructor
  · intro hkey
    obtain ⟨e, he, rfl⟩ := List.mem_map.1 hkey
    have hsums := h.present e.key e (get?_of_mem h.nodup he)
    exact ⟨e, mem_ofKey.1 hsums.mem⟩
  · rintro ⟨d, hd, rfl⟩
    cases hget : t.get? d.key with
    | none =>
      have hnone := h.absent d.key hget
      rw [List.eq_nil_iff_forall_not_mem] at hnone
      exact absurd (mem_ofKey.2 ⟨hd, rfl⟩) (hnone d)
    | some e =>
      obtain ⟨hmem, hkey⟩ := get?_eq_some_mem hget
      rw [← hkey]
      exact List.mem_map_of_mem hmem

/-- **A complete record that was registered is there**, in its shape. -/
theorem Gathers.complete (h : t.Gathers l) {r : Record} (hr : .record r ∈ l) (hcomplete : r.isComplete = true) :
    ∃ s : Record, t.get? r.key = some (.record s) ∧ s.isComplete = true ∧
      (TypeDef.record s).sameShape (.record r) = true := by
  have hforward : (TypeDef.record r).isForward = false := by rw [isForward, hcomplete]; rfl
  have hown : .record r ∈ ofKey l r.key := mem_ofKey.2 ⟨hr, rfl⟩
  cases hget : t.get? r.key with
  | none =>
    rw [h.absent r.key hget] at hown
    cases hown
  | some e =>
    have hsame := (h.present r.key e hget).defined _ hown hforward
    obtain ⟨comment, rfl⟩ := eq_of_sameShape_record hsame
    exact ⟨_, rfl, hcomplete, hsame⟩

/-- **The order of registration makes no difference.** Two orders of some definitions, both without a conflict, lead to
tables with the same keys, those of the definitions. Comments aside the keys stand for the same definitions, and for
a complete record wherever one was registered. -/
theorem ofList_perm (hperm : l.Perm l') (ht : ofList l = .ok t) (hu : ofList l' = .ok u) :
    t.keys.Perm u.keys ∧ (∀ key, key ∈ t.keys ↔ ∃ d ∈ l, d.key = key) ∧
      (∀ key, (t.get? key).map withoutComment = (u.get? key).map withoutComment) ∧
      ∀ r : Record, .record r ∈ l → r.isComplete = true →
        ∃ s : Record, t.get? r.key = some (.record s) ∧ s.isComplete = true ∧
          (TypeDef.record s).sameShape (.record r) = true := by
  have ht := ofList_gathers ht
  have hu := ofList_gathers hu
  have hkeys : ∀ key, key ∈ t.keys ↔ key ∈ u.keys := by
    intro key
    rw [ht.mem_keys, hu.mem_keys]
    exact exists_congr fun d => and_congr_left fun _ => hperm.mem_iff
  refine ⟨(List.perm_ext_iff_of_nodup ht.nodup hu.nodup).2 hkeys, fun key => ht.mem_keys, fun key => ?_,
    fun r hr hcomplete => ht.complete hr hcomplete⟩
  have hown : ∀ e, e ∈ ofKey l key ↔ e ∈ ofKey l' key := fun e => by rw [mem_ofKey, mem_ofKey, hperm.mem_iff]
  cases hd : t.get? key with
  | none =>
    cases he : u.get? key with
    | none => rfl
    | some e =>
      -- what the one table has comes from a definition that the other has gathered too
      have hmem := (hown e).2 (hu.present key e he).mem
      rw [ht.absent key hd] at hmem
      cases hmem
  | some d =>
    cases he : u.get? key with
    | none =>
      have hmem := (hown d).1 (ht.present key d hd).mem
      rw [hu.absent key he] at hmem
      cases hmem
    | some e =>
      have hsame := (ht.present key d hd).unique (hu.present key e he) hown
      rw [Option.map_some, Option.map_some, sameShape_iff.1 hsame]

end TypeTable

/-! A list node that is named, used by a typedef, completed, and named again, before it is completed once more with
another comment; and the same in another order. -/

def nodeName : TypeDef :=
  .record
    { key := "struct node", kind := .struct, members := none, size := 0, align := 0, packed := false, aligned := false
      pack := none, anonymous := false, origin := "list.h", comment := none }

def nodeTypedef : TypeDef :=
  .typedef { key := "node_t", target := .named "struct node", origin := "list.h", comment := none }

def nodeRecord (comment : Option Text) : TypeDef :=
  .record
    { key := "struct node", kind := .struct
      members := some [⟨"next", .pointer (.named "node_t"), none, some 0, false, none⟩]
      size := 4, align := 4, packed := false, aligned := false, pack := none, anonymous := false, origin := "list.h"
      comment }

def nodeDefinitions : List TypeDef :=
  [nodeName, nodeTypedef, nodeRecord none, nodeName, nodeRecord (some "/* again */")]

def nodeReordered : List TypeDef :=
  [nodeRecord (some "/* again */"), nodeName, nodeRecord none, nodeTypedef, nodeName]

theorem nodeReordered_agrees : nodeDefinitions.Perm nodeReordered ∧
    ∃ t u, TypeTable.ofList nodeDefinitions = .ok t ∧ TypeTable.ofList nodeReordered = .ok u ∧
      t.keys = ["node_t", "struct node"] ∧ u.keys = ["struct node", "node_t"] ∧
      (t.get? "struct node").map TypeDef.withoutComment = (u.get? "struct node").map TypeDef.withoutComment ∧
      t.get? "struct node" ≠ u.get? "struct node" := by
  have hperm : nodeDefinitions.Perm nodeReordered := by decide
  have ht : TypeTable.ofList nodeDefinitions = .ok ⟨[nodeTypedef, nodeRecord none], false⟩ := rfl
  have hu : TypeTable.ofList nodeReordered = .ok ⟨[nodeRecord (some "/* again */"), nodeTypedef], false⟩ := rfl
  obtain ⟨-, -, hsame, -⟩ := TypeTable.ofList_perm hperm ht hu
  exact ⟨hperm, _, _, ht, hu, rfl, rfl, hsame "struct node", by decide⟩

end TrapStub
