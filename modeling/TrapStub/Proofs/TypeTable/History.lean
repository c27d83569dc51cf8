import TrapStub.Proofs.Answer
import TrapStub.Proofs.TypeTable.Register
import TrapStub.TypeTable.Lookup

/-!
# The history of a table

A table goes through steps that fill it, freeze it and read it. Each key is written once, and a
record that was only named is completed once; all else is refused or changes nothing.

* `TypeTable.perform`, `TypeTable.tableAt`: a step, and a new table after some steps.
* `TypeTable.perform_register`: the four outcomes of a registration.
* `TypeTable.StoredBy`, `TypeTable.stored_in_order`: the definitions stand in the order of the steps
  that stored them.
* `TypeTable.writeOnce`: **a table is a write-once store with completion.**
-/

namespace TrapStub

namespace TypeDef

variable {earlier later : TypeDef}

/-- A definition that completes another one is neither equal to it nor only its name. -/
theorem Completes.not_kept (h : earlier.Completes later) :
    ¬ (earlier.sameShape later = true ∨ earlier.Renames later) := by
  intro hkeep
  have hmeet := meet_eq_complete.2 h
  rw [meet_eq_keep.2 hkeep] at hmeet
  cases hmeet

end TypeDef

namespace TypeTable

/-- A step on a table. -/
inductive Action where
  | register (definition : TypeDef)
  | freeze
  /-- Asks for the definition under a key, if there is one. -/
  | get (key : Text)
  /-- Asks for the definition under a key, which has to have one. -/
  | item (key : Text)
  | contains (key : Text)
  | lookup (type : CType)
  | sizeOf (type : CType) (pointerSize : Int)

/-- What a step answers. -/
inductive Answer where
  | done
  | definition (definition : TypeDef)
  | found (definition : Option TypeDef)
  | present (contained : Bool)
  | shape (shape : Shape)
  | size (bytes : Int)

/-- The answer of a step, and the table after it. -/
def perform (table : TypeTable) : Action → Except Fault Answer × TypeTable
  | .register definition =>
    match table.register definition with
    | .ok (table, stored) => (.ok (.definition stored), table)
    | .error fault => (.error fault, table)
  | .freeze => (.ok .done, table.freeze)
  | .get key => (.ok (.found (table.get? key)), table)
  | .item key => (((table.get? key).map fun d => .ok (.definition d)).getD (.error (.absentKey key)), table)
  | .contains key => (.ok (.present (table.contains key)), table)
  | .lookup type => (.shape <$> (table.lookup type).mapError .malformed, table)
  | .sizeOf type pointerSize => (.size <$> table.sizeOf type pointerSize, table)

/-- A new table after the first `n` of some steps. -/
def tableAt (actions : List Action) (n : Nat) : TypeTable :=
  (actions.take n).foldl (fun table action => (table.perform action).2) empty

variable {table table' : TypeTable} {d e : TypeDef} {key : Text} {actions : List Action} {m n : Nat}

/-! ## One step -/

/-- The fault of a definition that contradicts the one under its key. -/
def redefinition (earlier later : TypeDef) : Fault :=
  .report
    { cause := .malformed (.redefined later.key earlier.origin)
      declaration := none
      origin := if later.origin.isEmpty then none else some later.origin }

/-- What comes of a registration. -/
inductive Registering (table : TypeTable) (d : TypeDef) : Except Fault Answer × TypeTable → Prop
  | frozen (h : table.frozen = true) : Registering table d (.error (.frozenTable d.key), table)
  | placed (h : table.frozen = false) (hnew : ∀ e, table.get? d.key = some e → e.Completes d) :
      Registering table d (.ok (.definition d), table.placeLast d)
  | kept {e : TypeDef} (h : table.frozen = false) (hget : table.get? d.key = some e)
      (hkeep : e.sameShape d = true ∨ e.Renames d) : Registering table d (.ok (.definition e), table)
  | refused {e : TypeDef} (h : table.frozen = false) (hget : table.get? d.key = some e)
      (hkeep : ¬ (e.sameShape d = true ∨ e.Renames d)) (hcomplete : ¬ e.Completes d) :
      Registering table d (.error (redefinition e d), table)

theorem perform_register (table : TypeTable) (d : TypeDef) : Registering table d (table.perform (.register d)) := by
  show Registering table d (match table.register d with
    | .ok (table, stored) => (.ok (.definition stored), table)
    | .error fault => (.error fault, table))
  unfold register
  cases hfrozen : table.frozen with
  | true => exact .frozen hfrozen
  | false =>
    rw [if_neg Bool.false_ne_true]
    cases hget : table.get? d.key with
    | none => exact .placed hfrozen fun e he => by rw [hget] at he; cases he
    | some e =>
      dsimp only
      cases hmeet : e.meet d with
      | keep => exact .kept hfrozen hget (TypeDef.meet_eq_keep.1 hmeet)
      | complete =>
        refine .placed hfrozen fun e' he' => ?_
        obtain rfl : e = e' := Option.some.inj (hget.symm.trans he')
        exact TypeDef.meet_eq_complete.1 hmeet
      | conflict =>
        refine .refused hfrozen hget (fun h => ?_) fun h => ?_
        · rw [TypeDef.meet_eq_keep.2 h] at hmeet
          cases hmeet
        · rw [TypeDef.meet_eq_complete.2 h] at hmeet
          cases hmeet

/-- Only one thing can come of a registration. -/
theorem Registering.unique {x y : Except Fault Answer × TypeTable} (hx : Registering table d x)
    (hy : Registering table d y) : x = y := by
  have hdiffer : ∀ {e e'}, table.get? d.key = some e → table.get? d.key = some e' → e = e' :=
    fun he he' => Option.some.inj (he.symm.trans he')
  cases hx with
  | frozen h =>
    cases hy with
    | frozen => rfl
    | placed hopen | kept hopen | refused hopen => rw [h] at hopen; cases hopen
  | placed h hnew =>
    cases hy with
    | frozen hfrozen => rw [h] at hfrozen; cases hfrozen
    | placed => rfl
    | kept _ hget hkeep => exact absurd hkeep (hnew _ hget).not_kept
    | refused _ hget _ hnot => exact absurd (hnew _ hget) hnot
  | kept h hget hkeep =>
    cases hy with
    | frozen hfrozen => rw [h] at hfrozen; cases hfrozen
    | placed _ hnew => exact absurd hkeep (hnew _ hget).not_kept
    | kept _ hget' => rw [hdiffer hget hget']
    | refused _ hget' hnot => exact absurd (hdiffer hget hget' ▸ hkeep) hnot
  | refused h hget hkeep hcomplete =>
    cases hy with
    | frozen hfrozen => rw [h] at hfrozen; cases hfrozen
    | placed _ hnew => exact absurd (hnew _ hget) hcomplete
    | kept _ hget' hkept => exact absurd (hdiffer hget' hget ▸ hkept) hkeep
    | refused _ hget' => rw [hdiffer hget hget']

/-- What can come of a registration does. -/
theorem Registering.perform_eq {x : Except Fault Answer × TypeTable} (h : Registering table d x) :
    table.perform (.register d) = x :=
  (perform_register table d).unique h

theorem get?_placeLast : (table.placeLast d).get? key = if key = d.key then some d else table.get? key := by
  unfold get? placeLast
  rw [List.find?_append, List.find?_filter]
  split
  · rename_i hkey
    have hnone : table.entries.find? (fun a => decide ((a.key != d.key) = true ∧ (a.key == key) = true)) = none := by
      rw [List.find?_eq_none]
      simp +contextual [hkey]
    rw [hnone]
    simp [hkey]
  · rename_i hkey
    have hsame : (fun a : TypeDef => decide ((a.key != d.key) = true ∧ (a.key == key) = true)) =
        fun a => a.key == key := by
      funext a
      by_cases ha : a.key = key <;> simp [ha, hkey]
    have hlast : [d].find? (·.key == key) = none := by simpa using Ne.symm hkey
    rw [hsame, hlast, Option.or_none]

/-- What a step does to the table. -/
inductive Stepped (table : TypeTable) (action : Option Action) : TypeTable → Prop
  | same (h : action ≠ some .freeze) : Stepped table action table
  | frozen (h : action = some .freeze) : Stepped table action table.freeze
  | placed {d : TypeDef} (h : action = some (.register d)) (hopen : table.frozen = false)
      (hnew : ∀ e, table.get? d.key = some e → e.Completes d) : Stepped table action (table.placeLast d)

theorem tableAt_perform {action : Action} (h : actions[n]? = some action) :
    tableAt actions (n + 1) = ((tableAt actions n).perform action).2 := by
  unfold tableAt
  rw [List.take_add_one, List.foldl_append, h]
  rfl

theorem tableAt_succ (actions : List Action) (n : Nat) :
    Stepped (tableAt actions n) actions[n]? (tableAt actions (n + 1)) := by
  have hsucc : tableAt actions (n + 1) =
      actions[n]?.toList.foldl (fun table action => (table.perform action).2) (tableAt actions n) := by
    unfold tableAt
    rw [List.take_add_one, List.foldl_append]
  rw [hsucc]
  cases actions[n]? with
  | none => exact .same (by simp)
  | some action =>
    cases action with
    | register d =>
      have hregister := perform_register (tableAt actions n) d
      have hne : some (Action.register d) ≠ some .freeze := by simp
      show Stepped _ _ ((tableAt actions n).perform (.register d)).2
      generalize (tableAt actions n).perform (.register d) = answer at hregister ⊢
      cases hregister with
      | frozen => exact .same hne
      | placed hopen hnew => exact .placed rfl hopen hnew
      | kept => exact .same hne
      | refused => exact .same hne
    | freeze => exact .frozen rfl
    | get key => exact .same (by simp)
    | item key => exact .same (by simp)
    | contains key => exact .same (by simp)
    | lookup type => exact .same (by simp)
    | sizeOf type pointerSize => exact .same (by simp)

namespace Stepped

variable {action : Option Action} (h : Stepped table action table')

include h

theorem keys_nodup (hn : table.keys.Nodup) : table'.keys.Nodup := by
  cases h with
  | same => exact hn
  | frozen => exact hn
  | placed _ _ hnew => exact (Registered.placed hnew).keys_nodup hn

/-- A definition stays, or a record that was only named is completed. -/
theorem get? (hget : table.get? key = some d) :
    table'.get? key = some d ∨ d.isForward = true ∧ table'.Complete key := by
  cases h with
  | same => exact Or.inl hget
  | frozen => exact Or.inl hget
  | @placed later _ _ hnew =>
    rw [Complete, get?_placeLast]
    by_cases hkey : key = later.key
    · subst hkey
      obtain ⟨hforward, hrecord, hcomplete⟩ := hnew d hget
      rw [if_pos rfl]
      cases later with
      | record r => exact Or.inr ⟨hforward, r, rfl, by simpa [TypeDef.isForward] using hcomplete⟩
      | enumeration e => cases hrecord
      | typedef a => cases hrecord
    · rw [if_neg hkey]
      exact Or.inl hget

end Stepped

/-! ## Some steps in turn -/

theorem tableAt_nodup (actions : List Action) : ∀ n, (tableAt actions n).keys.Nodup
  | 0 => List.nodup_nil
  | n + 1 => (tableAt_succ actions n).keys_nodup (tableAt_nodup actions n)

/-- **A definition that is there stays**, unless it is that of a record which was only named. -/
theorem tableAt_mono (hmn : m ≤ n) (hget : (tableAt actions m).get? key = some d) :
    (tableAt actions n).get? key = some d ∨ d.isForward = true ∧ (tableAt actions n).Complete key := by
  induction hmn with
  | refl => exact Or.inl hget
  | @step n _ ih =>
    rcases ih with ih | ⟨hforward, r, hr, hcomplete⟩
    · exact (tableAt_succ actions n).get? ih
    · refine Or.inr ⟨hforward, r, ?_, hcomplete⟩
      refine ((tableAt_succ actions n).get? hr).resolve_right fun hchanged => ?_
      rw [TypeDef.isForward, hcomplete] at hchanged
      exact Bool.false_ne_true hchanged.1

/-- The step changes what stands under the key. -/
def ChangedBy (actions : List Action) (n : Nat) (key : Text) : Prop :=
  ∃ d, (tableAt actions n).get? key = some d ∧ (tableAt actions (n + 1)).get? key ≠ some d

/-- After a change the definition is complete, so no later step changes it. -/
theorem not_changed_later (hm : ChangedBy actions m key) (hn : ChangedBy actions n key) : ¬ m < n := by
  intro hlt
  obtain ⟨d, hd, hchanged⟩ := hm
  obtain ⟨e, he, hagain⟩ := hn
  obtain ⟨-, r, hr, hcomplete⟩ := ((tableAt_succ actions m).get? hd).resolve_left hchanged
  have hforward : (TypeDef.record r).isForward = false := by rw [TypeDef.isForward, hcomplete]; rfl
  have hstays : ∀ k, m + 1 ≤ k → (tableAt actions k).get? key = some (.record r) := fun k hk =>
    (tableAt_mono hk hr).resolve_right fun h => by rw [hforward] at h; exact Bool.false_ne_true h.1
  obtain rfl : .record r = e := Option.some.inj ((hstays n hlt).symm.trans he)
  exact hagain (hstays (n + 1) (by omega))

/-- A table is frozen once it was told to be. -/
theorem tableAt_frozen (actions : List Action) (n : Nat) :
    (tableAt actions n).frozen = true ↔ .freeze ∈ actions.take n := by
  induction n with
  | zero => simp [tableAt, empty]
  | succ n ih =>
    rw [List.take_add_one, List.mem_append, Option.mem_toList, ← ih]
    have hstep := tableAt_succ actions n
    generalize tableAt actions (n + 1) = table' at hstep ⊢
    cases hstep with
    | same hnot => simp [hnot]
    | frozen hfreeze => simp [hfreeze, freeze]
    | placed haction _ _ => simp [haction, placeLast]

/-- The step stored the definition that its key has had ever since, up to the step `n`. -/
structure StoredBy (actions : List Action) (n step : Nat) (d : TypeDef) : Prop where
  before : step < n
  action : actions[step]? = some (.register d)
  new : (tableAt actions step).get? d.key ≠ some d
  since : ∀ k, step < k → k ≤ n → (tableAt actions k).get? d.key = some d

theorem StoredBy.succ {step : Nat} (h : StoredBy actions n step d)
    (hget : (tableAt actions (n + 1)).get? d.key = some d) : StoredBy actions (n + 1) step d := by
  refine ⟨Nat.lt_succ_of_lt h.before, h.action, h.new, fun k hlt hle => ?_⟩
  rcases Nat.le_succ_iff.1 hle with hle | rfl
  · exact h.since k hlt hle
  · exact hget

/-- **The definitions stand in the order of the steps that stored them.** -/
theorem stored_in_order (actions : List Action) (n : Nat) : ∃ steps : List Nat, steps.Pairwise (· < ·) ∧
    List.Forall₂ (fun step d => StoredBy actions n step d) steps (tableAt actions n).entries := by
  induction n with
  | zero => exact ⟨[], .nil, .nil⟩
  | succ n ih =>
    obtain ⟨steps, hsorted, hstored⟩ := ih
    have hstep := tableAt_succ actions n
    -- where the step leaves the entries as they are, so it leaves what stands under their keys
    have hsame : (tableAt actions (n + 1)).entries = (tableAt actions n).entries →
        List.Forall₂ (fun step d => StoredBy actions (n + 1) step d) steps (tableAt actions (n + 1)).entries := by
      intro hentries
      rw [hentries]
      refine hstored.imp fun step d h => h.succ ?_
      rw [TypeTable.get?, hentries]
      exact h.since n h.before (Nat.le_refl n)
    generalize htable : tableAt actions (n + 1) = table' at hstep
    cases hstep with
    | same => exact ⟨steps, hsorted, htable ▸ hsame (by rw [htable])⟩
    | frozen => exact ⟨steps, hsorted, htable ▸ hsame (by rw [htable]; rfl)⟩
    | @placed d haction hopen hnew =>
      have hget : ∀ key, (tableAt actions (n + 1)).get? key =
          if key = d.key then some d else (tableAt actions n).get? key :=
        fun key => by rw [htable, get?_placeLast]
      obtain ⟨others, hsub, hothers⟩ := forall₂_filter (S := fun step d => StoredBy actions (n + 1) step d)
        (p := (·.key != d.key)) hstored fun step e h he => h.succ <| by
          rw [hget, if_neg (by simpa using he)]
          exact h.since n h.before (Nat.le_refl n)
      have hlast : StoredBy actions (n + 1) n d := by
        refine ⟨Nat.lt_succ_self n, haction, fun hold => ?_, fun k hlt hle => ?_⟩
        · obtain ⟨hforward, -, hcomplete⟩ := hnew d hold
          rw [hcomplete] at hforward
          exact Bool.false_ne_true hforward
        · obtain rfl : k = n + 1 := by omega
          rw [hget, if_pos rfl]
      refine ⟨others ++ [n], ?_, List.rel_append hothers (.cons hlast .nil)⟩
      rw [List.pairwise_append]
      refine ⟨hsorted.sublist hsub, List.pairwise_singleton _ _, fun step hmem last hlastmem => ?_⟩
      obtain rfl := List.mem_singleton.1 hlastmem
      obtain ⟨e, -, he⟩ := forall₂_exists_of_mem_left hstored (hsub.subset hmem)
      exact he.before

/-! ## The whole history -/

/-- What holds of the history of a new table, after each of its steps. -/
structure WriteOnce (actions : List Action) : Prop where
  /-- Each key occurs once and stands for a definition with that key. -/
  keyed : ∀ n, (tableAt actions n).keys.Nodup ∧
    ∀ key ∈ (tableAt actions n).keys, ∃ d, (tableAt actions n).get? key = some d ∧ d.key = key
  /-- What a key stands for stays, or is completed. -/
  completed : ∀ m n key d, m ≤ n → (tableAt actions m).get? key = some d →
    (tableAt actions n).get? key = some d ∨ d.isForward = true ∧ (tableAt actions n).Complete key
  /-- At most one step changes what a key stands for. -/
  once : ∀ key m n, ChangedBy actions m key → ChangedBy actions n key → m = n
  /-- The order is that of the steps that stored the definitions. -/
  ordered : ∀ n, ∃ steps : List Nat, steps.Pairwise (· < ·) ∧
    List.Forall₂ (fun step d => StoredBy actions n step d) steps (tableAt actions n).entries
  /-- The keys change only where one is new or completed, and that one is put at the end. -/
  moved : ∀ n, (tableAt actions (n + 1)).keys = (tableAt actions n).keys ∨ ∃ d, actions[n]? = some (.register d) ∧
    (∀ e, (tableAt actions n).get? d.key = some e → e.Completes d) ∧
    (tableAt actions (n + 1)).keys = (tableAt actions n).keys.filter (· != d.key) ++ [d.key]
  /-- A step that neither fills nor freezes changes nothing. -/
  reads : ∀ n action, actions[n]? = some action → (∀ d, action ≠ .register d) → action ≠ .freeze →
    tableAt actions (n + 1) = tableAt actions n
  /-- Before a freeze, a definition for a new key, and one that completes, is stored at the end. -/
  stored : ∀ n d, .freeze ∉ actions.take n → (∀ e, (tableAt actions n).get? d.key = some e → e.Completes d) →
    (tableAt actions n).perform (.register d) = (.ok (.definition d), (tableAt actions n).placeLast d)
  /-- What a step stores so is found under its key, behind all other definitions. These stand as they did. -/
  found : ∀ n d, actions[n]? = some (.register d) → .freeze ∉ actions.take n →
    (∀ e, (tableAt actions n).get? d.key = some e → e.Completes d) →
    (tableAt actions (n + 1)).get? d.key = some d ∧
      (tableAt actions (n + 1)).entries = (tableAt actions n).entries.filter (·.key != d.key) ++ [d] ∧
      ∀ key, key ≠ d.key → (tableAt actions (n + 1)).get? key = (tableAt actions n).get? key
  /-- Before a freeze, a definition that is there, and the name of a complete record, are answered with what is
  there. -/
  kept : ∀ n d e, .freeze ∉ actions.take n → (tableAt actions n).get? d.key = some e →
    e.sameShape d = true ∨ e.Renames d →
    (tableAt actions n).perform (.register d) = (.ok (.definition e), tableAt actions n)
  /-- Before a freeze, any other definition for a key that has one is refused, unless it completes that one. -/
  refused : ∀ n d e, .freeze ∉ actions.take n → (tableAt actions n).get? d.key = some e →
    ¬ (e.sameShape d = true ∨ e.Renames d) → ¬ e.Completes d →
    (tableAt actions n).perform (.register d) = (.error (redefinition e d), tableAt actions n)
  /-- After a freeze every definition is refused. -/
  frozen : ∀ n d, .freeze ∈ actions.take n →
    (tableAt actions n).perform (.register d) = (.error (.frozenTable d.key), tableAt actions n)

theorem keys_placeLast : (table.placeLast d).keys = table.keys.filter (· != d.key) ++ [d.key] := by
  unfold keys placeLast
  rw [List.map_append, List.filter_map]
  rfl

theorem open_iff : (tableAt actions n).frozen = false ↔ .freeze ∉ actions.take n := by
  rw [← tableAt_frozen, Bool.not_eq_true]

/-- **A table is a write-once store with completion**, whatever steps it goes through. -/
theorem writeOnce (actions : List Action) : WriteOnce actions where
  keyed n := by
    refine ⟨tableAt_nodup actions n, fun key hkey => ?_⟩
    obtain ⟨d, hd, rfl⟩ := List.mem_map.1 hkey
    exact ⟨d, get?_of_mem (tableAt_nodup actions n) hd, rfl⟩
  completed m n key d hmn hget := tableAt_mono hmn hget
  once key m n hm hn :=
    Nat.le_antisymm (Nat.not_lt.1 (not_changed_later hn hm)) (Nat.not_lt.1 (not_changed_later hm hn))
  ordered := stored_in_order actions
  moved n := by
    have hstep := tableAt_succ actions n
    generalize tableAt actions (n + 1) = table' at hstep ⊢
    cases hstep with
    | same => exact Or.inl rfl
    | frozen => exact Or.inl rfl
    | placed haction _ hnew => exact Or.inr ⟨_, haction, hnew, keys_placeLast⟩
  reads n action haction hregister hfreeze := by
    have hstep := tableAt_succ actions n
    generalize tableAt actions (n + 1) = table' at hstep ⊢
    cases hstep with
    | same => rfl
    | frozen h => exact absurd (Option.some.inj (haction.symm.trans h)) hfreeze
    | placed h _ _ => exact absurd (Option.some.inj (haction.symm.trans h)) (hregister _)
  stored n d hopen hnew := (Registering.placed (open_iff.2 hopen) hnew).perform_eq
  found n d haction hopen hnew := by
    have htable : tableAt actions (n + 1) = (tableAt actions n).placeLast d := by
      rw [tableAt_perform haction, (Registering.placed (open_iff.2 hopen) hnew).perform_eq]
    rw [htable]
    exact ⟨get?_placeLast.trans (if_pos rfl), rfl, fun key hkey => get?_placeLast.trans (if_neg hkey)⟩
  kept n d e hopen hget hkeep := (Registering.kept (open_iff.2 hopen) hget hkeep).perform_eq
  refused n d e hopen hget hkeep hcomplete := (Registering.refused (open_iff.2 hopen) hget hkeep hcomplete).perform_eq
  frozen n d hfrozen := (Registering.frozen ((tableAt_frozen actions n).2 hfrozen)).perform_eq

/-- A record is named, an alias of it is stored, and it is completed: that puts it behind the alias. Then the table is
frozen, and nothing comes of a further alias. -/
example :
    let named : Record :=
      { key := "struct a", kind := .struct, members := none, size := 0, align := 0, packed := false, aligned := false
        pack := none, anonymous := false, origin := "a.h", comment := none }
    let complete : Record := { named with members := some [], size := 4, align := 4 }
    let synonym (key : Text) : TypeDef := .typedef ⟨key, .named "struct a", "a.h", none⟩
    let actions : List Action :=
      [.register (.record named), .register (synonym "a_t"), .register (.record complete), .freeze, .register (synonym "b_t")]
    (tableAt actions 2).entries = [.record named, synonym "a_t"] ∧
      (tableAt actions 3).entries = [synonym "a_t", .record complete] ∧
      (tableAt actions 3).get? "struct a" = some (.record complete) ∧
      tableAt actions 5 = ⟨[synonym "a_t", .record complete], true⟩ := by decide

end TypeTable

end TrapStub
