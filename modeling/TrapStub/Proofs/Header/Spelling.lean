import Mathlib.Logic.Relation
import TrapStub.Header.Speller
import TrapStub.Proofs.Answer

/-!
# Types that can be written

An anonymous record is written with its body, and so are the anonymous records inside it. The
writing ends when none of them holds itself, and it succeeds when all of them are complete.

* `TypeTable.Holds`, `TypeTable.Writable`: those two conditions.
* `Speller.spell_ok`: **in a writable table every key has a text.** The bodies inside each other
  have different keys, so the bound on their number is never met.
* `Speller.declare_ok`: so has every declaration.
-/

namespace TrapStub

variable {ε : Type}

namespace CType

mutual

/-- The keys of a type can be replaced when each of them can. -/
theorem mapNames_ok {f : Text → Except ε Text} : ∀ t : CType,
    (∀ key ∈ t.keys, ∃ text, f key = .ok text) → ∃ t', t.mapNames f = .ok t'
  | .void, _ => ⟨_, rfl⟩
  | .scalar _, _ => ⟨_, rfl⟩
  | .pointer target, h => by
    obtain ⟨target', ht⟩ := mapNames_ok target h
    exact ⟨.pointer target', by rw [mapNames, ht]; rfl⟩
  | .named key, h => by
    obtain ⟨text, ht⟩ := h key (by simp [keys])
    exact ⟨.named text, by rw [mapNames, ht]; rfl⟩
  | .array element length, h => by
    obtain ⟨element', he⟩ := mapNames_ok element h
    exact ⟨.array element' length, by rw [mapNames, he]; rfl⟩
  | .function result parameters variadic, h => by
    obtain ⟨result', hr⟩ := mapNames_ok result fun key hk => h key (List.mem_append_left _ hk)
    obtain ⟨parameters', hp⟩ := mapNamesOfAll_ok parameters fun key hk =>
      h key (List.mem_append_right _ hk)
    exact ⟨.function result' parameters' variadic, by rw [mapNames, hp, hr]; rfl⟩
  | .qualified base const volatile, h => by
    obtain ⟨base', hb⟩ := mapNames_ok base h
    exact ⟨.qualified base' const volatile, by rw [mapNames, hb]; rfl⟩

theorem mapNamesOfAll_ok {f : Text → Except ε Text} : ∀ ts : List CType,
    (∀ key ∈ keysOfAll ts, ∃ text, f key = .ok text) → ∃ ts', mapNamesOfAll f ts = .ok ts'
  | [], _ => ⟨_, rfl⟩
  | t :: rest, h => by
    obtain ⟨t', ht⟩ := mapNames_ok t fun key hk => h key (List.mem_append_left _ hk)
    obtain ⟨rest', hr⟩ := mapNamesOfAll_ok rest fun key hk => h key (List.mem_append_right _ hk)
    exact ⟨t' :: rest', by rw [mapNamesOfAll, ht, hr]; rfl⟩

end

end CType

namespace TypeTable

/-- The anonymous record under `outer` has a member whose type mentions `inner`. -/
def Holds (table : TypeTable) (outer inner : Text) : Prop :=
  ∃ r members, table.get? outer = some (.record r) ∧ r.anonymous = true ∧ r.members = some members ∧
    ∃ m ∈ members, inner ∈ m.type.keys

/-- The anonymous records are complete, and none holds itself, directly or through others. -/
structure Writable (table : TypeTable) : Prop where
  complete : ∀ key r, table.get? key = some (.record r) → r.anonymous = true → r.isComplete = true
  acyclic : ∀ key, ¬ Relation.TransGen table.Holds key key

theorem unseen_nil_le (table : TypeTable) : table.unseen [] ≤ table.entries.length := by
  unfold unseen keys
  exact Nat.le_trans (List.length_filter_le _ _) (Nat.le_of_eq (List.length_map _))

end TypeTable

namespace Tagged

variable {spell : Text → Except Fault Text}

/-- A body has a text when it is complete and the keys inside it have texts. -/
theorem body_record_ok {r : Record} {members : List Member} (hm : r.members = some members)
    (h : ∀ m ∈ members, ∀ key ∈ m.type.keys, ∃ text, spell key = .ok text) (depth : Nat) :
    ∃ text, body spell depth (.record r) = .ok text := by
  have hlines : ∀ m ∈ members, ∃ line, (do
      let type ← m.type.mapNames spell
      return memberLine (type.declare m.name) m ++ ";" : Except Fault Text) = .ok line := by
    intro m hmem
    obtain ⟨type, ht⟩ := CType.mapNames_ok m.type (h m hmem)
    exact ⟨_, by rw [ht]; rfl⟩
  obtain ⟨lines, hl⟩ := mapM_ok hlines
  unfold body
  simp only [hm]
  exact ⟨_, by rw [hl]; rfl⟩

end Tagged

namespace Speller

variable {speller : Speller}

/-- What stands under the key of an anonymous definition. -/
theorem anonymous?_eq_some {key : Text} {definition : Tagged} :
    speller.anonymous? key = some definition ↔
      ∃ d, speller.table.get? key = some d ∧ d.isAnonymous = true ∧ Tagged.ofTypeDef? d = some definition := by
  unfold anonymous?
  rw [Option.bind_eq_some_iff]
  simp only [Option.filter_eq_some_iff, and_assoc]

/-- **Every key has a text**, given enough bodies for the keys that are not yet open: the keys of
the open bodies all hold the one that is written. -/
theorem spellWithin_ok (hw : speller.table.Writable) (limit : Nat) :
    ∀ (depth : Nat) (key : Text) (seen : List Text),
      (∀ s ∈ seen, Relation.TransGen speller.table.Holds s key) →
      speller.table.unseen seen < limit → ∃ text, speller.spellWithin limit depth key = .ok text := by
  induction limit with
  | zero => intro depth key seen _ h; omega
  | succ limit ih =>
    intro depth key seen hseen hlt
    unfold spellWithin
    cases ha : speller.anonymous? key with
    | none => exact ⟨key, rfl⟩
    | some definition =>
      cases hn : speller.nameOf? key with
      | some name => exact ⟨name, rfl⟩
      | none =>
        obtain ⟨d, hd, hanon, htag⟩ := anonymous?_eq_some.1 ha
        cases d with
        | typedef a => cases hanon
        | enumeration e => cases htag; exact ⟨_, rfl⟩
        | record r =>
          cases htag
          obtain ⟨members, hm⟩ := Option.isSome_iff_exists.1 (hw.complete key r hd hanon)
          -- every open body holds this key, so none of them is its own
          have hfresh : key ∉ seen := fun hk => hw.acyclic key (hseen key hk)
          have hfewer := speller.table.unseen_cons_lt seen hfresh (by simp [TypeTable.contains, hd])
          refine Tagged.body_record_ok hm (fun m hmem inner hinner => ?_) depth
          have hholds : speller.table.Holds key inner := ⟨r, members, hd, hanon, hm, m, hmem, hinner⟩
          -- one more body is open around the keys inside it
          refine ih (depth + 1) inner (key :: seen) ?_ (by omega)
          intro s hs
          rcases List.mem_cons.1 hs with rfl | hs
          · exact .single hholds
          · exact .tail (hseen s hs) hholds

/-- **In a writable table every key has a text.** -/
theorem spell_ok (hw : speller.table.Writable) (depth : Nat) (key : Text) :
    ∃ text, speller.spell depth key = .ok text := by
  have := speller.table.unseen_nil_le
  refine spellWithin_ok hw _ depth key [] (fun s hs => by cases hs) ?_
  unfold limit
  omega

/-- **In a writable table every declaration has a text.** -/
theorem declare_ok (hw : speller.table.Writable) (depth : Nat) (t : CType) (name : Text) :
    ∃ text, speller.declare depth t name = .ok text := by
  have hkeys : ∀ key ∈ t.keys, ∃ text, speller.spell depth key = .ok text :=
    fun key _ => spell_ok hw depth key
  obtain ⟨t', ht⟩ := CType.mapNames_ok t hkeys
  exact ⟨t'.declare name, by unfold declare; rw [ht]; rfl⟩

end Speller

end TrapStub
