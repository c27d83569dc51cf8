import Mathlib.Data.List.Perm.Subperm
import TrapStub.Proofs.TypeTable.Resolution

/-!
# Chains of typedefs

A typedef leads to the type it stands for, which may be a typedef again. A look-up walks this chain. It
comes to an end because it follows no key twice and the table has only so many.

* `TypeTable.Follows`: the chain that starts at a type, one typedef at a time.
* `TypeTable.EndsIn`, `TypeTable.LeadsTo`: the shape in which a chain ends.
* `TypeTable.lookupFrom_follows`: **a look-up walks the chain**, as long as no key comes twice.
* `TypeTable.exists_end`: **every chain ends or comes back to a key** it has followed.
* `TypeTable.lookup_eq_ok_iff`, `TypeTable.lookup_eq_unknown_iff`, `TypeTable.lookup_eq_cycle_iff`: what each
  answer says about the chain.
* `TypeTable.lookup_decides`: **a look-up decides every chain.**
-/

namespace TrapStub

namespace Shape

/-- The type that a shape is, unless it is a definition. -/
def type? : Shape → Option CType
  | void => some .void
  | scalar type => some (.scalar type)
  | pointer target => some (.pointer target)
  | array element length => some (.array element length)
  | function result parameters variadic => some (.function result parameters variadic)
  | record _ | enumeration _ => none

/-- The definition that a shape is, unless it is a type without a name. -/
def definition? : Shape → Option TypeDef
  | record r => some (.record r)
  | enumeration e => some (.enumeration e)
  | void | scalar _ | pointer _ | array _ _ | function _ _ _ => none

/-- A shape is neither qualified nor a name, and no typedef. -/
theorem concrete (shape : Shape) :
    (∀ t, shape.type? = some t → t.unqualified = t ∧ ∀ key, t ≠ .named key) ∧
      ∀ d, shape.definition? = some d → ∀ a, d ≠ .typedef a := by
  cases shape <;> simp [type?, definition?, CType.unqualified]

end Shape

namespace CType

variable {key : Text} {shape : Shape}

theorem head_eq_key : ∀ {t : CType}, t.head = .key key ↔ t.unqualified = .named key
  | qualified base _ _ => head_eq_key (t := base)
  | named _ => by simp [head, unqualified]
  | void | scalar _ | pointer _ | array _ _ | function _ _ _ => by simp [head, unqualified]

theorem head_eq_shape : ∀ {t : CType}, t.head = .shape shape ↔ shape.type? = some t.unqualified
  | qualified base _ _ => head_eq_shape (t := base)
  | named _ => by cases shape <;> simp [head, unqualified, Shape.type?]
  | void | scalar _ | pointer _ | array _ _ | function _ _ _ => by
    cases shape <;> simp [head, unqualified, Shape.type?, eq_comm]

end CType

namespace TypeTable

/-- From the first type, the typedefs of the keys lead to the second one. Qualifiers are removed in front
of each of them. -/
inductive Follows (table : TypeTable) : CType → List Text → CType → Prop
  | here (t : CType) : Follows table t [] t
  | step {t u : CType} {key : Text} {a : Typedef} {keys : List Text} (ht : t.unqualified = .named key)
    (ha : table.get? key = some (.typedef a)) (hu : Follows table a.target keys u) : Follows table t (key :: keys) u

/-- A chain ends at the type in this shape: it has no name, or it names a struct, union or enum of the
table. -/
inductive EndsIn (table : TypeTable) (t : CType) (shape : Shape) : Prop
  | unnamed (h : shape.type? = some t.unqualified)
  | defined {key : Text} {d : TypeDef} (ht : t.unqualified = .named key) (hd : table.get? key = some d)
    (h : shape.definition? = some d)

/-- The type names a key that the table lacks. -/
def Misses (table : TypeTable) (t : CType) (key : Text) : Prop :=
  t.unqualified = .named key ∧ table.get? key = none

/-- The type names no typedef. -/
def Stops (table : TypeTable) (t : CType) : Prop :=
  ∀ key a, t.unqualified = .named key → table.get? key ≠ some (.typedef a)

/-- Behind qualifiers and typedefs the type has this shape. -/
def LeadsTo (table : TypeTable) (t : CType) (shape : Shape) : Prop :=
  ∃ keys u, table.Follows t keys u ∧ table.EndsIn u shape

variable {table : TypeTable} {t u v : CType} {key : Text} {keys keys' seen : List Text} {shape : Shape}

/-! ## The chain -/

theorem EndsIn.stops (h : table.EndsIn t shape) : table.Stops t := by
  intro key a ht ha
  cases h with
  | unnamed h => exact (shape.concrete.1 _ h).2 key ht
  | defined ht' hd h =>
    rw [ht'] at ht
    obtain rfl := CType.named.inj ht
    rw [hd] at ha
    exact shape.concrete.2 _ h a (Option.some.inj ha)

theorem Misses.stops (h : table.Misses t key) : table.Stops t := by
  intro key' a ht ha
  rw [h.1] at ht
  obtain rfl := CType.named.inj ht
  rw [h.2] at ha
  cases ha

namespace Follows

theorem append (h : table.Follows t keys u) (h' : table.Follows u keys' v) : table.Follows t (keys ++ keys') v := by
  induction h with
  | here => exact h'
  | step ht ha _ ih => exact .step ht ha (ih h')

/-- A key of a chain is a typedef, and what comes behind it is the chain of its target. -/
theorem split {before after : List Text} (h : table.Follows t (before ++ key :: after) u) :
    ∃ a, table.get? key = some (.typedef a) ∧ table.Follows a.target after u := by
  induction before generalizing t with
  | nil =>
    cases h with
    | step _ ha hu => exact ⟨_, ha, hu⟩
  | cons k before ih =>
    cases h with
    | step _ _ hu => exact ih hu

theorem typedef_of_mem (h : table.Follows t keys u) (hkey : key ∈ keys) : ∃ a, table.get? key = some (.typedef a) := by
  obtain ⟨before, after, rfl⟩ := List.append_of_mem hkey
  obtain ⟨a, ha, -⟩ := h.split
  exact ⟨a, ha⟩

/-- A chain that ends passes the typedef that its type names. -/
theorem tail {a : Typedef} (h : table.Follows t keys u) (hu : table.Stops u) (ht : t.unqualified = .named key)
    (ha : table.get? key = some (.typedef a)) : ∃ rest, keys = key :: rest ∧ table.Follows a.target rest u := by
  cases h with
  | here => exact absurd ha (hu key a ht)
  | step ht' ha' hrest =>
    rw [ht] at ht'
    obtain rfl := CType.named.inj ht'
    rw [ha] at ha'
    obtain rfl := TypeDef.typedef.inj (Option.some.inj ha')
    exact ⟨_, rfl, hrest⟩

/-- Along a chain the shape that it ends in stays. -/
theorem leadsTo_iff (h : table.Follows t keys u) : table.LeadsTo t shape ↔ table.LeadsTo u shape := by
  induction h with
  | here => exact Iff.rfl
  | step ht ha _ ih =>
    refine Iff.trans ⟨?_, ?_⟩ ih
    · rintro ⟨keys', v, hv, hend⟩
      obtain ⟨rest, -, hrest⟩ := hv.tail hend.stops ht ha
      exact ⟨rest, v, hrest, hend⟩
    · rintro ⟨keys', v, hv, hend⟩
      exact ⟨_, v, .step ht ha hv, hend⟩

/-- There is one chain: a walk along it is a part of every walk to its end. -/
theorem isPrefix (h : table.Follows t keys u) (h' : table.Follows t keys' v) (hv : table.Stops v) : keys <+: keys' := by
  induction h generalizing keys' with
  | here => exact List.nil_prefix
  | step ht ha _ ih =>
    obtain ⟨rest, rfl, hrest⟩ := h'.tail hv ht ha
    exact List.cons_prefix_cons.2 ⟨rfl, ih hrest⟩

/-- **A chain that ends has no key twice.** Behind a key that came back the rest of the chain would be
longer than itself. -/
theorem nodup (h : table.Follows t keys u) (hu : table.Stops u) : keys.Nodup := by
  induction h with
  | here => exact List.nodup_nil
  | @step t u key a keys ht ha hrest ih =>
    refine List.nodup_cons.2 ⟨fun hkey => ?_, ih hu⟩
    obtain ⟨before, after, rfl⟩ := List.append_of_mem hkey
    obtain ⟨a', ha', hafter⟩ := hrest.split
    rw [ha] at ha'
    obtain rfl := TypeDef.typedef.inj (Option.some.inj ha')
    have hlength := (hrest.isPrefix hafter hu).length_le
    simp only [List.length_append, List.length_cons] at hlength
    omega

/-- The keys of a chain are keys of the table. -/
theorem subset_keys (h : table.Follows t keys u) : keys ⊆ table.keys := by
  intro key hkey
  obtain ⟨a, ha⟩ := h.typedef_of_mem hkey
  obtain ⟨hmem, heq⟩ := get?_eq_some_mem ha
  exact heq ▸ List.mem_map_of_mem hmem

theorem not_mem_of_stops (h : table.Follows t keys u) (hu : table.Stops u) (hkey : u.unqualified = .named key) :
    key ∉ keys := by
  intro hmem
  obtain ⟨a, ha⟩ := h.typedef_of_mem hmem
  exact hu key a hkey ha

end Follows

/-! ## The walk -/

/-- **A look-up walks the chain**, as long as no key comes twice. -/
theorem lookupFrom_follows (h : table.Follows t keys u) (hn : keys.Nodup) (hseen : ∀ key ∈ keys, key ∉ seen) :
    table.lookupFrom seen t = table.lookupFrom (keys.reverse ++ seen) u := by
  induction h generalizing seen with
  | here => rfl
  | @step t u key a keys ht ha _ ih =>
    obtain ⟨hkey, hn⟩ := List.nodup_cons.1 hn
    obtain ⟨hfresh, hseen⟩ := List.forall_mem_cons.1 hseen
    have hlater : ∀ k ∈ keys, k ∉ key :: seen := by
      intro k hk hmem
      rcases List.mem_cons.1 hmem with rfl | hmem
      · exact hkey hk
      · exact hseen k hk hmem
    rw [lookupFrom_key (CType.head_eq_key.2 ht), if_neg hfresh, ha]
    rw [List.reverse_cons, List.append_assoc, List.singleton_append]
    exact ih hn hlater

theorem lookupFrom_endsIn (h : table.EndsIn t shape) (hseen : ∀ key, t.unqualified = .named key → key ∉ seen) :
    table.lookupFrom seen t = .ok shape := by
  cases h with
  | unnamed h => exact lookupFrom_shape (CType.head_eq_shape.2 h)
  | @defined key d ht hd h =>
    rw [lookupFrom_key (CType.head_eq_key.2 ht), if_neg (hseen key ht), hd]
    cases shape with
    | record r =>
      obtain rfl := Option.some.inj h
      rfl
    | enumeration e =>
      obtain rfl := Option.some.inj h
      rfl
    | _ => cases h

/-- **Every chain ends or comes back to a key.** Every typedef on the way is one more that was seen. -/
theorem exists_end (table : TypeTable) (seen : List Text) (t : CType) :
    ∃ keys u, table.Follows t keys u ∧ keys.Nodup ∧ (∀ key ∈ keys, key ∉ seen) ∧
      ((∃ shape, table.EndsIn u shape) ∨ (∃ key, table.Misses u key) ∨
        ∃ key, u.unqualified = .named key ∧ (key ∈ seen ∨ key ∈ keys)) := by
  induction seen, t using TypeTable.lookupFrom.induct table with
  | case1 seen t shape hhead =>
    exact ⟨[], t, .here t, List.nodup_nil, List.forall_mem_nil _, .inl ⟨shape, .unnamed (CType.head_eq_shape.1 hhead)⟩⟩
  | case2 seen t key hhead hseen =>
    exact ⟨[], t, .here t, List.nodup_nil, List.forall_mem_nil _,
      .inr (.inr ⟨key, CType.head_eq_key.1 hhead, .inl hseen⟩)⟩
  | case3 seen t key hhead _ hget =>
    exact ⟨[], t, .here t, List.nodup_nil, List.forall_mem_nil _,
      .inr (.inl ⟨key, CType.head_eq_key.1 hhead, hget⟩)⟩
  | case4 seen t key hhead _ r hget =>
    exact ⟨[], t, .here t, List.nodup_nil, List.forall_mem_nil _,
      .inl ⟨.record r, .defined (CType.head_eq_key.1 hhead) hget rfl⟩⟩
  | case5 seen t key hhead _ e hget =>
    exact ⟨[], t, .here t, List.nodup_nil, List.forall_mem_nil _,
      .inl ⟨.enumeration e, .defined (CType.head_eq_key.1 hhead) hget rfl⟩⟩
  | case6 seen t key hhead hseen a hget _ ih =>
    obtain ⟨keys, u, hu, hn, hfresh, hend⟩ := ih
    have hkey : key ∉ keys := fun hmem => hfresh key hmem List.mem_cons_self
    refine ⟨key :: keys, u, .step (CType.head_eq_key.1 hhead) hget hu, List.nodup_cons.2 ⟨hkey, hn⟩, ?_, ?_⟩
    · exact List.forall_mem_cons.2 ⟨hseen, fun k hk hmem => hfresh k hk (List.mem_cons_of_mem _ hmem)⟩
    · refine hend.imp_right (Or.imp_right ?_)
      rintro ⟨k, hk, hmem⟩
      refine ⟨k, hk, ?_⟩
      simp only [List.mem_cons] at hmem ⊢
      tauto

/-! ## What the answers say -/

/-- A look-up comes to the end of a walk that follows no key twice. -/
theorem lookup_follows (h : table.Follows t keys u) (hn : keys.Nodup) :
    table.lookup t = table.lookupFrom keys.reverse u := by
  have hfresh : ∀ key ∈ keys, key ∉ [] := fun _ _ => List.not_mem_nil
  have hwalk := lookupFrom_follows h hn hfresh
  rw [List.append_nil] at hwalk
  exact hwalk

theorem lookup_of_endsIn (h : table.Follows t keys u) (hu : table.EndsIn u shape) : table.lookup t = .ok shape := by
  rw [lookup_follows h (h.nodup hu.stops)]
  refine lookupFrom_endsIn hu fun key hkey => ?_
  rw [List.mem_reverse]
  exact h.not_mem_of_stops hu.stops hkey

theorem lookup_of_misses (h : table.Follows t keys u) (hu : table.Misses u key) :
    table.lookup t = .error (.unknownType key) := by
  rw [lookup_follows h (h.nodup hu.stops), lookupFrom_key (CType.head_eq_key.2 hu.1), hu.2, if_neg]
  rw [List.mem_reverse]
  exact h.not_mem_of_stops hu.stops hu.1

theorem lookup_of_repeat (h : table.Follows t keys u) (hn : keys.Nodup) (hu : u.unqualified = .named key)
    (hkey : key ∈ keys) : table.lookup t = .error (.typedefCycle key) := by
  rw [lookup_follows h hn, lookupFrom_key (CType.head_eq_key.2 hu), if_pos (List.mem_reverse.2 hkey)]

/-- What an answer says about the end of the walk. -/
def Shows (table : TypeTable) (keys : List Text) (u : CType) : Except Malformed Shape → Prop
  | .ok shape => table.EndsIn u shape
  | .error (.unknownType key) => table.Misses u key
  | .error (.typedefCycle key) => u.unqualified = .named key ∧ key ∈ keys
  | .error _ => False

/-- A look-up answers with the end of a walk that follows no key twice. -/
theorem lookup_shows (table : TypeTable) (t : CType) :
    ∃ keys u, table.Follows t keys u ∧ keys.Nodup ∧ table.Shows keys u (table.lookup t) := by
  obtain ⟨keys, u, hu, hn, -, hend⟩ := table.exists_end [] t
  refine ⟨keys, u, hu, hn, ?_⟩
  rcases hend with ⟨shape, hshape⟩ | ⟨key, hkey⟩ | ⟨key, hkey, hmem⟩
  · rw [lookup_of_endsIn hu hshape]
    exact hshape
  · rw [lookup_of_misses hu hkey]
    exact hkey
  · have hback : key ∈ keys := hmem.resolve_left List.not_mem_nil
    rw [lookup_of_repeat hu hn hkey hback]
    exact ⟨hkey, hback⟩

/-- A look-up finds the shape in which the chain ends. -/
theorem lookup_eq_ok_iff : table.lookup t = .ok shape ↔ ∃ keys u, table.Follows t keys u ∧ table.EndsIn u shape := by
  refine ⟨fun h => ?_, fun ⟨keys, u, hu, hshape⟩ => lookup_of_endsIn hu hshape⟩
  obtain ⟨keys, u, hu, -, hshows⟩ := table.lookup_shows t
  rw [h] at hshows
  exact ⟨keys, u, hu, hshows⟩

theorem lookup_eq_unknown_iff :
    table.lookup t = .error (.unknownType key) ↔ ∃ keys u, table.Follows t keys u ∧ table.Misses u key := by
  refine ⟨fun h => ?_, fun ⟨keys, u, hu, hkey⟩ => lookup_of_misses hu hkey⟩
  obtain ⟨keys, u, hu, -, hshows⟩ := table.lookup_shows t
  rw [h] at hshows
  exact ⟨keys, u, hu, hshows⟩

theorem lookup_eq_cycle_iff : table.lookup t = .error (.typedefCycle key) ↔
    ∃ keys u, table.Follows t keys u ∧ keys.Nodup ∧ u.unqualified = .named key ∧ key ∈ keys := by
  refine ⟨fun h => ?_, fun ⟨keys, u, hu, hn, hkey, hmem⟩ => lookup_of_repeat hu hn hkey hmem⟩
  obtain ⟨keys, u, hu, hn, hshows⟩ := table.lookup_shows t
  rw [h] at hshows
  exact ⟨keys, u, hu, hn, hshows⟩

/-- A cycle is reported just if the chain comes to a key again. -/
theorem exists_cycle_iff : (∃ key, table.lookup t = .error (.typedefCycle key)) ↔
    ∃ keys u, table.Follows t keys u ∧ ¬ keys.Nodup := by
  constructor
  · rintro ⟨key, h⟩
    obtain ⟨keys, u, hu, -, hkey, hmem⟩ := lookup_eq_cycle_iff.1 h
    obtain ⟨a, ha⟩ := hu.typedef_of_mem hmem
    refine ⟨keys ++ [key], a.target, hu.append (.step hkey ha (.here _)), fun hn => ?_⟩
    exact List.disjoint_of_nodup_append hn hmem (List.mem_singleton_self key)
  · rintro ⟨keys, u, hu, hrepeat⟩
    -- a chain with an end has no key twice, and the walk is a part of it
    have hstops : ∀ {keys' v}, table.Follows t keys' v → ¬ table.Stops v := by
      intro keys' v hv hstop
      exact hrepeat ((hv.nodup hstop).sublist (hu.isPrefix hv hstop).sublist)
    obtain ⟨keys', v, hv, hn, -, ⟨shape, hshape⟩ | ⟨key, hkey⟩ | ⟨key, hkey, hmem⟩⟩ := table.exists_end [] t
    · exact absurd hshape.stops (hstops hv)
    · exact absurd hkey.stops (hstops hv)
    · exact ⟨key, lookup_of_repeat hv hn hkey (hmem.resolve_left List.not_mem_nil)⟩

/-- What a look-up says about the chain of typedefs that starts at a type. -/
structure Decides (table : TypeTable) (t : CType) : Prop where
  /-- A shape is found just if the chain ends in it. -/
  shape : ∀ shape, table.lookup t = .ok shape ↔ ∃ keys u, table.Follows t keys u ∧ table.EndsIn u shape
  /-- What is found is neither qualified nor a name, and no typedef. -/
  concrete : ∀ shape, table.lookup t = .ok shape →
    (∀ u, shape.type? = some u → u.unqualified = u ∧ ∀ key, u ≠ .named key) ∧
      ∀ d, shape.definition? = some d → ∀ a, d ≠ .typedef a
  /-- A type is unknown just if the chain comes to a key that the table lacks. -/
  unknown : ∀ key, table.lookup t = .error (.unknownType key) ↔
    ∃ keys u, table.Follows t keys u ∧ table.Misses u key
  /-- A cycle is reported for the first key that the chain comes back to. -/
  cycle : ∀ key, table.lookup t = .error (.typedefCycle key) ↔
    ∃ keys u, table.Follows t keys u ∧ keys.Nodup ∧ u.unqualified = .named key ∧ key ∈ keys
  /-- A cycle is reported just if the chain comes to some key again. -/
  returns : (∃ key, table.lookup t = .error (.typedefCycle key)) ↔ ∃ keys u, table.Follows t keys u ∧ ¬ keys.Nodup
  /-- One of the three comes about, and behind no more typedefs than the table has keys. -/
  ends : ∃ keys u, table.Follows t keys u ∧ keys.length ≤ table.keys.length ∧
    ((∃ shape, table.EndsIn u shape) ∨ (∃ key, table.Misses u key) ∨ ∃ key, u.unqualified = .named key ∧ key ∈ keys)

/-- **A look-up decides every chain of typedefs**, in every table and from every type. -/
theorem lookup_decides (table : TypeTable) (t : CType) : table.Decides t := by
  refine ⟨fun _ => lookup_eq_ok_iff, fun shape _ => shape.concrete, fun _ => lookup_eq_unknown_iff,
    fun _ => lookup_eq_cycle_iff, exists_cycle_iff, ?_⟩
  obtain ⟨keys, u, hu, hn, -, hend⟩ := table.exists_end [] t
  have hlength : keys.length ≤ table.keys.length := (hn.subperm hu.subset_keys).length_le
  refine ⟨keys, u, hu, hlength, ?_⟩
  refine hend.imp_right (Or.imp_right ?_)
  rintro ⟨key, hkey, hmem⟩
  exact ⟨key, hkey, hmem.resolve_left List.not_mem_nil⟩

/-- A typedef of itself, and one that leads there. -/
def loopTable : TypeTable :=
  ⟨[("a", .qualified (.named "b") true false), ("b", .named "b")].map fun (key, target) =>
    .typedef { key, target, origin := "a.h", comment := none }, true⟩

/-- The cycle need not hold the key that the chain starts with. -/
example : fault? (lookup loopTable (.named "a")) = some (.typedefCycle "b") := by decide +kernel

end TypeTable

end TrapStub
