import TrapStub.Proofs.Survey.Mentions
import TrapStub.Proofs.Survey.Definitions
import TrapStub.Proofs.Header.Spelling

/-!
# Structs and unions without a tag

A struct or union without a tag is written with its body wherever its key stands, and so are the untagged ones
in that body. The writing comes to an end when none of them has itself inside: what the table says of the
members is what the unit says of the fields.

* `Source.MentionsKey`, `Source.Encloses`: the keys in a type, and in the body of an untagged struct or union.
* `Source.Bodied`: every untagged struct or union has a body, and none is inside itself.
* `Source.interface_writable`: **the table of such a unit can be written.**
-/

namespace TrapStub.Source

open Survey

variable {source : Source} {s t : Findings} {c : Cursor}

/-- The type mentions the key. -/
inductive MentionsKey (source : Source) : TypeId → Text → Prop
  | record {t : TypeId} (hk : (source.unit.type t).kind = .record) :
      MentionsKey source t (source.recordKey (source.declared t))
  | enumeration {t : TypeId} {definition : Cursor} (hk : (source.unit.type t).kind = .enumeration) :
      MentionsKey source t (source.keyOf definition "enum").1
  | typedef {t : TypeId} (hk : (source.unit.type t).kind = .typedef)
      (ho : (source.originOf? (source.declared t)).isSome = true) : MentionsKey source t (source.declared t).spelling
  | part {t next : TypeId} {byValue w : Bool} {key : Text} (hp : source.Part t byValue next w)
      (h : MentionsKey source next key) : MentionsKey source t key

/-- A field of an untagged struct or union mentions the key. -/
def Encloses (source : Source) (outer inner : Text) : Prop :=
  ∃ c ∈ source.records, source.isUntagged c = true ∧ source.recordKey c = outer ∧
    ∃ field ∈ source.fieldsOf c, source.MentionsKey (source.typeOf field) inner

/-- Untagged structs and unions have bodies, and none of them is inside itself. -/
structure Bodied (source : Source) : Prop where
  defined : ∀ c ∈ source.records, source.isUntagged c = true → c.definition.isSome = true
  acyclic : ∀ key, ¬ Relation.TransGen source.Encloses key key

/-- The definition, if it is that of an anonymous record, has members, and the unit encloses what they mention. -/
def Described (source : Source) (d : TypeDef) : Prop :=
  ∀ r, d = .record r → r.anonymous = true → r.isComplete = true ∧ ∀ key ∈ d.mentions, source.Encloses r.key key

/-- Anonymous records are in the table with their members. -/
def untagged (source : Source) : Contract where
  invariant s := ∀ d ∈ s.table.entries, source.Described d
  admits _ _ _ := True
  enters c _ := c ∈ source.records
  names _ := True
  answers t _ type _ := ∀ key ∈ type.keys, source.MentionsKey t key

theorem Described.register {table : TypeTable} {d stored : TypeDef} (hs : ∀ e ∈ s.table.entries, source.Described e)
    (hr : s.table.register d = .ok (table, stored)) (hd : source.Described d) :
    ∀ e ∈ table.entries, source.Described e := by
  intro e he
  rcases (TypeTable.register_cases hr).of_mem he with he | rfl
  · exact hs e he
  · exact hd

theorem mentionsKey_named {t : TypeId} {name : Text} (h : source.MentionsKey t name) :
    ∀ key ∈ (CType.named name).keys, source.MentionsKey t key := by
  intro key hk
  rw [CType.keys, List.mem_singleton] at hk
  exact hk ▸ h

theorem untagged_governs (hb : source.Bodied) : source.untagged.Governs source where
  empty := List.forall_mem_nil _
  allows _ hid := ⟨top_mem_records hid, fun _ => ⟨trivial, trivial⟩⟩
  idle _ := trivial
  sameTypes := by
    intro s t hs h d hd
    rw [h.table] at hd
    exact hs d hd
  grows _ h := h
  part _ _ := trivial
  underlying _ _ _ := ⟨trivial, trivial⟩
  enter hk _ _ := declared_mem_records hk
  member _ _ _ _ := trivial
  leaf := by
    intro t v type s _ hkeys key hk
    rw [hkeys] at hk
    cases hk
  unqualified := by
    intro t v type a s ha h key hk
    exact ha key (keys_of_unqualified h ▸ hk)
  passes := by
    intro t v next type s hp h key hk
    have hpart : source.Part t v next v := .passes hp
    exact .part hpart (h key hk)
  array := by
    intro t v type length s harray h key hk
    have hpart : source.Part t v _ v := .element harray
    exact .part hpart (h key hk)
  pointer := by
    intro t v type s hpointer h key hk
    have hpart : source.Part t v _ false := .pointee hpointer
    exact .part hpart (h key hk)
  function := by
    intro t v arguments result parameters variadic s hkind harguments hresult hparameters key hk
    rcases List.mem_append.1 hk with hk | hk
    · have hpart : source.Part t v _ false := .result hkind
      exact .part hpart (hresult key hk)
    · obtain ⟨p, hp, hk⟩ := mem_keysOfAll hk
      obtain ⟨a, ha, hmentions⟩ := forall₂_exists_of_mem_right hparameters hp
      rw [harguments] at ha
      split at ha
      · rename_i hproto
        have hpart : source.Part t v a false := .argument hproto ha
        exact .part hpart (hmentions key hk)
      · cases ha
  reached hk _ _ _ := mentionsKey_named (.record hk)
  typedefDone hk ho _ _ := mentionsKey_named (.typedef hk ho)
  enumerationDone hk _ _ := mentionsKey_named (.enumeration hk)
  start hs _ _ _ _ := hs
  name := by
    intro c anonymous table stored s hs hanonymous hr
    refine Described.register hs hr fun r hrecord ha => ?_
    cases hrecord
    -- an untagged struct or union without a definition is not entered
    obtain ⟨huntagged, hnone, hc⟩ := hanonymous ha
    have hsome := hb.defined c hc huntagged
    rw [hnone] at hsome
    cases hsome
  define := by
    intro c members started table stored u hu hc _ _ _ hmembers hr
    refine Described.register hu hr fun r hrecord ha => ?_
    cases hrecord
    refine ⟨rfl, fun key hk => ⟨c, hc, ha, rfl, ?_⟩⟩
    obtain ⟨m, hmem, hk⟩ := List.mem_flatMap.1 hk
    obtain ⟨⟨m, demanded⟩, hm, rfl⟩ := List.mem_map.1 hmem
    obtain ⟨field, hfield, hmentions⟩ := forall₂_exists_of_mem_right hmembers hm
    exact ⟨field, hfield, hmentions key hk⟩
  defineTypedef hu _ _ hr := Described.register hu hr nofun
  defineEnumeration hs _ hr := Described.register hs hr nofun

/-- **The table of an interface can be written**, every untagged struct or union having a body that is not inside
itself. -/
theorem interface_writable (hb : source.Bodied) {interface : Interface} (h : source.interface = .ok interface) :
    interface.table.Writable := by
  obtain ⟨t, hsurveys, htable⟩ := interface_surveys h
  obtain ⟨⟨hdescribed, -⟩, -⟩ := (untagged_governs hb).surveys hsurveys
  have hentry : ∀ {key r}, interface.table.get? key = some (.record r) → r.anonymous = true →
      r.key = key ∧ r.isComplete = true ∧ ∀ inner ∈ (TypeDef.record r).mentions, source.Encloses r.key inner := by
    intro key r hget ha
    rw [htable] at hget
    obtain ⟨hmem, hkey⟩ := TypeTable.get?_eq_some_mem hget
    exact ⟨hkey, hdescribed _ hmem r rfl ha⟩
  have hholds : interface.table.Holds ≤ source.Encloses := by
    rintro outer inner ⟨r, members, hget, ha, hmembers, m, hm, hinner⟩
    obtain ⟨rfl, -, hencloses⟩ := hentry hget ha
    refine hencloses inner (List.mem_flatMap.2 ⟨m, ?_, hinner⟩)
    rw [hmembers]
    exact hm
  exact ⟨fun key r hget ha => (hentry hget ha).2.1,
    fun key hcycle => hb.acyclic key (Relation.TransGen.mono hholds key key hcycle)⟩

end TrapStub.Source
