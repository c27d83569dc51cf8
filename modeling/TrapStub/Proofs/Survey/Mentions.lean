import TrapStub.Proofs.Survey.Contract

/-!
# Typedefs and enums stand before what mentions them

A conversion answers with a type whose keys the table has, but for the records that are being defined.
These enter the table when their members are known, and as records they may be mentioned before.

* `Findings.Known`: what an answer may mention. `Findings.Orderly`: the invariant of the table.
* `Findings.Orderly.register`: a definition enters the table. `Source.orderly_governs`: so it does in a walk.
* `Source.mentioned_before`: **every key that a definition mentions has a definition, and unless it is
  that of a record, it stands before.**
-/

namespace TrapStub

variable {s t u : Findings} {d : TypeDef}

/-- The key has a definition, or is that of a record that is being defined. -/
def Findings.Known (s : Findings) (key : Text) : Prop := s.table.contains key = true ∨ key ∈ s.started

/-- The definition may mention the key: it stands before, is that of a record, or will be. -/
def Findings.Introduced (s : Findings) (d : TypeDef) (key : Text) : Prop :=
  (∃ e, s.table.Before e d ∧ e.key = key) ∨ (∃ e ∈ s.table.entries, e.isRecord = true ∧ e.key = key) ∨
    key ∈ s.started

/-- The definitions in the table may mention what they do. -/
structure Findings.Orderly (s : Findings) : Prop where
  nodup : s.table.keys.Nodup
  settled : ∀ key ∈ s.done, s.table.Settled key
  introduced : ∀ d ∈ s.table.entries, ∀ key ∈ d.mentions, s.Introduced d key

theorem Findings.Grows.known (h : s.Grows t) {key : Text} (hk : s.Known key) : t.Known key := by
  rcases hk with hk | hk
  · exact Or.inl (h.contains key hk)
  · exact Or.inr (h.started ▸ hk)

namespace Findings.Orderly

theorem empty : Findings.empty.Orderly := ⟨List.nodup_nil, nofun, nofun⟩

/-- Only what is known of types counts. -/
theorem congr (hs : s.Orderly) (h : s.SameTypes t) : t.Orderly := by
  obtain ⟨htable, hdone, hstarted⟩ := h
  refine ⟨htable ▸ hs.nodup, fun key hk => htable ▸ hs.settled key (hdone ▸ hk), fun d hd key hk => ?_⟩
  unfold Introduced
  rw [htable, hstarted]
  exact hs.introduced d (htable ▸ hd) key hk

theorem contains_of_done (hs : s.Orderly) {key : Text} (hk : key ∈ s.done) : s.table.contains key = true := by
  obtain ⟨d, hget, -⟩ := hs.settled key hk
  rw [TypeTable.contains, hget]
  rfl

/-- **A definition whose mentions are known enters the table.** What is started is started afterwards, unless
it is the record that the definition makes. -/
theorem register {table : TypeTable} {stored : TypeDef} {started : List Text} (hs : s.Orderly)
    (hr : s.table.register d = .ok (table, stored)) (hd : ∀ key ∈ d.mentions, s.Known key)
    (hstarted : ∀ key ∈ s.started, key ∈ started ∨ key = d.key ∧ d.isRecord = true) :
    ({ s with table, started } : Findings).Orderly := by
  have hcases := TypeTable.register_cases hr
  have hnodup := hcases.keys_nodup hs.nodup
  -- a record may be mentioned anywhere once it is in the table
  have hown : ∀ {x : TypeDef}, d.isRecord = true → ({ s with table, started } : Findings).Introduced x d.key := by
    intro x hrecord
    obtain ⟨e, hget, he, -⟩ := hcases.entry hs.nodup
    obtain ⟨hmem, hkey⟩ := TypeTable.get?_eq_some_mem hget
    exact Or.inr (Or.inl ⟨e, hmem, he.trans hrecord, hkey⟩)
  have hwaiting : ∀ {x : TypeDef} {key : Text}, key ∈ s.started →
      ({ s with table, started } : Findings).Introduced x key := by
    intro x key hk
    rcases hstarted key hk with hk | ⟨rfl, hrecord⟩
    · exact Or.inr (Or.inr hk)
    · exact hown hrecord
  refine ⟨hnodup, fun key hk => hcases.settled hs.nodup (hs.settled key hk), ?_⟩
  show ∀ x ∈ table.entries, ∀ key ∈ x.mentions, ({ s with table, started } : Findings).Introduced x key
  cases hcases with
  | kept hget hmeet =>
    intro x hx key hk
    rcases hs.introduced x hx key hk with h | h | h
    · exact Or.inl h
    · exact Or.inr (Or.inl h)
    · exact hwaiting h
  | placed hnew =>
    -- the only definition that leaves its place is that of a record
    have hmoved : ∀ {e : TypeDef}, e ∈ s.table.entries → e.key = d.key → d.isRecord = true :=
      fun he hkey => (hnew _ (hkey ▸ TypeTable.get?_of_mem hs.nodup he)).2.1
    intro x hx key hk
    rcases TypeTable.mem_placeLast.1 hx with ⟨hx, hxd⟩ | rfl
    · rcases hs.introduced x hx key hk with ⟨e, hbefore, rfl⟩ | ⟨e, he, hrecord, rfl⟩ | h
      · by_cases hed : e.key = d.key
        · rw [hed]
          exact hown (hmoved hbefore.mem.1 hed)
        · exact Or.inl ⟨e, TypeTable.before_placeLast hbefore hed hxd, rfl⟩
      · by_cases hed : e.key = d.key
        · rw [hed]
          exact hown (hmoved he hed)
        · exact Or.inr (Or.inl ⟨e, TypeTable.mem_placeLast.2 (Or.inl ⟨he, hed⟩), hrecord, rfl⟩)
      · exact hwaiting h
    · rcases hd key hk with h | h
      · obtain ⟨e, he, rfl⟩ := TypeTable.contains_iff.1 h
        by_cases hed : e.key = x.key
        · rw [hed]
          exact hown (hmoved he hed)
        · exact Or.inl ⟨e, TypeTable.before_last he hed, rfl⟩
      · exact hwaiting h

theorem start (hs : s.Orderly) (key : Text) : ({ s with started := key :: s.started } : Findings).Orderly :=
  ⟨hs.nodup, hs.settled, fun d hd k hk => (hs.introduced d hd k hk).imp_right (Or.imp_right (List.mem_cons_of_mem key))⟩

theorem finish (hs : s.Orderly) {key : Text} (hk : s.table.Settled key) :
    ({ s with done := key :: s.done } : Findings).Orderly :=
  ⟨hs.nodup, List.forall_mem_cons.2 ⟨hk, hs.settled⟩, hs.introduced⟩

end Findings.Orderly

namespace Source

open Survey

variable {source : Source} {below : Conversion} {c : Cursor} {type : CType}

/-- All keys of the type are known. -/
def KnownKeys (type : CType) (s : Findings) : Prop := ∀ key ∈ type.keys, s.Known key

theorem KnownKeys.grows {s t : Findings} (hst : s.Grows t) (h : KnownKeys type s) : KnownKeys type t :=
  fun key hk => hst.known (h key hk)

theorem knownKeys_named {key : Text} (h : s.Known key) : KnownKeys (.named key) s := by
  intro k hk
  rwa [List.mem_singleton.1 hk]

theorem keys_of_unqualified {a b : CType} (h : a.unqualified = b.unqualified) : a.keys = b.keys := by
  rw [← a.keys_unqualified, ← b.keys_unqualified, h]

theorem mem_keysOfAll {key : Text} : ∀ {types : List CType}, key ∈ CType.keysOfAll types → ∃ t ∈ types, key ∈ t.keys
  | [], h => absurd h List.not_mem_nil
  | t :: rest, h => by
    rcases List.mem_append.1 h with h | h
    · exact ⟨t, List.mem_cons_self, h⟩
    · obtain ⟨x, hx, hk⟩ := mem_keysOfAll h
      exact ⟨x, List.mem_cons_of_mem t hx, hk⟩

/-- Conversions keep the table in order and answer with types of known keys. -/
def orderly : Contract where
  invariant := Findings.Orderly
  admits _ _ _ := True
  enters _ _ := True
  names _ := True
  answers _ _ := KnownKeys

theorem orderly_governs : orderly.Governs source where
  empty := .empty
  allows _ _ := ⟨fun _ => trivial, fun _ => ⟨trivial, trivial⟩⟩
  idle _ := trivial
  sameTypes hs h := hs.congr h
  grows hst h := h.grows hst
  part _ _ := trivial
  underlying _ _ _ := ⟨trivial, trivial⟩
  enter _ _ _ := trivial
  member _ _ _ _ := trivial
  leaf := by
    intro t v type s _ hkeys key hk
    rw [hkeys] at hk
    cases hk
  unqualified := by
    intro t v type a s ha h key hk
    exact ha key (keys_of_unqualified h ▸ hk)
  passes _ h := h
  array _ h := h
  pointer _ h := h
  function := by
    intro t v arguments result parameters variadic s _ _ hresult hparameters key hk
    rcases List.mem_append.1 hk with hk | hk
    · exact hresult key hk
    · obtain ⟨p, hp, hk⟩ := mem_keysOfAll hk
      obtain ⟨a, -, ha⟩ := forall₂_exists_of_mem_right hparameters hp
      exact ha key hk
  reached := by
    intro t v s _ hs _ hreached
    refine knownKeys_named ?_
    cases hreached with
    | defined _ hk => exact Or.inl (hs.contains_of_done hk)
    | started _ hk => exact Or.inr hk
    | undefined _ _ hc => exact Or.inl hc
    | named _ _ hc => exact Or.inl hc
  typedefDone _ _ hs hk := knownKeys_named (Or.inl (hs.contains_of_done hk))
  enumerationDone _ hs hk := knownKeys_named (Or.inl (hs.contains_of_done hk))
  start hs _ _ _ _ := hs.start _
  name hs _ hr := hs.register hr nofun fun _ hk => Or.inl hk
  define := by
    intro c members started table stored u hu _ _ hstarted _ hmembers hr
    have hmentions : ∀ k ∈ (TypeDef.record (source.completeRecord (source.recordKey c) c
        (source.unit.cursor c.definition) (source.isUntagged c) members)).mentions, u.Known k := by
      intro k hk
      obtain ⟨m, hmem, hk⟩ := List.mem_flatMap.1 hk
      obtain ⟨⟨m, demanded⟩, hm, rfl⟩ := List.mem_map.1 hmem
      obtain ⟨field, -, hfield⟩ := forall₂_exists_of_mem_right hmembers hm
      exact hfield k hk
    -- the key is no longer started, but it is that of a record in the table
    have hwaiting : ∀ k ∈ u.started, k ∈ started ∨ k = source.recordKey c ∧ true = true := by
      intro k hk
      rw [hstarted] at hk
      exact (List.mem_cons.1 hk).symm.imp_right fun h => ⟨h, rfl⟩
    exact (hu.register hr hmentions hwaiting).finish ((TypeTable.register_cases hr).settled_key hu.nodup rfl)
  defineTypedef hu _ htarget hr :=
    (hu.register hr htarget fun _ hk => Or.inl hk).finish ((TypeTable.register_cases hr).settled_key hu.nodup rfl)
  defineEnumeration := by
    intro definition e table stored s hs he hr
    rw [← he]
    exact (hs.register hr nofun fun _ hk => Or.inl hk).finish
      ((TypeTable.register_cases hr).settled_key hs.nodup rfl)

theorem Surveys.mentioned {t : Findings} (h : source.Surveys source.unit.top .empty t) {d : TypeDef}
    (hd : d ∈ t.table.entries) {key : Text} (hk : key ∈ d.mentions) :
    ∃ e, t.table.get? key = some e ∧ (e.isRecord = false → t.table.Before e d) := by
  obtain ⟨⟨ht, hstarted⟩, -⟩ := orderly_governs.surveys h
  rcases ht.introduced d hd key hk with ⟨e, hbefore, rfl⟩ | ⟨e, he, hrecord, rfl⟩ | hk
  · exact ⟨e, TypeTable.get?_of_mem ht.nodup hbefore.mem.1, fun _ => hbefore⟩
  · refine ⟨e, TypeTable.get?_of_mem ht.nodup he, fun hother => ?_⟩
    rw [hrecord] at hother
    cases hother
  · rw [hstarted] at hk
    exact absurd hk List.not_mem_nil

/-- No key of an interface has two definitions. -/
theorem interface_keys_nodup {interface : Interface} (h : source.interface = .ok interface) :
    interface.table.keys.Nodup := by
  obtain ⟨t, hsurveys, htable⟩ := interface_surveys h
  obtain ⟨⟨ht, -⟩, -⟩ := orderly_governs.surveys hsurveys
  rw [htable]
  exact ht.nodup

/-- **Every key that a definition mentions has a definition**, and unless it is that of a record, it
stands before. No bound on how types lead to each other is needed: where only typedefs lead back to a
type, there is no interface. -/
theorem mentioned_before {interface : Interface} (h : source.interface = .ok interface) {d : TypeDef}
    (hd : d ∈ interface.table.entries) {key : Text} (hk : key ∈ d.mentions) :
    ∃ e, interface.table.get? key = some e ∧ (e.isRecord = false → interface.table.Before e d) := by
  obtain ⟨t, hsurveys, htable⟩ := interface_surveys h
  rw [htable] at hd ⊢
  exact hsurveys.mentioned hd hk

end Source

/-! The header `typedef struct r r_t; typedef struct k k_t; struct k { int v; }; struct r { k_t *p; k_t k; };`,
whose first typedef defines a struct before the other typedef is met. -/

def lateSource : Source :=
  { staged := ⟨[], [("a.h", [])], []⟩
    unit :=
      { top := [some 0, some 1, some 2, some 3], diagnostics := []
        cursors := #[
          { kind := .typedefDecl, spelling := "r_t", file := some "corpus/a.h", underlying := some 0 },
          { kind := .typedefDecl, spelling := "k_t", file := some "corpus/a.h", underlying := some 1 },
          { kind := .structDecl, spelling := "k", file := some "corpus/a.h", isDefinition := true
            definition := some 2, type := some 1 },
          { kind := .structDecl, spelling := "r", file := some "corpus/a.h", isDefinition := true
            definition := some 3, type := some 0 },
          { spelling := "v", type := some 2, fieldOffset := 0 },
          { spelling := "p", type := some 3, fieldOffset := 0 },
          { spelling := "k", type := some 4, fieldOffset := 32 }]
        types := #[
          { kind := .record, size := 8, align := 4, declaration := some 3, fields := [some 5, some 6] },
          { kind := .record, size := 4, align := 4, declaration := some 2, fields := [some 4] },
          { kind := .scalar .int, spelling := "int", size := 4, align := 4 },
          { kind := .pointer, size := 4, align := 4, pointee := some 4 },
          { kind := .typedef, size := 4, align := 4, declaration := some 1 }] } }

def lateK : Record :=
  { key := "struct k", kind := .struct, size := 4, align := 4, packed := false, aligned := false, pack := none
    anonymous := false, origin := "a.h", comment := none
    members := some [⟨"v", .scalar ⟨"int", 4, true, false⟩, none, some 0, false, none⟩] }

def lateR : Record :=
  { key := "struct r", kind := .struct, size := 8, align := 4, packed := false, aligned := false, pack := none
    anonymous := false, origin := "a.h", comment := none
    members := some [⟨"p", .pointer (.named "k_t"), none, some 0, false, none⟩,
      ⟨"k", .named "k_t", none, some 32, false, none⟩] }

def lateKT : Typedef := { key := "k_t", target := .named "struct k", origin := "a.h", comment := none }

def lateRT : Typedef := { key := "r_t", target := .named "struct r", origin := "a.h", comment := none }

/-- What the walk makes of it. -/
def lateTable : TypeTable := ⟨[ .typedef lateKT, .record lateR, .typedef lateRT, .record lateK], true⟩

theorem lateSource_interface : ∃ interface, lateSource.interface = .ok interface ∧ interface.table = lateTable := by
  have htable : lateSource.interface.toOption.map Interface.table = some lateTable := by decide +kernel
  exact exists_of_toOption_map htable

theorem lateSource_mentioned : ∃ interface, lateSource.interface = .ok interface ∧
    .record lateR ∈ interface.table.entries ∧ ("k_t" : Text) ∈ (TypeDef.record lateR).mentions ∧
    interface.table.Before (.typedef lateKT) (.record lateR) := by
  obtain ⟨interface, hinterface, htable⟩ := lateSource_interface
  have hentry : .record lateR ∈ interface.table.entries := by
    rw [htable]
    decide
  have hmention : ("k_t" : Text) ∈ (TypeDef.record lateR).mentions := by decide
  obtain ⟨e, hget, hbefore⟩ := Source.mentioned_before hinterface hentry hmention
  have htypedef : interface.table.get? "k_t" = some (.typedef lateKT) := by
    rw [htable]
    decide
  obtain rfl := Option.some.inj (htypedef.symm.trans hget)
  exact ⟨interface, hinterface, hentry, hmention, hbefore rfl⟩

end TrapStub
