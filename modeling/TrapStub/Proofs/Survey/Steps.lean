import TrapStub.Proofs.Answer
import TrapStub.Survey.Convert

/-!
# The steps of a conversion

What each definition step of a conversion does when it answers, said once: the answer, and the
findings after it in terms of those before. Later proofs take a run apart with these and do not
open the steps again.

* `Survey.mapM_answers`, `Survey.mapM_fault`: steps in turn.
* `Source.convertWith_eq_ok`, `Source.member_eq_ok`: types and members.
* `Source.record_cases`, `Source.record_fault`, `Source.recordNamed_cases`: structs and unions.
* `Source.enumeration_cases`, `Source.typedef_cases`: enums and typedefs.
-/

namespace TrapStub

variable {α β : Type} {s t u : Findings}

namespace Survey

theorem bind_run {x : Survey α} {f : α → Survey β} : (x >>= f) s = x s >>= fun r => f r.1 r.2 := rfl

theorem pure_run {a : α} : (pure a : Survey α) s = .ok (a, s) := rfl

theorem get_run : (get : Survey Findings) s = .ok (s, s) := rfl

theorem lift_run {x : Except Fault α} : (liftM x : Survey α) s = x >>= fun a => .ok (a, s) := rfl

theorem bind_eq_ok {x : Survey α} {f : α → Survey β} {b : β} :
    (x >>= f) s = .ok (b, u) ↔ ∃ a t, x s = .ok (a, t) ∧ f a t = .ok (b, u) := by
  rw [bind_run, TrapStub.bind_eq_ok]
  exact Prod.exists

theorem bind_eq_error {x : Survey α} {f : α → Survey β} {fault : Fault} :
    (x >>= f) s = .error fault ↔ x s = .error fault ∨ ∃ a t, x s = .ok (a, t) ∧ f a t = .error fault := by
  rw [bind_run, TrapStub.bind_eq_error, Prod.exists]

theorem pure_eq_ok {a b : α} : (pure a : Survey α) s = .ok (b, t) ↔ a = b ∧ s = t := by
  rw [pure_run, Except.ok.injEq, Prod.mk.injEq]

/-- A step whose answer is worked up without another look at the findings. -/
theorem bind_pure_eq_ok {x : Survey α} {f : α → β} {b : β} :
    (x >>= fun a => pure (f a)) s = .ok (b, t) ↔ ∃ a, x s = .ok (a, t) ∧ f a = b := by
  rw [bind_eq_ok]
  constructor
  · rintro ⟨a, u, ha, h⟩
    obtain ⟨rfl, rfl⟩ := pure_eq_ok.1 h
    exact ⟨a, ha, rfl⟩
  · rintro ⟨a, ha, rfl⟩
    exact ⟨a, t, ha, rfl⟩

theorem get_eq_ok {state : Findings} : (get : Survey Findings) s = .ok (state, t) ↔ s = state ∧ s = t := by
  rw [get_run, Except.ok.injEq, Prod.mk.injEq]

theorem modify_eq_ok {change : Findings → Findings} {a : Unit} :
    (modify change : Survey Unit) s = .ok (a, t) ↔ change s = t := by
  rw [show (modify change : Survey Unit) s = .ok ((), change s) from rfl, Except.ok.injEq, Prod.mk.injEq]
  exact and_iff_right rfl

theorem set_eq_ok {state : Findings} {a : Unit} : (set state : Survey Unit) s = .ok (a, t) ↔ state = t := by
  rw [show (set state : Survey Unit) s = .ok ((), state) from rfl, Except.ok.injEq, Prod.mk.injEq]
  exact and_iff_right rfl

/-- An answer from outside the walk changes no findings. -/
theorem lift_eq_ok {x : Except Fault α} {a : α} : (liftM x : Survey α) s = .ok (a, t) ↔ x = .ok a ∧ s = t := by
  cases x with
  | error fault => exact ⟨nofun, fun h => nomatch h.1⟩
  | ok b => rw [show (liftM (Except.ok b : Except Fault α) : Survey α) s = .ok (b, s) from rfl, Except.ok.injEq,
      Prod.mk.injEq, Except.ok.injEq]

theorem lift_eq_error {x : Except Fault α} {fault : Fault} :
    (liftM x : Survey α) s = .error fault ↔ x = .error fault := by
  cases x with
  | error other =>
    rw [show (liftM (Except.error other : Except Fault α) : Survey α) s = .error other from rfl,
      Except.error.injEq, Except.error.injEq]
  | ok a => exact ⟨nofun, nofun⟩

theorem registerType_eq_ok {definition : TypeDef} {a : Unit} :
    registerType definition s = .ok (a, t) ↔
      ∃ table stored, s.table.register definition = .ok (table, stored) ∧ { s with table } = t := by
  unfold registerType
  rw [bind_eq_ok]
  simp only [get_eq_ok, bind_eq_ok, lift_eq_ok]
  constructor
  · rintro ⟨state, _, ⟨rfl, rfl⟩, ⟨table, stored⟩, _, ⟨hr, rfl⟩, h⟩
    exact ⟨table, stored, hr, set_eq_ok.1 h⟩
  · rintro ⟨table, stored, hr, rfl⟩
    exact ⟨s, s, ⟨rfl, rfl⟩, (table, stored), s, ⟨hr, rfl⟩, rfl⟩

theorem registerType_eq_error {definition : TypeDef} {fault : Fault} :
    registerType definition s = .error fault ↔ s.table.register definition = .error fault := by
  unfold registerType
  rw [bind_eq_error]
  constructor
  · rintro (h | ⟨state, _, hget, h⟩)
    · cases h
    · obtain ⟨rfl, rfl⟩ := get_eq_ok.1 hget
      rcases bind_eq_error.1 h with h | ⟨_, _, -, h⟩
      · exact lift_eq_error.1 h
      · cases h
  · exact fun h => Or.inr ⟨s, s, rfl, bind_eq_error.2 (Or.inl (lift_eq_error.2 h))⟩

/-- A definition enters the table, and with that its key is done. -/
theorem finish_eq_ok {definition : TypeDef} {key : Text} {a b : α} :
    (do registerType definition; modify fun state => { state with done := key :: state.done }; return a : Survey α) s =
        .ok (b, t) ↔
      ∃ table stored, s.table.register definition = .ok (table, stored) ∧
        { s with table, done := key :: s.done } = t ∧ a = b := by
  rw [bind_eq_ok]
  constructor
  · rintro ⟨_, u, hr, h⟩
    obtain ⟨table, stored, hreg, rfl⟩ := registerType_eq_ok.1 hr
    obtain ⟨_, hdone, rfl⟩ := bind_pure_eq_ok.1 h
    exact ⟨table, stored, hreg, modify_eq_ok.1 hdone, rfl⟩
  · rintro ⟨table, stored, hreg, rfl, rfl⟩
    exact ⟨(), { s with table }, registerType_eq_ok.2 ⟨table, stored, hreg, rfl⟩, rfl⟩

/-- The answers of some steps are those that each of them has after some findings. -/
theorem mapM_answers {f : α → Survey β} {l : List α} {r : List β} (h : l.mapM f s = .ok (r, t)) :
    List.Forall₂ (fun a b => ∃ u v, f a u = .ok (b, v)) l r := by
  induction l generalizing s r with
  | nil =>
    obtain ⟨rfl, -⟩ := pure_eq_ok.1 h
    exact .nil
  | cons a l ih =>
    rw [List.mapM_cons] at h
    obtain ⟨b, u, hb, h⟩ := bind_eq_ok.1 h
    obtain ⟨rest, hrest, rfl⟩ := bind_pure_eq_ok.1 h
    exact .cons ⟨s, u, hb⟩ (ih hrest)

/-- Steps in turn fail as one of them does. -/
theorem mapM_fault {f : α → Survey β} {l : List α} {fault : Fault} (h : l.mapM f s = .error fault) :
    ∃ a ∈ l, ∃ u, f a u = .error fault := by
  induction l generalizing s with
  | nil => cases h
  | cons a l ih =>
    rw [List.mapM_cons] at h
    rcases bind_eq_error.1 h with h | ⟨b, u, -, h⟩
    · exact ⟨a, List.mem_cons_self, s, h⟩
    · rcases bind_eq_error.1 h with h | ⟨rest, v, -, h⟩
      · obtain ⟨a', ha', hfault⟩ := ih h
        exact ⟨a', List.mem_cons_of_mem a ha', hfault⟩
      · cases h

end Survey

namespace Source

variable {source : Source} {below : Conversion} {c : Cursor} {type : CType}

theorem convertWith_eq_ok {t : TypeId} {byValue : Bool} {u : Findings} :
    source.convertWith below t byValue s = .ok (type, u) ↔
      ∃ base, below t byValue s = .ok (base, u) ∧ qualify (source.unit.type t) base = type :=
  Survey.bind_pure_eq_ok

/-- A member is recorded with the type that its own converts to, and with the attributes that are seen. -/
theorem member_eq_ok {answer : Member × Int} (h : source.member below c s = .ok (answer, t)) :
    source.convertWith below c.type true s = .ok (answer.1.type, t) ∧
      ∃ place, answer.1.aligned = (source.memberAttributes c place).2 := by
  unfold member at h
  obtain ⟨explicit, u, hexplicit, h⟩ := Survey.bind_eq_ok.1 h
  obtain ⟨-, rfl⟩ := Survey.lift_eq_ok.1 hexplicit
  obtain ⟨type, htype, rfl⟩ := Survey.bind_pure_eq_ok.1 h
  exact ⟨htype, _, rfl⟩

/-- What the definition of a struct or union does to the findings. -/
inductive RecordStep (source : Source) (below : Conversion) (c : Cursor) (key : Text) (anonymous : Bool)
    (s : Findings) : Findings → Prop
  /-- It is defined or being defined already. -/
  | known (h : key ∈ s.done ∨ key ∈ s.started) : RecordStep source below c key anonymous s s
  /-- There is nothing but its name, and the table has that. -/
  | present (hn : key ∉ s.done ∧ key ∉ s.started) (hd : c.definition = none)
      (hc : s.table.contains key = true) : RecordStep source below c key anonymous s s
  /-- There is nothing but its name, and it enters the table. -/
  | named {table : TypeTable} {stored : TypeDef} (hn : key ∉ s.done ∧ key ∉ s.started) (hd : c.definition = none)
      (hc : s.table.contains key = false)
      (hr : s.table.register (.record (incompleteRecord key (recordKind c) anonymous (source.originOf c))) =
        .ok (table, stored)) : RecordStep source below c key anonymous s { s with table }
  /-- It is defined, after what its members need. -/
  | defined {members : List (Member × Int)} {u : Findings} {table : TypeTable} {stored : TypeDef}
      (hn : key ∉ s.done ∧ key ∉ s.started) (hd : c.definition.isSome = true)
      (hm : ((source.unit.type (source.unit.cursor c.definition).type).fields.mapM fun field =>
        source.member below (source.unit.cursor field)) { s with started := key :: s.started } = .ok (members, u))
      (hr : u.table.register (.record (source.completeRecord key c (source.unit.cursor c.definition) anonymous
        members)) = .ok (table, stored)) :
      RecordStep source below c key anonymous s
        { u with started := u.started.filter (· != key), table := table, done := key :: u.done }

theorem record_cases (h : source.record below c s = .ok (type, t)) :
    type = .named (source.keyOf c (recordKind c).keyword).1 ∧
      RecordStep source below c (source.keyOf c (recordKind c).keyword).1
        (source.keyOf c (recordKind c).keyword).2 s t := by
  unfold record at h
  generalize source.keyOf c (recordKind c).keyword = pair at h ⊢
  obtain ⟨key, anonymous⟩ := pair
  dsimp only at h ⊢
  obtain ⟨_, _, hget, h⟩ := Survey.bind_eq_ok.1 h
  obtain ⟨rfl, rfl⟩ := Survey.get_eq_ok.1 hget
  split at h
  · rename_i hknown
    obtain ⟨rfl, rfl⟩ := Survey.pure_eq_ok.1 h
    exact ⟨rfl, .known (by simpa using hknown)⟩
  · rename_i hknown
    -- the key is new: without a definition it is only named
    have hn : key ∉ s.done ∧ key ∉ s.started := by simpa using hknown
    cases hd : c.definition with
    | none =>
      rw [hd] at h
      dsimp only at h
      split at h
      · rename_i hc
        obtain ⟨_, hr, rfl⟩ := Survey.bind_pure_eq_ok.1 h
        obtain ⟨table, stored, hreg, rfl⟩ := Survey.registerType_eq_ok.1 hr
        exact ⟨rfl, .named hn hd (by simpa using hc) hreg⟩
      · rename_i hc
        obtain ⟨rfl, rfl⟩ := Survey.pure_eq_ok.1 h
        exact ⟨rfl, .present hn hd (by simpa using hc)⟩
    | some id =>
      rw [hd] at h
      obtain ⟨_, _, hstart, h⟩ := Survey.bind_eq_ok.1 h
      obtain rfl := Survey.modify_eq_ok.1 hstart
      obtain ⟨members, u, hm, h⟩ := Survey.bind_eq_ok.1 h
      obtain ⟨_, _, hstop, h⟩ := Survey.bind_eq_ok.1 h
      obtain rfl := Survey.modify_eq_ok.1 hstop
      obtain ⟨table, stored, hreg, rfl, rfl⟩ := Survey.finish_eq_ok.1 h
      exact ⟨rfl, .defined hn (by rw [hd]; rfl) (hd ▸ hm) (hd ▸ hreg)⟩

/-- The definition of a struct or union that is new fails as one of its members does, or as it enters the
table. -/
theorem record_fault {fault : Fault} (hd : c.definition.isSome = true)
    (hnew : (source.keyOf c (recordKind c).keyword).1 ∉ s.done ∧
      (source.keyOf c (recordKind c).keyword).1 ∉ s.started)
    (h : source.record below c s = .error fault) :
    (∃ field ∈ (source.unit.type (source.unit.cursor c.definition).type).fields, ∃ u,
      source.member below (source.unit.cursor field) u = .error fault) ∨
      ∃ (u : Findings) (r : Record), u.table.register (.record r) = .error fault := by
  unfold record at h
  generalize source.keyOf c (recordKind c).keyword = pair at h hnew
  obtain ⟨key, anonymous⟩ := pair
  dsimp only at h hnew
  rcases Survey.bind_eq_error.1 h with h | ⟨_, _, hget, h⟩
  · cases h
  obtain ⟨rfl, rfl⟩ := Survey.get_eq_ok.1 hget
  rw [if_neg (by simpa using hnew)] at h
  obtain ⟨id, hid⟩ := Option.isSome_iff_exists.1 hd
  rw [hid] at h ⊢
  dsimp only at h
  rcases Survey.bind_eq_error.1 h with h | ⟨_, _, -, h⟩
  · cases h
  rcases Survey.bind_eq_error.1 h with h | ⟨members, u, -, h⟩
  · exact Or.inl (Survey.mapM_fault h)
  rcases Survey.bind_eq_error.1 h with h | ⟨_, v, -, h⟩
  · cases h
  rcases Survey.bind_eq_error.1 h with h | ⟨_, w, -, h⟩
  · exact Or.inr ⟨v, _, Survey.registerType_eq_error.1 h⟩
  · -- nothing fails once the definition is in the table
    rcases Survey.bind_eq_error.1 h with h | ⟨_, _, -, h⟩
    · cases h
    · cases h

/-- What naming a struct or union does: one without a tag is defined, any other is in the table afterwards. -/
inductive NamingStep (source : Source) (below : Conversion) (c : Cursor) (s : Findings) : Findings → Prop
  | anonymous {t : Findings} (ha : (source.keyOf c (recordKind c).keyword).2 = true)
      (h : source.record below c s = .ok (.named (source.keyOf c (recordKind c).keyword).1, t)) :
      NamingStep source below c s t
  | present (ha : (source.keyOf c (recordKind c).keyword).2 = false)
      (hc : s.table.contains (source.keyOf c (recordKind c).keyword).1 = true) : NamingStep source below c s s
  | named {table : TypeTable} {stored : TypeDef} (ha : (source.keyOf c (recordKind c).keyword).2 = false)
      (hr : s.table.register (.record (incompleteRecord (source.keyOf c (recordKind c).keyword).1 (recordKind c) false
        (source.originOf c))) = .ok (table, stored)) : NamingStep source below c s { s with table }

/-- A struct or union without a tag is defined where it is named. -/
theorem recordNamed_of_anonymous (ha : (source.keyOf c (recordKind c).keyword).2 = true) :
    source.recordNamed below c = source.record below c := by
  unfold recordNamed
  generalize source.keyOf c (recordKind c).keyword = pair at ha
  obtain ⟨key, anonymous⟩ := pair
  obtain rfl : anonymous = true := ha
  rfl

theorem recordNamed_cases (h : source.recordNamed below c s = .ok (type, t)) :
    type = .named (source.keyOf c (recordKind c).keyword).1 ∧ NamingStep source below c s t := by
  cases hanon : (source.keyOf c (recordKind c).keyword).2 with
  | true =>
    rw [recordNamed_of_anonymous hanon] at h
    have htype := (record_cases h).1
    exact ⟨htype, .anonymous hanon (htype ▸ h)⟩
  | false =>
    unfold recordNamed at h
    have hpair : source.keyOf c (recordKind c).keyword = ((source.keyOf c (recordKind c).keyword).1, false) := by
      rw [← hanon]
    rw [hpair] at h
    dsimp only at h
    rw [if_neg Bool.false_ne_true] at h
    obtain ⟨_, _, hget, h⟩ := Survey.bind_eq_ok.1 h
    obtain ⟨rfl, rfl⟩ := Survey.get_eq_ok.1 hget
    split at h
    · obtain ⟨_, hr, rfl⟩ := Survey.bind_pure_eq_ok.1 h
      obtain ⟨table, stored, hreg, rfl⟩ := Survey.registerType_eq_ok.1 hr
      exact ⟨rfl, .named hanon hreg⟩
    · rename_i hc
      obtain ⟨rfl, rfl⟩ := Survey.pure_eq_ok.1 h
      exact ⟨rfl, .present hanon (by simpa using hc)⟩

/-- An enum of trap numbers is no type and only notes its values; any other is defined once. -/
theorem enumeration_cases {answer : Option CType} (h : source.enumeration c s = .ok (answer, t)) :
    (answer = none ∧ ∃ numbers : List (Text × Int), { s with trapValues := numbers.reverse ++ s.trapValues } = t) ∨
      ∃ definition key, key = (source.keyOf definition "enum").1 ∧ answer = some (.named key) ∧
        (key ∈ s.done ∧ s = t ∨ key ∉ s.done ∧ ∃ e table stored, e.key = key ∧
          s.table.register (.enumeration e) = .ok (table, stored) ∧
          { s with enumerators := s.enumerators ++ e.variants.map (·.1), table, done := key :: s.done } = t) := by
  unfold enumeration at h
  dsimp only at h
  generalize (if c.definition.isSome then source.unit.cursor c.definition else c) = definition at h
  generalize hnumbers : trapNumbers? _ = numbers? at h
  cases numbers? with
  | some numbers =>
    obtain ⟨_, _, hnote, h⟩ := Survey.bind_eq_ok.1 h
    obtain rfl := Survey.modify_eq_ok.1 hnote
    obtain ⟨rfl, rfl⟩ := Survey.pure_eq_ok.1 h
    exact Or.inl ⟨rfl, numbers, rfl⟩
  | none =>
    refine Or.inr ⟨definition, _, rfl, ?_⟩
    dsimp only at h
    obtain ⟨_, _, hget, h⟩ := Survey.bind_eq_ok.1 h
    obtain ⟨rfl, rfl⟩ := Survey.get_eq_ok.1 hget
    split at h
    · rename_i hdone
      obtain ⟨rfl, rfl⟩ := Survey.pure_eq_ok.1 h
      exact ⟨rfl, Or.inl ⟨by simpa using hdone, rfl⟩⟩
    · rename_i hdone
      obtain ⟨_, _, hnote, h⟩ := Survey.bind_eq_ok.1 h
      obtain rfl := Survey.modify_eq_ok.1 hnote
      obtain ⟨table, stored, hreg, rfl, rfl⟩ := Survey.finish_eq_ok.1 h
      exact ⟨rfl, Or.inr ⟨by simpa using hdone, _, table, stored, rfl, hreg, rfl⟩⟩

/-- A typedef is defined once, after its target. -/
theorem typedef_cases {byValue : Bool} (h : source.typedef below c byValue s = .ok (type, t)) :
    type = .named c.spelling ∧ (c.spelling ∈ s.done ∧ s = t ∨
      c.spelling ∉ s.done ∧ ∃ target u table stored,
        source.convertWith below c.underlying byValue s = .ok (target, u) ∧
        u.table.register (.typedef ⟨c.spelling, target, source.originOf c, c.comment⟩) = .ok (table, stored) ∧
        { u with table := table, done := c.spelling :: u.done } = t) := by
  unfold typedef at h
  obtain ⟨_, _, hget, h⟩ := Survey.bind_eq_ok.1 h
  obtain ⟨rfl, rfl⟩ := Survey.get_eq_ok.1 hget
  split at h
  · rename_i hdone
    obtain ⟨rfl, rfl⟩ := Survey.pure_eq_ok.1 h
    exact ⟨rfl, Or.inl ⟨by simpa using hdone, rfl⟩⟩
  · rename_i hdone
    obtain ⟨target, u, htarget, h⟩ := Survey.bind_eq_ok.1 h
    obtain ⟨table, stored, hreg, rfl, rfl⟩ := Survey.finish_eq_ok.1 h
    exact ⟨rfl, Or.inr ⟨by simpa using hdone, target, u, table, stored, htarget, hreg, rfl⟩⟩

end Source

end TrapStub
