import Mathlib.Order.Bounds.Basic
import TrapStub.Proofs.Survey.Constants

/-!
# The least set of constants

A macro is carried over if every identifier of its body is known or is carried over itself. Macros that only
support each other satisfy that rule as well, so the rule is to be read from below.

* `Grounded`: the name of a macro whose identifiers lead to known names in the end. `mem_reachable_iff`: these
  are the names that are reached.
* `scan`: one scan over the candidates that carries each of them as soon as it may. `exists_scan_settled`: scans
  come to rest, after at most one for each candidate, and what they carry then are the grounded names.
* `Findings.constants_least`: **the constants are the least set of names that satisfies the rule.**
-/

namespace TrapStub

variable {known carried names : List Text} {candidates waiting : List Macro} {m : Macro} {name : Text}

/-! ## Grounded names -/

/-- The name is that of a candidate whose identifiers are known or grounded in turn. -/
inductive Grounded (known : List Text) (candidates : List Macro) : Text → Prop
  | carry (m : Macro) (hm : m ∈ candidates) (h : ∀ i ∈ m.identifiers, i ∉ known → Grounded known candidates i) :
      Grounded known candidates m.name

theorem Macro.usesOnly_iff : m.usesOnly known = true ↔ ∀ i ∈ m.identifiers, i ∈ known := by
  simp [Macro.usesOnly]

theorem mem_readyMacros : m ∈ readyMacros known waiting ↔ m ∈ waiting ∧ ∀ i ∈ m.identifiers, i ∈ known := by
  rw [readyMacros, List.mem_filter, Macro.usesOnly_iff]

theorem mem_blockedMacros :
    m ∈ blockedMacros known waiting ↔ m ∈ waiting ∧ ¬ ∀ i ∈ m.identifiers, i ∈ known := by
  rw [blockedMacros, List.mem_filter, Bool.not_eq_true', ← Bool.not_eq_true, Macro.usesOnly_iff]

namespace Grounded

/-- Where no macro is ready, no name is grounded: some macro on the way down uses known names only. -/
theorem exists_ready (h : Grounded known waiting name) : readyMacros known waiting ≠ [] := by
  induction h with
  | carry m hm _ ih =>
    by_cases hknown : ∀ i ∈ m.identifiers, i ∈ known
    · exact List.ne_nil_of_mem (mem_readyMacros.2 ⟨hm, hknown⟩)
    · push Not at hknown
      obtain ⟨i, hi, hunknown⟩ := hknown
      exact ih i hi hunknown

/-- What is grounded is ready, or is grounded in what is ready. -/
theorem ready_or_blocked (h : Grounded known waiting name)
    (hnames : ∀ m ∈ readyMacros known waiting, m.name ∈ names) :
    name ∈ names ∨ Grounded (known ++ names) (blockedMacros known waiting) name := by
  induction h with
  | carry m hm _ ih =>
    by_cases hknown : ∀ i ∈ m.identifiers, i ∈ known
    · exact Or.inl (hnames m (mem_readyMacros.2 ⟨hm, hknown⟩))
    · refine Or.inr (.carry m (mem_blockedMacros.2 ⟨hm, hknown⟩) fun i hi hunknown => ?_)
      rw [List.mem_append, not_or] at hunknown
      exact (ih i hi hunknown.1).resolve_left hunknown.2

/-- What is grounded in grounded names is grounded. -/
theorem of_append (h : Grounded (known ++ names) candidates name) (hsub : ∀ m ∈ candidates, m ∈ waiting)
    (hnames : ∀ i ∈ names, Grounded known waiting i) : Grounded known waiting name := by
  induction h with
  | carry m hm _ ih =>
    refine .carry m (hsub m hm) fun i hi hunknown => ?_
    by_cases hi' : i ∈ names
    · exact hnames i hi'
    · exact ih i hi (by rw [List.mem_append, not_or]; exact ⟨hunknown, hi'⟩)

/-- Only the sets of known names and of candidates count. -/
theorem congr {known' : List Text} {candidates' : List Macro} (hknown : ∀ i, i ∈ known' ↔ i ∈ known)
    (hcandidates : ∀ m, m ∈ candidates' ↔ m ∈ candidates) (h : Grounded known candidates name) :
    Grounded known' candidates' name := by
  induction h with
  | carry m hm _ ih => exact .carry m ((hcandidates m).2 hm) fun i hi hi' => ih i hi fun h => hi' ((hknown i).2 h)

/-- **Grounded names are below every set that is closed** under the rule. -/
theorem mem_of_closed {C : Set Text} (h : Grounded known candidates name)
    (hC : ∀ m ∈ candidates, (∀ i ∈ m.identifiers, i ∈ known ∨ i ∈ C) → m.name ∈ C) : name ∈ C := by
  induction h with
  | carry m hm _ ih =>
    exact hC m hm fun i hi => or_iff_not_imp_left.2 (ih i hi)

/-- **A circle is not grounded**: names of which each needs another one among them. -/
theorem not_mem_of_circle {C : Set Text} (h : Grounded known candidates name)
    (hC : ∀ m ∈ candidates, m.name ∈ C → ∃ i ∈ m.identifiers, i ∉ known ∧ i ∈ C) : name ∉ C := by
  induction h with
  | carry m hm _ ih =>
    intro hmem
    obtain ⟨i, hi, hunknown, hin⟩ := hC m hm hmem
    exact ih i hi hunknown hin

end Grounded

/-- **The names that are reached are the grounded ones.** -/
theorem mem_reachable_iff : name ∈ reachable known waiting ↔ Grounded known waiting name := by
  induction known, waiting using reachable.induct with
  | case1 known waiting hready =>
    rw [reachable, dif_pos hready]
    exact ⟨fun h => absurd h List.not_mem_nil, fun h => absurd hready h.exists_ready⟩
  | case2 known waiting hready names _ ih =>
    have hnames : ∀ i ∈ names, Grounded known waiting i := by
      intro i hi
      obtain ⟨m, hm, rfl⟩ := List.mem_map.1 hi
      obtain ⟨hwaiting, hknown⟩ := mem_readyMacros.1 hm
      exact .carry m hwaiting fun i hi hunknown => absurd (hknown i hi) hunknown
    rw [reachable_of_ready hready, List.mem_append, ih]
    constructor
    · rintro (h | h)
      · exact hnames name h
      · exact h.of_append (fun m hm => (mem_blockedMacros.1 hm).1) hnames
    · exact fun h => h.ready_or_blocked fun m hm => List.mem_map_of_mem hm

/-! ## Scans in place -/

/-- A scan comes to one more candidate, which is carried if it uses known and carried names only. -/
def carryOver (known carried : List Text) (m : Macro) : List Text :=
  if m.name ∈ carried then carried
  else if m.usesOnly (known ++ carried) then carried ++ [m.name]
  else carried

/-- One scan over the candidates. What it carries counts at once, for the candidates behind. -/
def scan (known : List Text) (candidates : List Macro) (carried : List Text) : List Text :=
  candidates.foldl (carryOver known) carried

theorem carryOver_cases (known carried : List Text) (m : Macro) :
    carryOver known carried m = carried ∧
        ((∀ i ∈ m.identifiers, i ∈ known ∨ i ∈ carried) → m.name ∈ carried) ∨
      carryOver known carried m = carried ++ [m.name] ∧ m.name ∉ carried ∧
        ∀ i ∈ m.identifiers, i ∈ known ∨ i ∈ carried := by
  have huses : m.usesOnly (known ++ carried) = true ↔ ∀ i ∈ m.identifiers, i ∈ known ∨ i ∈ carried := by
    simp only [Macro.usesOnly_iff, List.mem_append]
  unfold carryOver
  by_cases hcarried : m.name ∈ carried
  · rw [if_pos hcarried]
    exact Or.inl ⟨rfl, fun _ => hcarried⟩
  · rw [if_neg hcarried]
    by_cases hready : m.usesOnly (known ++ carried) = true
    · rw [if_pos hready]
      exact Or.inr ⟨rfl, hcarried, huses.1 hready⟩
    · rw [if_neg hready]
      exact Or.inl ⟨rfl, fun h => absurd (huses.2 h) hready⟩

theorem prefix_carryOver (known carried : List Text) (m : Macro) : carried <+: carryOver known carried m := by
  rcases carryOver_cases known carried m with ⟨h, -⟩ | ⟨h, -⟩
  · rw [h]
  · exact h ▸ List.prefix_append carried [m.name]

theorem prefix_scan (known : List Text) (candidates : List Macro) (carried : List Text) :
    carried <+: scan known candidates carried := by
  induction candidates generalizing carried with
  | nil => exact List.prefix_refl carried
  | cons m rest ih => exact (prefix_carryOver known carried m).trans (ih _)

/-- What scans keep: each carried name is that of a candidate, grounded, and carried once. -/
structure Carries (known : List Text) (candidates : List Macro) (carried : List Text) : Prop where
  grounded : ∀ name ∈ carried, Grounded known candidates name
  nodup : carried.Nodup

theorem Carries.step (h : Carries known candidates carried) (hm : m ∈ candidates) :
    Carries known candidates (carryOver known carried m) := by
  rcases carryOver_cases known carried m with ⟨heq, -⟩ | ⟨heq, hnew, huses⟩
  · rwa [heq]
  · rw [heq]
    refine ⟨fun name hname => ?_, ?_⟩
    · rcases List.mem_append.1 hname with hname | hname
      · exact h.grounded name hname
      · rw [List.mem_singleton.1 hname]
        exact .carry m hm fun i hi hunknown => h.grounded i ((huses i hi).resolve_left hunknown)
    · rw [← List.concat_eq_append]
      exact h.nodup.concat hnew

theorem Carries.scanned (h : Carries known waiting carried) (hsub : ∀ m ∈ candidates, m ∈ waiting) :
    Carries known waiting (scan known candidates carried) := by
  induction candidates generalizing carried with
  | nil => exact h
  | cons m rest ih =>
    exact ih (h.step (hsub m List.mem_cons_self)) fun m' hm' => hsub m' (List.mem_cons_of_mem m hm')

/-- A scan that carries nothing more has found every candidate waiting for other names, or carried. -/
theorem mem_of_scan_eq (h : scan known candidates carried = carried) (hm : m ∈ candidates)
    (huses : ∀ i ∈ m.identifiers, i ∈ known ∨ i ∈ carried) : m.name ∈ carried := by
  induction candidates with
  | nil => exact absurd hm List.not_mem_nil
  | cons first rest ih =>
    -- the first step has changed nothing, since the rest of the scan cannot undo it
    have hrest : scan known rest (carryOver known carried first) = carried := h
    have hshort : (carryOver known carried first).length ≤ carried.length := by
      have hfront := (prefix_scan known rest (carryOver known carried first)).length_le
      rwa [hrest] at hfront
    have hfirst : carryOver known carried first = carried :=
      ((prefix_carryOver known carried first).eq_of_length_le hshort).symm
    rcases List.mem_cons.1 hm with rfl | hm
    · rcases carryOver_cases known carried m with ⟨-, hcarried⟩ | ⟨heq, -, -⟩
      · exact hcarried huses
      · rw [hfirst] at heq
        exact absurd heq (by simp)
    · rw [hfirst] at hrest
      exact ih hrest hm

/-- Where a scan carries nothing more, the grounded names are carried. -/
theorem Carries.mem_iff (h : Carries known candidates carried) (hsettled : scan known candidates carried = carried) :
    name ∈ carried ↔ Grounded known candidates name :=
  ⟨h.grounded name, fun hname => hname.mem_of_closed (C := {i | i ∈ carried}) fun _ hm huses =>
    mem_of_scan_eq hsettled hm huses⟩

theorem Carries.length_le (h : Carries known candidates carried) : carried.length ≤ candidates.length := by
  have hsub : carried ⊆ candidates.map Macro.name := by
    intro name hname
    cases h.grounded name hname with
    | carry m hm _ => exact List.mem_map_of_mem hm
  simpa using (List.subperm_of_subset h.nodup hsub).length_le

theorem carries_iterate (known : List Text) (candidates : List Macro) (n : Nat) :
    Carries known candidates ((scan known candidates)^[n] []) := by
  induction n with
  | zero => exact ⟨fun name hname => absurd hname List.not_mem_nil, List.nodup_nil⟩
  | succ n ih =>
    rw [Function.iterate_succ_apply']
    exact ih.scanned fun _ => id

/-- As long as every scan carries something, there are as many names as scans. -/
theorem settled_or_le_length (known : List Text) (candidates : List Macro) (n : Nat) :
    (∃ k < n, scan known candidates ((scan known candidates)^[k] []) = (scan known candidates)^[k] []) ∨
      n ≤ ((scan known candidates)^[n] []).length := by
  induction n with
  | zero => exact Or.inr (Nat.zero_le _)
  | succ n ih =>
    rcases ih with ⟨k, hk, hsettled⟩ | hlength
    · exact Or.inl ⟨k, Nat.lt_succ_of_lt hk, hsettled⟩
    · by_cases hsettled : scan known candidates ((scan known candidates)^[n] []) = (scan known candidates)^[n] []
      · exact Or.inl ⟨n, Nat.lt_succ_self n, hsettled⟩
      · right
        rw [Function.iterate_succ_apply']
        have hfront := prefix_scan known candidates ((scan known candidates)^[n] [])
        have hlonger : ((scan known candidates)^[n] []).length <
            (scan known candidates ((scan known candidates)^[n] [])).length :=
          lt_of_le_of_ne hfront.length_le fun heq => hsettled (hfront.eq_of_length heq).symm
        omega

/-- **Scans come to rest**, after at most one for each candidate, and what they carry then is what is
grounded. -/
theorem exists_scan_settled (known : List Text) (candidates : List Macro) : ∃ n ≤ candidates.length,
    scan known candidates ((scan known candidates)^[n] []) = (scan known candidates)^[n] [] ∧
      ∀ name, name ∈ (scan known candidates)^[n] [] ↔ Grounded known candidates name := by
  rcases settled_or_le_length known candidates (candidates.length + 1) with ⟨n, hn, hsettled⟩ | hlength
  · exact ⟨n, Nat.le_of_lt_succ hn, hsettled, fun _ => (carries_iterate known candidates n).mem_iff hsettled⟩
  · have hbound := (carries_iterate known candidates (candidates.length + 1)).length_le
    omega

/-! ## The constants of some findings -/

namespace Findings

variable {s t : Findings}

/-- The name is an enumerator, a typedef of the table or a universal name. -/
def Knows (s : Findings) (name : Text) : Prop :=
  name ∈ s.enumerators ∨ name ∈ universalNames ∨ ∃ a, .typedef a ∈ s.table.entries ∧ a.key = name

/-- The constants that are carried over, with their bodies. -/
def constants (s : Findings) : List (Text × Text) := exportedConstants (constantNames s) s.macros

/-- The names of the constants. -/
def constantSet (s : Findings) : Set Text := {name | ∃ body, (name, body) ∈ s.constants}

/-- The set of names satisfies the rule: an integer macro whose name is not reserved is in it just if each
identifier of its body is known or in the set. -/
def Supports (s : Findings) (C : Set Text) : Prop :=
  ∀ m ∈ s.macros, Text.startsWith m.name "_" = false → m.isInteger = true →
    (m.name ∈ C ↔ ∀ i ∈ m.identifiers, s.Knows i ∨ i ∈ C)

/-- What scans start from. -/
def knownNames (s : Findings) : List Text := constantNames s ++ universalNames

theorem mem_knownNames : name ∈ s.knownNames ↔ s.Knows name := by
  rw [knownNames, constantNames, List.mem_append, List.mem_append, List.mem_filterMap]
  constructor
  · rintro ((hname | ⟨d, hd, hkey⟩) | hname)
    · exact Or.inl hname
    · cases d with
      | record r => cases hkey
      | enumeration e => cases hkey
      | typedef a => exact Or.inr (Or.inr ⟨a, hd, Option.some.inj hkey⟩)
    · exact Or.inr (Or.inl hname)
  · rintro (hname | hname | ⟨a, ha, rfl⟩)
    · exact Or.inl (Or.inl hname)
    · exact Or.inr hname
    · exact Or.inl (Or.inr ⟨.typedef a, ha, rfl⟩)

theorem mem_constantCandidates :
    m ∈ constantCandidates s.macros ↔ m ∈ s.macros ∧ Text.startsWith m.name "_" = false ∧ m.isInteger = true := by
  simp [constantCandidates]

theorem mem_constantSet :
    name ∈ s.constantSet ↔ Grounded s.knownNames (constantCandidates s.macros) name := by
  have hmem : name ∈ s.constantSet ↔
      ∃ m ∈ constantCandidates s.macros, m.name ∈ reachable s.knownNames (constantCandidates s.macros) ∧
        m.name = name := by
    constructor
    · rintro ⟨body, hbody⟩
      obtain ⟨m, hm, hpair⟩ := List.mem_map.1 hbody
      obtain ⟨hcandidate, hreached⟩ := List.mem_filter.1 hm
      exact ⟨m, hcandidate, List.contains_iff_mem.1 hreached, congrArg Prod.fst hpair⟩
    · rintro ⟨m, hm, hreached, rfl⟩
      exact ⟨m.body, List.mem_map.2 ⟨m, List.mem_filter.2 ⟨hm, List.contains_iff_mem.2 hreached⟩, rfl⟩⟩
  rw [hmem]
  constructor
  · rintro ⟨m, -, hreached, rfl⟩
    exact mem_reachable_iff.1 hreached
  · intro h
    have hreached := mem_reachable_iff.2 h
    cases h with
    | carry m hm _ => exact ⟨m, hm, hreached, rfl⟩

/-- **The constants that are carried over are the least set that satisfies the rule.** So no macro is left out
whose identifiers are known or carried, and none of a circle is carried. Neither the order of the macros nor that of
the known names matters for the set; the list has the order of the macros. Scans that carry in place come to
rest on the same set. -/
theorem constants_least (s : Findings) (hs : (s.macros.map Macro.name).Nodup) :
    IsLeast {C | s.Supports C} s.constantSet ∧
      (∀ C : Set Text, (∀ m ∈ s.macros, m.name ∈ C → ∃ i ∈ m.identifiers, ¬ s.Knows i ∧ i ∈ C) →
        ∀ name ∈ s.constantSet, name ∉ C) ∧
      (∀ t : Findings, t.macros.Perm s.macros → (∀ name, t.Knows name ↔ s.Knows name) →
        t.constantSet = s.constantSet) ∧
      s.constants.Sublist (s.macros.map fun m => (m.name, m.body)) ∧
      ∃ n ≤ s.macros.length, ∃ carried, carried = (scan s.knownNames (constantCandidates s.macros))^[n] [] ∧
        scan s.knownNames (constantCandidates s.macros) carried = carried ∧
        ∀ name, name ∈ carried ↔ name ∈ s.constantSet := by
  have hsub : (constantCandidates s.macros).Sublist s.macros := List.filter_sublist
  refine ⟨⟨?_, ?_⟩, ?_, ?_, ?_, ?_⟩
  · intro m hm hreserved hinteger
    have hcandidate := mem_constantCandidates.2 ⟨hm, hreserved, hinteger⟩
    simp only [mem_constantSet, ← mem_knownNames]
    constructor
    · intro hname i hi
      generalize hn : m.name = name at hname
      cases hname with
      | carry other hother huses =>
        -- no other candidate has that name
        obtain rfl : m = other := List.inj_on_of_nodup_map hs hm (hsub.subset hother) hn
        exact or_iff_not_imp_left.2 (huses i hi)
    · exact fun huses => .carry m hcandidate fun i hi hunknown => (huses i hi).resolve_left hunknown
  · intro C hC name hname
    refine (mem_constantSet.1 hname).mem_of_closed fun m hm huses => ?_
    obtain ⟨hm, hreserved, hinteger⟩ := mem_constantCandidates.1 hm
    exact (hC m hm hreserved hinteger).2 fun i hi => (huses i hi).imp_left mem_knownNames.1
  · intro C hC name hname
    refine (mem_constantSet.1 hname).not_mem_of_circle fun m hm hin => ?_
    obtain ⟨i, hi, hunknown, hiC⟩ := hC m (hsub.subset hm) hin
    exact ⟨i, hi, fun h => hunknown (mem_knownNames.1 h), hiC⟩
  · intro t hmacros hknows
    have hknown : ∀ name, name ∈ t.knownNames ↔ name ∈ s.knownNames := fun name => by
      rw [mem_knownNames, mem_knownNames, hknows]
    have hcandidates : ∀ m, m ∈ constantCandidates t.macros ↔ m ∈ constantCandidates s.macros := fun m => by
      rw [mem_constantCandidates, mem_constantCandidates, hmacros.mem_iff]
    ext name
    rw [mem_constantSet, mem_constantSet]
    exact ⟨.congr (fun name => (hknown name).symm) fun m => (hcandidates m).symm, .congr hknown hcandidates⟩
  · exact (List.filter_sublist.trans hsub).map _
  · obtain ⟨n, hn, hsettled, hmem⟩ := exists_scan_settled s.knownNames (constantCandidates s.macros)
    exact ⟨n, hn.trans hsub.length_le, _, rfl, hsettled, fun name => (hmem name).trans mem_constantSet.symm⟩

/-! `TOP` is carried although `STEP`, which it uses, stands behind it. `PING` and `PONG` only use each other, and
nothing explains what `ODD` uses. -/

def chainFindings : Findings :=
  { Findings.empty with
    enumerators := ["A"]
    macros := [
      ⟨"TOP", [(.identifier, "STEP"), (.punctuation, "+"), (.literal, "1")], "STEP + 1"⟩,
      ⟨"PING", [(.identifier, "PONG")], "PONG"⟩,
      ⟨"PONG", [(.identifier, "PING")], "PING"⟩,
      ⟨"ODD", [(.identifier, "missing")], "missing"⟩,
      ⟨"STEP", [(.identifier, "A")], "A"⟩] }

theorem chainFindings_least : (chainFindings.macros.map Macro.name).Nodup ∧
    chainFindings.constants = [(("TOP" : Text), ("STEP + 1" : Text)), (("STEP" : Text), ("A" : Text))] ∧
    IsLeast {C | chainFindings.Supports C} chainFindings.constantSet ∧
    (∀ name ∈ chainFindings.constantSet, name ∉ ({("PING" : Text), ("PONG" : Text)} : Set Text)) ∧
    chainFindings.constants.Sublist (chainFindings.macros.map fun m => (m.name, m.body)) := by
  have hnodup : (chainFindings.macros.map Macro.name).Nodup := by decide
  have hunknown : ∀ name ∈ [("PING" : Text), "PONG"], ¬ chainFindings.Knows name := by
    rintro name hname (h | h | ⟨a, ha, -⟩)
    · revert name
      decide
    · revert name
      decide
    · exact absurd ha List.not_mem_nil
  obtain ⟨hleast, hcircle, -, hsublist, -⟩ := constants_least chainFindings hnodup
  refine ⟨hnodup, by decide +kernel, hleast, hcircle _ fun m hm hname => ?_, hsublist⟩
  -- each of the two uses the other
  rcases hname with hname | hname
  · refine ⟨"PONG", ?_, hunknown _ (by decide), Or.inr rfl⟩
    revert m
    decide
  · refine ⟨"PING", ?_, hunknown _ (by decide), Or.inl rfl⟩
    have hname : m.name = "PONG" := hname
    revert m
    decide

end Findings

end TrapStub
