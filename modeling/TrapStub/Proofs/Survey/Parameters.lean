import TrapStub.Header.Stub
import TrapStub.Proofs.Header.StubRegisters
import TrapStub.Proofs.Survey.EntryPoints

/-!
# Names of parameters

A parameter keeps the name that its header gives it. One without a name is named by its position, and nothing
keeps a header from using such a name itself.

* `parameterNames`: the names of parameters, from how the header spells them.
* `parameterNames_nodup_iff`: when they are distinct.
* `Source.declaration_parameters`: **what the parameters of a declaration are called, and when no two of them are
  called alike.**
-/

namespace TrapStub

open Text

variable {spellings : List Text} {spelling : Text} {i j : Nat}

/-- The name for a parameter without a name. -/
def placeName (index : Nat) : Text := "arg" ++ natural index

theorem placeName_injective (h : placeName i = placeName j) : i = j :=
  natural_injective (List.append_cancel_left h)

theorem placeName_ne_nil (index : Nat) : placeName index ≠ [] := by
  unfold placeName
  exact List.append_ne_nil_of_left_ne_nil (by decide) _

/-- The name of a parameter that a header spells so. -/
def parameterName (spelling : Text) (index : Nat) : Text :=
  if spelling.isEmpty then placeName index else spelling

/-- The names of parameters that a header spells so, in order. -/
def parameterNames (spellings : List Text) : List Text :=
  spellings.zipIdx.map fun (spelling, index) => parameterName spelling index

@[simp] theorem parameterName_nil (index : Nat) : parameterName [] index = placeName index := rfl

theorem parameterName_of_ne_nil (h : spelling ≠ []) (index : Nat) : parameterName spelling index = spelling := by
  rw [parameterName, if_neg (by simpa using h)]

@[simp] theorem length_parameterNames : (parameterNames spellings).length = spellings.length := by
  simp [parameterNames]

theorem getElem_parameterNames (hi : i < spellings.length) (h : i < (parameterNames spellings).length) :
    (parameterNames spellings)[i] = parameterName spellings[i] i := by
  simp [parameterNames]

/-- Names that a header gives are distinct, wherever they stand. -/
theorem getElem_ne_of_named (hnamed : (spellings.filter (· ≠ [])).Nodup) (hi : i < spellings.length)
    (hj : j < spellings.length) (hij : i < j) (hni : spellings[i] ≠ []) (hnj : spellings[j] ≠ []) :
    spellings[i] ≠ spellings[j] := by
  rw [List.Nodup, List.pairwise_filter, List.pairwise_iff_getElem] at hnamed
  exact hnamed i j hi hj hij (by simpa using hni) (by simpa using hnj)

/-- **Names of parameters are distinct just if no name of the header is that of an unnamed position**, where the
names of the header are distinct among themselves. -/
theorem parameterNames_nodup_iff (hnamed : (spellings.filter (· ≠ [])).Nodup) :
    (parameterNames spellings).Nodup ↔
      ∀ index, spellings[index]? = some [] → placeName index ∉ spellings := by
  constructor
  · intro hnodup index hindex hmem
    obtain ⟨hi, hempty⟩ := List.getElem?_eq_some_iff.1 hindex
    obtain ⟨j, hj, hplace⟩ := List.getElem_of_mem hmem
    have hi' : index < (parameterNames spellings).length := by rwa [length_parameterNames]
    have hj' : j < (parameterNames spellings).length := by rwa [length_parameterNames]
    have halike : (parameterNames spellings)[index] = (parameterNames spellings)[j] := by
      rw [getElem_parameterNames hi, getElem_parameterNames hj, hempty, hplace, parameterName_nil,
        parameterName_of_ne_nil (placeName_ne_nil index)]
    obtain rfl := hnodup.getElem_inj_iff.1 halike
    exact placeName_ne_nil index (hplace.symm.trans hempty)
  · intro hplace
    rw [List.Nodup, List.pairwise_iff_getElem]
    intro i j hi hj hij halike
    rw [length_parameterNames] at hi hj
    rw [getElem_parameterNames hi, getElem_parameterNames hj] at halike
    by_cases hni : spellings[i] = []
    · have hunnamed := hplace i (List.getElem?_eq_some_iff.2 ⟨hi, hni⟩)
      by_cases hnj : spellings[j] = []
      · rw [hni, hnj, parameterName_nil, parameterName_nil] at halike
        exact absurd (placeName_injective halike) (Nat.ne_of_lt hij)
      · rw [hni, parameterName_nil, parameterName_of_ne_nil hnj] at halike
        exact hunnamed (halike ▸ List.getElem_mem hj)
    · by_cases hnj : spellings[j] = []
      · have hunnamed := hplace j (List.getElem?_eq_some_iff.2 ⟨hj, hnj⟩)
        rw [hnj, parameterName_nil, parameterName_of_ne_nil hni] at halike
        exact hunnamed (halike ▸ List.getElem_mem hi)
      · rw [parameterName_of_ne_nil hni, parameterName_of_ne_nil hnj] at halike
        exact getElem_ne_of_named hnamed hi hj hij hni hnj halike

namespace Source

variable {source : Source} {s t : Findings}

/-- How the header spells the parameters of a prototype. -/
def spellingsOf (source : Source) (c : Cursor) : List Text :=
  c.arguments.map fun argument => (source.unit.cursor argument).spelling

theorem parameter_name {id : CursorId} {index : Nat} {p : Parameter}
    (h : source.parameter id index s = .ok (p, t)) :
    p.name = parameterName (source.unit.cursor id).spelling index := by
  unfold parameter at h
  obtain ⟨type, -, rfl⟩ := Survey.bind_pure_eq_ok.1 h
  rfl

/-- The parameters of a signature are called as their header spells them, or by their positions. -/
theorem signature_names {id : CursorId} {types : List Parameter × CType}
    (h : source.signature id s = .ok (types, t)) :
    types.1.map (·.name) = parameterNames (source.spellingsOf (source.unit.cursor id)) := by
  unfold signature at h
  obtain ⟨types, u, htypes, h⟩ := Survey.bind_eq_ok.1 h
  obtain ⟨_, _, -, h⟩ := Survey.bind_eq_ok.1 h
  obtain ⟨_, -, rfl⟩ := Survey.bind_pure_eq_ok.1 h
  unfold typesOf blaming at htypes
  split at htypes
  · cases htypes
  · obtain ⟨parameters, v, hparameters, htypes⟩ := Survey.bind_eq_ok.1 htypes
    obtain ⟨result, -, rfl⟩ := Survey.bind_pure_eq_ok.1 htypes
    have hnames := (Survey.mapM_answers hparameters).imp fun p parameter hp => by
      obtain ⟨_, _, hp⟩ := hp
      exact (parameter_name hp).symm
    rw [parameterNames, spellingsOf, List.zipIdx_map, List.map_map]
    exact (map_eq_map_of_forall₂ hnames).symm

/-- **The parameters of a declaration are called as their header spells them, or by their positions. No two of them
are called alike just if the header calls no parameter by the position of an unnamed one**, given that it calls no two
of them alike. -/
theorem declaration_parameters {id : CursorId} {d : Declaration} (h : source.declaration id s = .ok (d, t))
    (hnamed : ((source.spellingsOf (source.unit.cursor id)).filter (· ≠ [])).Nodup) :
    d.parameters.map (·.name) = parameterNames (source.spellingsOf (source.unit.cursor id)) ∧
      ((d.parameters.map (·.name)).Nodup ↔
        ∀ index, (source.spellingsOf (source.unit.cursor id))[index]? = some [] →
          placeName index ∉ source.spellingsOf (source.unit.cursor id)) := by
  obtain ⟨number, types, -, hsignature, rfl⟩ := declaration_eq_ok.1 h
  have hnames : (source.declarationOf (source.unit.cursor id) number types).parameters.map (·.name) =
      parameterNames (source.spellingsOf (source.unit.cursor id)) := signature_names hsignature
  exact ⟨hnames, hnames ▸ parameterNames_nodup_iff hnamed⟩

end Source

/-! The prototype `void use(int first, int);`, whose second parameter is called by its position. -/

def prototypeSource (first : Text) : Source :=
  { staged := ⟨[], [("a.h", [])], []⟩
    unit :=
      { top := [some 0], diagnostics := []
        cursors := #[
          { kind := .functionDecl, spelling := "use", file := some "corpus/a.h", line := 1
            arguments := [some 1, some 2], resultType := some 1, type := some 2, children := [some 3] },
          { spelling := first, type := some 0 },
          { type := some 0 },
          { kind := .annotateAttr, spelling := "svcall:0x10" }]
        types := #[
          { kind := .scalar .int, spelling := "int", size := 4, align := 4 },
          { kind := .void, spelling := "void" },
          { kind := .functionProto, result := some 1, arguments := [some 0, some 0] }] } }

/-- What a walk over the header notes before its prototype is resolved. -/
def prototypeFindings : Findings := { Findings.empty with trapValues := [("use", 16)], prototypes := [some 0] }

def prototypeOf (first second : Text) : Declaration :=
  { name := "use", trapNumber := 16, returnType := .void, symbol := "0x10", origin := "a.h", line := 1
    variadic := false, comment := none
    parameters := [⟨first, .scalar ⟨"int", 4, true, false⟩⟩, ⟨second, .scalar ⟨"int", 4, true, false⟩⟩] }

theorem arg0Source_distinct : ∃ d t, (prototypeSource "arg0").declaration (some 0) prototypeFindings = .ok (d, t) ∧
    (((prototypeSource "arg0").spellingsOf ((prototypeSource "arg0").unit.cursor (some 0))).filter (· ≠ [])).Nodup ∧
    d.parameters.map (·.name) = [("arg0" : Text), "arg1"] ∧ (d.parameters.map (·.name)).Nodup := by
  have hdeclared : ((prototypeSource "arg0").declaration (some 0) prototypeFindings).toOption.map (·.1) =
      some (prototypeOf "arg0" "arg1") := by decide +kernel
  obtain ⟨⟨d, t⟩, h, rfl⟩ := exists_of_toOption_map hdeclared
  have hnamed : (((prototypeSource "arg0").spellingsOf ((prototypeSource "arg0").unit.cursor (some 0))).filter
      (· ≠ [])).Nodup := by decide
  obtain ⟨hnames, hnodup⟩ := Source.declaration_parameters h hnamed
  refine ⟨_, t, h, hnamed, hnames.trans (by decide), hnodup.2 fun index hindex => ?_⟩
  -- only the second parameter has no name
  rcases index with _ | _ | index
  · exact absurd hindex (by decide)
  · decide
  · cases hindex

/-- The header calls its first parameter by the position of the second one, and both are called alike. -/
theorem arg1Source_alike : ∃ d t, (prototypeSource "arg1").declaration (some 0) prototypeFindings = .ok (d, t) ∧
    (((prototypeSource "arg1").spellingsOf ((prototypeSource "arg1").unit.cursor (some 0))).filter (· ≠ [])).Nodup ∧
    ¬ (d.parameters.map (·.name)).Nodup ∧
    Stub.signatureOf (.ofTable t.table) d = .ok "void use(int arg1, int arg1)" := by
  have hdeclared : ((prototypeSource "arg1").declaration (some 0) prototypeFindings).toOption.map
      (fun r => (r.1, (Stub.signatureOf (.ofTable r.2.table) r.1).toOption)) =
      some (prototypeOf "arg1" "arg1", some ("void use(int arg1, int arg1)" : Text)) := by decide +kernel
  obtain ⟨⟨d, t⟩, h, hpair⟩ := exists_of_toOption_map hdeclared
  obtain ⟨rfl, hsignature⟩ := Prod.mk.inj hpair
  exact ⟨_, t, h, by decide, by decide, toOption_eq_some.1 hsignature⟩

end TrapStub
