import TrapStub.Proofs.Mark.Lines

/-!
# The parts of an annotation

The trap number stands in front of the first comma of an annotation, and the return type between the
first comma and the second. A part is what is left there without the white space around it. Where
nothing is left, white space that was passed over is given back and its last glyph becomes the part: an
annotation with nothing at all in front of a comma is refused, one with a blank there is accepted.

* `Mark.HasNumber`, `Mark.HasType`: what stands in front of the two commas, white space included.
* `Mark.ReadFrom`: which of them a field of a statement is read from, with `Mark.ReadFrom.taken`: **in a
  header that is accepted it is taken over.**
* `Mark.parts_filled`: **an empty part is refused, and the parts of an accepted header are filled
  exactly when none is blank in it.**
-/

namespace TrapStub.Mark

open Text

/-- A line starts at the offset with an annotation that has `number` in front of its first comma. -/
def HasNumber (marker t : Text) (n : Nat) (number : Text) : Prop :=
  StartsLine true t n ∧ Lacks [',', ';'] number ∧
    ∃ indent rest, Opens marker (t.drop n) indent (number ++ .char ',' :: rest)

/-- A line starts at the offset with an annotation that has `type` between its first two commas. -/
def HasType (marker t : Text) (n : Nat) (type : Text) : Prop :=
  StartsLine true t n ∧ Lacks [',', ';', '(', ')'] type ∧
    ∃ indent number rest, Lacks [',', ';'] number ∧
      Opens marker (t.drop n) indent (number ++ .char ',' :: (type ++ .char ',' :: rest))

variable {marker origin t u rewritten region region' part number type indent indent' behind behind' rest rest' : Text}
  {characters : List Char} {marks : List Mark} {span : Span} {s : Statement} {n : Nat}

/-! ## One reading -/

/-- An annotation opens in one way. -/
theorem opens_unique (hm : IsIdentifier marker) (h : Opens marker t indent behind)
    (h' : Opens marker t indent' behind') : indent = indent' ∧ behind = behind' := by
  obtain ⟨hblank, gap, hgap, rfl⟩ := h
  obtain ⟨hblank', gap', hgap', heq⟩ := h'
  have hspace : ∀ {i : Text}, IsBlank i → IsSpace i := fun hi g hg => Glyph.isSpace_of_isBlank (hi g hg)
  have hparenthesis : ∀ b : Text, ∀ g ∈ (Glyph.char '(' :: b).head?, g.isSpace = false := forall_head_cons (by decide)
  simp only [List.append_assoc] at heq
  obtain ⟨rfl, hmarker⟩ := run_unique (hspace hblank) (hspace hblank') (head_identifier hm) (head_identifier hm) heq
  have hrest := List.append_cancel_left hmarker
  obtain ⟨-, hbehind⟩ := run_unique hgap hgap' (hparenthesis behind) (hparenthesis behind') hrest
  exact ⟨rfl, (List.cons.inj hbehind).2⟩

/-- What stands in front of the first comma is known. -/
theorem region_unique (h : Lacks (',' :: characters) region) (h' : Lacks (',' :: characters) region')
    (heq : region ++ .char ',' :: rest = region' ++ .char ',' :: rest') : region = region' ∧ rest = rest' := by
  have hrun : ∀ {u : Text}, Lacks (',' :: characters) u → ∀ g ∈ u, (!g.is ',') = true := fun hu g hg => by
    rw [Glyph.is_eq_false.2 (hu g hg ',' List.mem_cons_self)]
    rfl
  have hcomma : ∀ u : Text, ∀ g ∈ (Glyph.char ',' :: u).head?, (!g.is ',') = false := forall_head_cons (by rfl)
  obtain ⟨hregion, hrest⟩ := run_unique (hrun h) (hrun h') (hcomma rest) (hcomma rest') heq
  exact ⟨hregion, (List.cons.inj hrest).2⟩

/-! ## What is made of a part -/

/-- A part strips to what its region strips to, and an empty region has none. -/
theorem part?_region (h : part? region = some part) : region ≠ [] ∧ strip part = strip region := by
  obtain ⟨hne, -, before, after, hbefore, hafter, rfl⟩ := part?_eq_some h
  refine ⟨fun hnil => hne ?_, (strip_append hbefore hafter).symm⟩
  exact (List.append_eq_nil_iff.1 (List.append_eq_nil_iff.1 hnil).1).2

/-- The number and the type of a statement are parts of what stands in front of its commas. -/
theorem regions_of_statement? (h : statement? marker u = some s) : ∃ number type rest,
    Opens marker u s.indent (number ++ .char ',' :: (type ++ .char ',' :: rest)) ∧
      Lacks [',', ';'] number ∧ part? number = some s.number ∧
      Lacks [',', ';', '(', ')'] type ∧ part? type = some s.returnType := by
  obtain ⟨⟨indent, behind⟩, hmem, hfound⟩ := List.exists_of_findSome?_eq_some h
  have hopen := mem_openings.1 hmem
  simp only [statementFrom?, Option.bind_eq_bind, Option.bind_eq_some_iff, pure, Option.some.injEq] at hfound
  obtain ⟨⟨number, r₁⟩, hnumber, ⟨returnType, r₂⟩, htype, _, -, _, -, rfl⟩ := hfound
  obtain ⟨region₁, hlacks₁, hpart₁, rfl⟩ := commaPart?_eq_some.1 hnumber
  obtain ⟨region₂, hlacks₂, hpart₂, hr₁⟩ := commaPart?_eq_some.1 htype
  dsimp only at hr₁
  rw [hr₁] at hopen
  exact ⟨region₁, region₂, r₂, hopen, hlacks₁, hpart₁, hlacks₂, hpart₂⟩

/-- The field of a statement is read from `has`: a region that an annotation at an offset has. -/
structure ReadFrom (marker t : Text) (has : (n : Nat) → (region : Text) → Prop) (field : Statement → Text) : Prop where
  isPlace : ∀ {n region}, has n region → IsPlace marker t n
  /-- An annotation has one such region. -/
  unique : ∀ {n region region'}, has n region → has n region' → region = region'
  read : ∀ span ∈ Piece.spansFrom 0 (Piece.ofText marker t),
    ∃ region, has span.start region ∧ part? region = some (field span.statement)

theorem number_readFrom (hm : IsIdentifier marker) : ReadFrom marker t (HasNumber marker t) Statement.number where
  isPlace := by
    rintro n number ⟨hline, -, indent, rest, hopen⟩
    exact ⟨hline, indent, _, hopen⟩
  unique := by
    rintro n number number' ⟨-, hlacks, indent, rest, hopen⟩ ⟨-, hlacks', indent', rest', hopen'⟩
    exact (region_unique hlacks hlacks' (opens_unique hm hopen hopen').2).1
  read := by
    intro span hspan
    obtain ⟨hline, hfound⟩ := Piece.statement_ofText hspan
    obtain ⟨number, type, rest, hopen, hnumber, hpart, -, -⟩ := regions_of_statement? hfound
    exact ⟨number, ⟨hline, hnumber, _, _, hopen⟩, hpart⟩

theorem returnType_readFrom (hm : IsIdentifier marker) :
    ReadFrom marker t (HasType marker t) Statement.returnType where
  isPlace := by
    rintro n type ⟨hline, -, indent, number, rest, -, hopen⟩
    exact ⟨hline, indent, _, hopen⟩
  unique := by
    rintro n type type' ⟨-, hlacks, indent, number, rest, hnumber, hopen⟩
      ⟨-, hlacks', indent', number', rest', hnumber', hopen'⟩
    have hbehind := (region_unique hnumber hnumber' (opens_unique hm hopen hopen').2).2
    exact (region_unique hlacks hlacks' hbehind).1
  read := by
    intro span hspan
    obtain ⟨hline, hfound⟩ := Piece.statement_ofText hspan
    obtain ⟨number, type, rest, hopen, hnumber, -, htype, hpart⟩ := regions_of_statement? hfound
    exact ⟨type, ⟨hline, htype, _, number, rest, hnumber, hopen⟩, hpart⟩

namespace ReadFrom

variable {has : Nat → Text → Prop} {field : Statement → Text}

/-- **What an annotation has is taken over**: in a header that is accepted it is not empty, and stripped it is
the part of a statement. -/
theorem taken (hr : ReadFrom marker t has field) (hm : IsIdentifier marker)
    (h : replace marker origin t = .ok (rewritten, marks)) (hn : has n region) : region ≠ [] ∧
      ∃ span ∈ Piece.spansFrom 0 (Piece.ofText marker t), strip (field span.statement) = strip region := by
  obtain ⟨span, hspan, rfl⟩ := List.mem_map.1 (((accounts_of_replace hm h).places n).1 (hr.isPlace hn))
  obtain ⟨region', hregion, hpart⟩ := hr.read span hspan
  obtain rfl := hr.unique hn hregion
  obtain ⟨hne, hstrip⟩ := part?_region hpart
  exact ⟨hne, span, hspan, hstrip⟩

/-- The parts of an accepted header are filled exactly when none is blank in it. -/
theorem filled_iff (hr : ReadFrom marker t has field) (hm : IsIdentifier marker)
    (h : replace marker origin t = .ok (rewritten, marks)) :
    (∀ span ∈ Piece.spansFrom 0 (Piece.ofText marker t), strip (field span.statement) ≠ []) ↔
      ∀ n region, has n region → ¬ IsSpace region := by
  constructor
  · intro hfilled n region hn hspace
    obtain ⟨-, span, hspan, hstrip⟩ := hr.taken hm h hn
    exact hfilled span hspan (hstrip.trans (strip_space hspace))
  · intro hnone span hspan hempty
    obtain ⟨region, hregion, hpart⟩ := hr.read span hspan
    have hstrip : strip (field span.statement) = strip region := (part?_region hpart).2
    exact hnone _ _ hregion (strip_eq_nil.1 (hstrip.symm.trans hempty))

end ReadFrom

/-! ## Filled parts -/

/-- **An empty part is refused, and the parts of an accepted header are filled exactly when none is blank
in it**: every annotation has a trap number if and only if there is more than white space in front of
each first comma, and every statement has a return type if and only if there is in front of each second. -/
theorem parts_filled (hm : IsIdentifier marker) :
    ((∃ n, HasNumber marker t n [] ∨ HasType marker t n []) →
      ∃ fault, replace marker origin t = .error fault ∧ fault.IsMalformed) ∧
    ∀ rewritten marks, replace marker origin t = .ok (rewritten, marks) →
      ((∀ mark ∈ marks, mark.symbol ≠ []) ↔ ∀ n number, HasNumber marker t n number → ¬ IsSpace number) ∧
      ((∀ s, Piece.statement s ∈ Piece.ofText marker t → ¬ IsSpace s.returnType) ↔
        ∀ n type, HasType marker t n type → ¬ IsSpace type) := by
  refine ⟨fun ⟨n, hempty⟩ => ?_, fun rewritten marks h => ⟨?_, ?_⟩⟩
  · cases h : replace marker origin t with
    | error fault => exact ⟨fault, rfl, replace_fault h⟩
    | ok answer =>
      rcases hempty with hnumber | htype
      · exact absurd rfl ((number_readFrom hm).taken hm h hnumber).1
      · exact absurd rfl ((returnType_readFrom hm).taken hm h htype).1
  · rw [← (number_readFrom hm).filled_iff hm h, (accounts_of_replace hm h).annotations]
    exact List.forall_mem_map
  · rw [← (returnType_readFrom hm).filled_iff hm h]
    constructor
    · intro hfilled span hspan hempty
      exact hfilled _ (Piece.mem_of_mem_spansFrom hspan) (strip_eq_nil.1 hempty)
    · intro hfilled s hs hspace
      obtain ⟨span, hspan, rfl⟩ := Piece.exists_span hs 0
      exact hfilled span hspan (strip_space hspace)

/-- An annotation with nothing between its first two commas. -/
def emptyType : Text := "int x;\nSVCALL(1,, f(void));\n"

theorem twoTraps_filled :
    (∃ fault, replace "SVCALL" "a.h" emptyType = .error fault ∧ fault.IsMalformed) ∧
    ∃ rewritten marks, replace "SVCALL" "a.h" twoTraps = .ok (rewritten, marks) ∧
      (∀ n number, HasNumber "SVCALL" twoTraps n number → ¬ IsSpace number) ∧
      ∀ n type, HasType "SVCALL" twoTraps n type → ¬ IsSpace type := by
  have hmarker : IsIdentifier "SVCALL" := .of_ascii (by decide) (by decide)
  constructor
  · refine (parts_filled hmarker).1 ⟨7, Or.inr ⟨rfl, List.forall_mem_nil _, [], "1", " f(void));\n", ?_, ?_⟩⟩
    · decide
    · exact ⟨List.forall_mem_nil _, [], isSpace_nil, rfl⟩
  · have hanswer : ((replace "SVCALL" "a.h" twoTraps).toOption.map fun answer => answer.2.map (·.symbol)) =
        some [("1" : Text), "2"] := by decide +kernel
    obtain ⟨⟨rewritten, marks⟩, h, hmarks⟩ := exists_of_toOption_map hanswer
    obtain ⟨hnumbers, htypes⟩ := (parts_filled hmarker).2 rewritten marks h
    refine ⟨rewritten, marks, h, hnumbers.1 fun mark hmark => ?_, htypes.1 fun s hs => ?_⟩
    · have hmem : mark.symbol ∈ [("1" : Text), "2"] := by
        rw [← hmarks]
        exact List.mem_map.2 ⟨mark, hmark, rfl⟩
      have hfull : ∀ symbol ∈ [("1" : Text), "2"], symbol ≠ [] := by decide
      exact hfull _ hmem
    · have htypes : (Piece.spansFrom 0 (Piece.ofText "SVCALL" twoTraps)).map (·.statement.returnType) =
          [("int" : Text), "int"] := by decide +kernel
      obtain ⟨span, hspan, rfl⟩ := Piece.exists_span hs 0
      have hmem : span.statement.returnType ∈ [("int" : Text), "int"] := by
        rw [← htypes]
        exact List.mem_map.2 ⟨span, hspan, rfl⟩
      have hfull : ∀ type ∈ [("int" : Text), "int"], ¬ IsSpace type := by decide
      exact hfull _ hmem

/-- A space where the trap number belongs. -/
def blankNumber : Text := "SVCALL( , uint32_t, sd_x(void));\n"

/-- A space where the return type belongs. -/
def blankType : Text := "SVCALL(1, , f(void));\n"

/-- Both are accepted, the one with an empty trap number, the other with a blank return type. -/
theorem blankNumber_accepted :
    (HasNumber "SVCALL" blankNumber 0 " " ∧ ∃ rewritten marks,
      replace "SVCALL" "a.h" blankNumber = .ok (rewritten, marks) ∧ ∃ mark ∈ marks, mark.symbol = []) ∧
    HasType "SVCALL" blankType 0 " " ∧ ∃ rewritten marks,
      replace "SVCALL" "a.h" blankType = .ok (rewritten, marks) ∧
        ∃ s, Piece.statement s ∈ Piece.ofText "SVCALL" blankType ∧ IsSpace s.returnType := by
  have hspace : IsSpace " " := by decide
  refine ⟨⟨⟨rfl, by decide, [], _, List.forall_mem_nil _, [], isSpace_nil, rfl⟩, ?_⟩,
    ⟨rfl, by decide, [], "1", _, by decide, List.forall_mem_nil _, [], isSpace_nil, rfl⟩, ?_⟩
  · have hanswer : ((replace "SVCALL" "a.h" blankNumber).toOption.map fun answer => answer.2.map (·.symbol)) =
        some [[]] := by decide +kernel
    obtain ⟨⟨rewritten, marks⟩, h, hmarks⟩ := exists_of_toOption_map hanswer
    obtain ⟨mark, rfl, hempty⟩ := List.map_eq_singleton_iff.1 hmarks
    exact ⟨rewritten, _, h, mark, List.mem_singleton_self _, hempty⟩
  · have hanswer : (replace "SVCALL" "a.h" blankType).toOption.isSome = true := by decide +kernel
    obtain ⟨⟨rewritten, marks⟩, h⟩ := exists_of_isSome hanswer
    have htypes : (Piece.spansFrom 0 (Piece.ofText "SVCALL" blankType)).map (·.statement.returnType) =
        [" "] := by decide +kernel
    obtain ⟨span, hspans, htype⟩ := List.map_eq_singleton_iff.1 htypes
    have hspan : span ∈ Piece.spansFrom 0 (Piece.ofText "SVCALL" blankType) := by
      rw [hspans]
      exact List.mem_singleton_self _
    exact ⟨rewritten, marks, h, span.statement, Piece.mem_of_mem_spansFrom hspan, by rwa [htype]⟩

end TrapStub.Mark
