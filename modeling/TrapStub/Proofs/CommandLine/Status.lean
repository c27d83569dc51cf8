import TrapStub.Proofs.Corpus.Staging
import TrapStub.Proofs.Survey.Untagged
import TrapStub.Proofs.Survey.Resolution
import TrapStub.Proofs.Header.Written
import TrapStub.Proofs.Run.Steps
import TrapStub.CommandLine

/-!
# Every failure of a call is reported

A call that the command line describes ends with status 0 if its stubs are written, and else with status 1 and a
line that says why. What it needs for that are inputs in order: texts where the command line could leave a separator,
a preamble that is UTF-8, a file tree with room for the staged copy, headers with names that are UTF-8, and a unit
whose types come to an end and whose alignments can be read.

* `Source.Finite`: what is needed of a parsed unit.
* `CommandLine.InOrder`: what is needed of a call.
* `readHeaders_ends`, `generate_ends`: how the parts of a call end.
* `run_reports`: **a call in order ends with a status, and reports every failure.**
-/

namespace TrapStub

variable {settings : Settings} {parser : Parser} {directory output : Path} {world : World} {dumpPlan : Bool}

/-- What is needed of a parsed unit: types lead back to themselves only through the members of a record, untagged
structs and unions have bodies that are not inside themselves, and the alignments of fields can be read. -/
structure Source.Finite (source : Source) : Prop where
  unrolled : source.Unrolled
  bodied : source.Bodied
  aligned : ∀ c, ∀ id ∈ source.fieldsOf c, ∃ alignment, source.fieldAlignment id = .ok alignment

theorem Source.Finite.interface_fault {source : Source} (h : source.Finite) {fault : Fault}
    (hfault : source.interface = .error fault) : fault.IsReport := by
  refine source.interface_fails (fun r => ⟨r, rfl⟩) (fun c id hid fault herror => ?_) h.unrolled hfault
  obtain ⟨alignment, halignment⟩ := h.aligned c id hid
  rw [halignment] at herror
  cases herror

/-- The fault has a wording: it is a report, or says why there is no parser. -/
def Fault.IsWorded (parser : Parser) (fault : Fault) : Prop :=
  fault.IsReport ∨ ∃ reason, parser.answer = .unavailable reason ∧ fault = .parserUnavailable reason

/-! ## Reading headers -/

/-- The step goes through, whatever it prints. -/
def GoesThrough (step : Run Unit) : Prop := ∀ before, Ends step before (fun _ _ => True) fun _ _ => False

theorem goesThrough_modify (f : World → World) : GoesThrough (modify f) := fun _ => ends_modify trivial

theorem goesThrough_forM {α : Type} {f : α → Run Unit} (h : ∀ a, GoesThrough (f a)) (l : List α) :
    GoesThrough (l.forM f) :=
  fun _ => Ends.forM (I := fun _ => True) l trivial fun a _ after _ => h a after

/-- Something may be printed first. -/
theorem Ends.printed {β : Type} {b : Bool} {step : Run Unit} {rest : Unit → Run β} {Q : β → World → Prop}
    {F : Fault → World → Prop} (hstep : GoesThrough step) (h : ∀ after, Ends (rest ()) after Q F) :
    Ends (if b = true then step >>= rest else rest ()) world Q F := by
  split
  · exact ((hstep world).imp (fun _ _ => id) fun _ _ => False.elim).bind fun _ after _ => h after
  · exact h world

theorem parse_ends (staged : Staged) : Ends (parse settings parser staged) world
    (fun unit _ => parser.answer = .parsed unit) fun fault _ => fault.IsWorded parser := by
  unfold parse
  cases hanswer : parser.answer with
  | unavailable reason => exact ends_throw (Or.inr ⟨reason, hanswer, rfl⟩)
  | failed reason =>
    exact (ends_modify (R := fun _ _ => True) trivial).bind fun _ _ _ => ends_throw (Or.inl ⟨_, rfl⟩)
  | parsed unit =>
    exact (ends_modify (R := fun _ _ => True) trivial).bind fun _ _ _ => ends_pure rfl

theorem refuseErrors_fault {staged : Staged} {diagnostics : List Diagnostic} {fault : Fault}
    (h : refuseErrors staged diagnostics = .error fault) : fault.IsReport := by
  unfold refuseErrors at h
  split at h
  · cases h
  · cases h
    exact ⟨_, rfl⟩

/-- What was read below a directory comes from a unit with bodies. -/
def FromUnit (directory : Path) (reading : Reading) : Prop :=
  directory.hasNull = false ∧ ∃ source : Source, source.Bodied ∧ source.interface = .ok reading.interface

theorem readStaged_ends (hstage : Stageable settings directory world.tree)
    (hunit : ∀ staged after unit, stage settings directory world.tree = (.ok staged, after) →
      parser.answer = .parsed unit → Source.Finite ⟨staged, unit⟩) :
    Ends (readStaged settings parser directory) world (fun reading _ => FromUnit directory reading)
      fun fault _ => fault.IsWorded parser := by
  have hstaged : Ends (Run.ofAction (stage settings directory)) world
      (fun staged _ =>
        directory.hasNull = false ∧ ∃ after, stage settings directory world.tree = (.ok staged, after))
      fun fault _ => fault.IsWorded parser :=
    .ofAction ((stage_ends hstage).and_run.imp (fun _ after h => ⟨h.1, after, h.2⟩) fun _ _ h => Or.inl h.1)
  unfold readStaged
  refine hstaged.bind fun staged after ⟨hnull, hrun⟩ => ?_
  obtain ⟨copy, hrun⟩ := hrun
  refine Ends.printed (goesThrough_modify _) fun after => ?_
  refine Ends.printed (goesThrough_modify _) fun after => ?_
  refine (parse_ends staged).bind fun unit after hparsed => ?_
  have hfinite := hunit staged copy unit hrun hparsed
  refine Ends.runOfExcept_bind (fun _ _ => ?_) fun fault hfault => Or.inl (refuseErrors_fault hfault)
  refine Ends.runOfExcept_bind (fun interface hinterface => ?_) fun fault hfault =>
    Or.inl (hfinite.interface_fault hfault)
  exact ends_pure ⟨hnull, _, hfinite.bodied, hinterface⟩

theorem readHeaders_ends (hstage : Stageable settings directory world.tree)
    (hunit : ∀ staged after unit, stage settings directory world.tree = (.ok staged, after) →
      parser.answer = .parsed unit → Source.Finite ⟨staged, unit⟩) :
    Ends (readHeaders settings parser directory) world (fun reading _ => FromUnit directory reading)
      fun fault _ => fault.IsWorded parser := by
  have hread : Ends (Run.withScratch (readStaged settings parser directory)) world
      (fun reading _ => FromUnit directory reading) fun fault _ => fault.IsWorded parser := .withScratch (readStaged_ends hstage hunit)
  unfold readHeaders
  exact hread.bind fun reading after hreading => .printed (goesThrough_modify _) fun after => ends_pure hreading

/-! ## Writing stubs -/

theorem directoryName_ok (tree : FileTree) (h : directory.hasNull = false) :
    ∃ name, directoryName tree directory = .ok name := by
  have hlocate := FileTree.locate_ne_null tree .target h
  have hresolve : ∃ names, tree.resolve directory = .ok names := by
    unfold FileTree.resolve
    split
    · exact ⟨_, rfl⟩
    · rename_i hnull
      exact absurd hnull hlocate
    · exact ⟨_, rfl⟩
  obtain ⟨names, hnames⟩ := hresolve
  unfold directoryName
  rw [hnames]
  exact ⟨_, rfl⟩

theorem saveOutput_ends (h : output.hasNull = false) (bytes : List UInt8) :
    Ends (saveOutput output bytes) world (fun _ _ => True) fun fault _ => fault.IsReport := by
  have hunwritable : ∀ problem, problem ≠ .nullCharacter → (unwritable output problem).IsReport := by
    intro problem hproblem
    cases problem <;> first | exact absurd rfl hproblem | exact ⟨_, rfl⟩
  refine Ends.ofAction (Ends.ofFile ?_ fun problem _ => hunwritable problem)
  exact (makeDirectories_fails output.parent (FileTree.hasNull_parent h) _).bind fun _ tree _ =>
    writeFile_fails h bytes tree

theorem generate_ends (hstage : Stageable settings directory world.tree)
    (hunit : ∀ staged after unit, stage settings directory world.tree = (.ok staged, after) →
      parser.answer = .parsed unit → Source.Finite ⟨staged, unit⟩) (houtput : output.hasNull = false) :
    Ends (generate settings parser directory output dumpPlan) world (fun _ _ => True)
      fun fault _ => fault.IsWorded parser := by
  unfold generate
  refine (readHeaders_ends hstage hunit).bind fun reading after ⟨hnull, source, hbodied, hinterface⟩ => ?_
  refine Ends.runOfExcept_bind (fun plans _ => ?_) fun fault hfault => ?_
  · refine Ends.printed (goesThrough_forM (fun _ => goesThrough_modify _) plans) fun after => Ends.get_bind ?_
    refine Ends.runOfExcept_bind (fun name _ => ?_) fun fault hfault => ?_
    · refine Ends.runOfExcept_bind (fun text _ => ?_) fun fault hfault =>
        absurd hfault (Header.render_ne_error (Source.interface_writable hbodied hinterface))
      refine ((saveOutput_ends houtput _).imp (fun _ _ => id) fun _ _ => Or.inl).bind fun _ after _ => ?_
      exact .printed (goesThrough_modify _) fun after => ends_pure trivial
    · obtain ⟨name, hname⟩ := directoryName_ok after.tree hnull
      cases hname.symm.trans hfault
  · obtain ⟨d, -, cause, rfl, -⟩ := Plan.ofDeclarations_fault (source.interface_resolves hinterface) hfault
    exact Or.inl ⟨_, rfl⟩

/-! ## Whole calls -/

namespace CommandLine

variable {request : Request} {source target : Text} {middle after : World}

/-- What is needed of a call: the operands and the preamble are texts that can be paths, what the preamble file
holds is UTF-8, the headers can be staged, and what the parser finds in them comes to an end. -/
structure InOrder (request : Request) (parser : Parser) (tree : FileTree) (source target : Text) : Prop where
  sourceText : request.source = .text source
  outputText : request.output = .text target
  outputPath : (Path.ofText target).hasNull = false
  preamble : ∀ file, (request.preamble.bind Value.text?).filter (!·.isEmpty) = some file →
    (Path.ofText file).hasNull = false ∧
      ∀ bytes, tree.read (Path.ofText file) = .ok bytes → Utf8.isValid bytes = true
  staging : Stageable request.settings (.ofText source) tree
  unit : ∀ staged after unit, stage request.settings (.ofText source) tree = (.ok staged, after) →
    parser.answer = .parsed unit → Source.Finite ⟨staged, unit⟩

/-- The preamble of a call: none, or what the file for it holds. -/
def HasPreamble (request : Request) (tree : FileTree) (preamble : Text) : Prop :=
  match (request.preamble.bind Value.text?).filter (!·.isEmpty) with
  | none => preamble = []
  | some file => readPreamble tree (.ofText file) = .ok (some preamble)

/-- The run that the call asks for writes the stubs, and ends in `after`. -/
def Generates (request : Request) (parser : Parser) (source target : Text) (world after : World) : Prop :=
  ∃ preamble made, HasPreamble request world.tree preamble ∧
    generate { request.settings with preamble } parser (.ofText source) (.ofText target) request.dumpPlan world =
      (.ok made, after)

/-- The call adds lines to the errors, and one of them says that there is an error. -/
def Reported (world after : World) : Prop :=
  ∃ lines, world.Added lines after ∧ ∃ cause : Text, "ERROR: " ++ cause ∈ lines

/-- The status is that of success, and the run is done; or that of a failure that is reported, and no run ends
well. -/
def IsStatus (request : Request) (parser : Parser) (source target : Text) (world : World) (status : Nat)
    (after : World) : Prop :=
  status = 0 ∧ Generates request parser source target world after ∨
    status = 1 ∧ Reported world after ∧ ∀ other, ¬ Generates request parser source target world other

theorem HasPreamble.unique {preamble other : Text} {tree : FileTree} (h : HasPreamble request tree preamble)
    (h' : HasPreamble request tree other) : other = preamble := by
  unfold HasPreamble at h h'
  split at h <;> rename_i hfile <;> rw [hfile] at h'
  · exact h'.trans h.symm
  · exact Option.some.inj (Except.ok.inj (h'.symm.trans h))

/-- Further lines take nothing of a report back. -/
theorem Reported.onward (h : Reported world middle) (hmore : middle.Continues after) : Reported world after := by
  obtain ⟨lines, hlines, cause, hcause⟩ := h
  obtain ⟨more, hmore⟩ := hmore
  exact ⟨lines ++ more, hlines.trans hmore, cause, List.mem_append_left _ hcause⟩

/-- A line that says that there is an error reports it, behind whatever was printed before. -/
theorem warn_reports (hbefore : world.Continues middle) {line cause : Text} (hline : line = "ERROR: " ++ cause) :
    Ends (warn line) middle (fun _ after => Reported world after) fun _ _ => False := by
  obtain ⟨lines, hlines⟩ := hbefore
  refine (warn_adds line).imp (fun _ after hafter => ?_) fun _ _ => id
  exact ⟨lines ++ [line], hlines.trans hafter, cause, List.mem_append_right _ (hline ▸ List.mem_singleton_self _)⟩

/-- Status 1 goes with a line that says that there is an error. -/
theorem refused_ends (hbefore : world.Continues middle) {line cause : Text} (hline : line = "ERROR: " ++ cause) :
    Ends (do warn line; return 1) middle (fun status after => status = 1 ∧ Reported world after) fun _ _ => False :=
  (warn_reports hbefore hline).bind fun _ _ hafter => ends_pure ⟨rfl, hafter⟩

theorem unreadable_ends (file : Path) (problem : FileProblem)
    (hnone : ∀ other, ¬ Generates request parser source target world other) :
    Ends (do warn ("ERROR: cannot read preamble " ++ file.text ++ ": " ++ problem.message); return 1) world
      (IsStatus request parser source target world) fun _ _ => False := by
  have hline : ("ERROR: cannot read preamble " ++ file.text ++ ": " ++ problem.message : Text) =
      "ERROR: " ++ ("cannot read preamble " ++ file.text ++ ": " ++ problem.message) := rfl
  exact (refused_ends (refl_of World.Continues world) hline).imp (fun _ _ h => Or.inr ⟨h.1, h.2, hnone⟩) fun _ _ => id

/-- **A fault with a wording is explained.** -/
theorem explain_ends {fault : Fault} (hbefore : world.Continues middle) (h : fault.IsWorded parser) :
    Ends (explain fault) middle (fun status after => status = 1 ∧ Reported world after) fun _ _ => False := by
  rcases h with ⟨r, rfl⟩ | ⟨reason, -, rfl⟩
  · have hline : ("ERROR: " ++ r.cause.kind.name ++ ": " ++ r.text : Text) =
        "ERROR: " ++ (r.cause.kind.name ++ ": " ++ r.text) := by
      simp only [List.append_assoc]
    exact refused_ends hbefore hline
  · have hline : ("ERROR: libclang unavailable: " ++ reason : Text) =
        "ERROR: " ++ ("libclang unavailable: " ++ reason) := rfl
    refine (warn_reports hbefore hline).bind fun _ after hafter => ?_
    refine (warn_adds _).bind fun _ last hlast => ends_pure ⟨rfl, hafter.onward ⟨_, hlast⟩⟩

theorem readPreamble_ne_null {tree : FileTree} {path : Path} (h : path.hasNull = false) :
    readPreamble tree path ≠ .error .nullCharacter := by
  have hlocate := FileTree.locate_ne_null tree .target h
  intro hread
  unfold readPreamble FileTree.read at hread
  rcases bind_eq_error.1 hread with hread | ⟨bytes, -, hread⟩
  · split at hread
    all_goals cases hread
    contradiction
  · cases hread

theorem readPreamble_valid {tree : FileTree} {path : Path} {preamble : Option Text}
    (h : ∀ bytes, tree.read path = .ok bytes → Utf8.isValid bytes = true)
    (hread : readPreamble tree path = .ok preamble) : ∃ text, preamble = some text := by
  unfold readPreamble at hread
  obtain ⟨bytes, hbytes, hread⟩ := bind_eq_ok.1 hread
  rw [h bytes hbytes, if_pos rfl] at hread
  cases hread
  exact ⟨_, rfl⟩

theorem runGenerate_ends (h : InOrder request parser world.tree source target) {preamble : Text}
    (hpreamble : HasPreamble request world.tree preamble) :
    Ends (runGenerate request { request.settings with preamble } parser) world
      (IsStatus request parser source target world) fun _ _ => False := by
  have hstage : Stageable { request.settings with preamble } (.ofText source) world.tree :=
    ⟨h.staging.proper, h.staging.scratch, h.staging.marker, h.staging.reached, h.staging.copy, h.staging.headers⟩
  have hends := ((generate_ends hstage h.unit h.outputPath).and (generate_continues request.dumpPlan world)).and_run
  unfold runGenerate
  rw [h.sourceText, h.outputText]
  refine Ends.runOfExcept_bind (fun _ hs => ?_) nofun
  cases hs
  refine Ends.runOfExcept_bind (fun _ ho => ?_) nofun
  cases ho
  refine Ends.tryCatch (hends.bind fun made after hmade => ends_pure (Or.inl ⟨rfl, preamble, made, hpreamble, hmade.2⟩))
    fun fault middle hfault => ?_
  obtain ⟨⟨hworded, hbefore⟩, hrun⟩ := hfault
  refine (explain_ends hbefore hworded).imp (fun _ after hafter => Or.inr ⟨hafter.1, hafter.2, ?_⟩) fun _ _ => id
  -- the run with the one preamble of the call fails
  rintro other ⟨_, made, hother, hmade⟩
  cases hpreamble.unique hother
  cases hrun.symm.trans hmade

theorem runRequest_ends (h : InOrder request parser world.tree source target) :
    Ends (runRequest request parser) world (IsStatus request parser source target world) fun _ _ => False := by
  unfold runRequest
  cases hfile : (request.preamble.bind Value.text?).filter (!·.isEmpty) with
  | none => exact runGenerate_ends h (by unfold HasPreamble; rw [hfile])
  | some file =>
    obtain ⟨hnull, hvalid⟩ := h.preamble file hfile
    refine Ends.get_bind ?_
    dsimp only
    cases hread : readPreamble world.tree (Path.ofText file) with
    | error problem =>
      have hproblem : problem ≠ .nullCharacter := by
        rintro rfl
        exact readPreamble_ne_null hnull hread
      have hnone : ∀ other, ¬ Generates request parser source target world other := by
        rintro other ⟨preamble, made, hpreamble, -⟩
        unfold HasPreamble at hpreamble
        rw [hfile] at hpreamble
        cases hread.symm.trans hpreamble
      cases problem <;> first | exact absurd rfl hproblem | exact unreadable_ends (.ofText file) _ hnone
    | ok preamble =>
      obtain ⟨text, rfl⟩ := readPreamble_valid hvalid hread
      exact runGenerate_ends h (by unfold HasPreamble; rw [hfile]; exact hread)

theorem run_ends {arguments : List Text} (hrequest : Request.ofArguments arguments = .ok request)
    (h : InOrder request parser world.tree source target) :
    Ends (run arguments parser) world (IsStatus request parser source target world) fun _ _ => False := by
  unfold run
  rw [hrequest]
  exact runRequest_ends h

end CommandLine

open CommandLine

/-- **Every failure of a call is reported.** -/
theorem run_reports {arguments : List Text} {request : Request} {source target : Text}
    (hrequest : Request.ofArguments arguments = .ok request)
    (h : InOrder request parser world.tree source target) :
    (∃ status after, run arguments parser world = (.ok status, after) ∧
        IsStatus request parser source target world status after) ∧
      ∀ fault after, readHeaders request.settings parser (.ofText source) world = (.error fault, after) →
        fault.IsWorded parser := by
  refine ⟨?_, fun fault after hfault => (readHeaders_ends h.staging h.unit).fault hfault⟩
  have hends := run_ends hrequest h
  rcases hrun : run arguments parser world with ⟨fault | status, after⟩
  · exact (hends.fault hrun).elim
  · exact ⟨status, after, rfl, hends.answer hrun⟩

/-! The header `#include <s.h>` and `typedef struct s s_t;`, where the other header is one of the system and has
`struct s { int v __attribute__((aligned(8))); };`, or `010` for `8`. -/

/-- What the parser finds in it, the alignment being written with some digits. -/
def alignedUnit (digits : Text) : ParsedUnit :=
  { top := [some 0], diagnostics := []
    cursors := #[
      { kind := .typedefDecl, spelling := "s_t", file := some "corpus/a.h", line := 2, underlying := some 0 },
      { kind := .structDecl, spelling := "s", isDefinition := true, definition := some 1, type := some 0 },
      { spelling := "v", type := some 1, fieldOffset := 0, parent := some 1, children := [some 3] },
      { kind := .alignedAttr
        tokens := [⟨.identifier, "aligned", 32, 39⟩, ⟨.punctuation, "(", 39, 40⟩, ⟨.literal, digits, 40, 43⟩,
          ⟨.punctuation, ")", 43, 44⟩] }]
    types := #[
      { kind := .record, size := 8, align := 8, declaration := some 1, fields := [some 2] },
      { kind := .scalar .int, spelling := "int", size := 4, align := 4 }] }

/-- The directory `h` with the header, in the working directory. -/
def alignedTree : FileTree :=
  { entries := [(["w"], .directory), (["w", "h"], .directory),
      (["w", "h", "a.h"], .file (Utf8.encode "#include <s.h>\ntypedef struct s s_t;\n"))]
    here := ["w"], scratch := ["t"] }

def alignedWorld : World := ⟨alignedTree, [], [], none⟩

def alignedParser (digits : Text) : Parser := ⟨.parsed (alignedUnit digits), "/t", "/s"⟩

def alignedRequest : Request := ⟨[.text "h", .text "o.h"], [], []⟩

theorem alignedUnit_finite (staged : Staged) : Source.Finite ⟨staged, alignedUnit "8"⟩ := by
  have htagged : ∀ c ∈ Source.records ⟨staged, alignedUnit "8"⟩,
      Source.isUntagged ⟨staged, alignedUnit "8"⟩ c = false := by
    intro c hc
    have hrecords : Source.records ⟨staged, alignedUnit "8"⟩ = [(alignedUnit "8").cursor (some 1)] := rfl
    rw [hrecords, List.mem_singleton] at hc
    rw [hc]
    rfl
  refine ⟨fun t hcycle => ?_, ⟨fun c hc huntagged => ?_, fun key hcycle => ?_⟩, fun c id hid => ?_⟩
  · -- neither of the two types leads anywhere
    obtain ⟨next, h, -⟩ := Relation.TransGen.head'_iff.1 hcycle
    obtain ⟨i, rfl, hi⟩ := h.index
    have hsize : i = 0 ∨ i = 1 := by
      have : i < 2 := hi
      omega
    cases h with
    | part hp =>
      have hmem := hp.mem_parts
      rcases hsize with rfl | rfl <;> exact absurd hmem List.not_mem_nil
    | underlying hk => rcases hsize with rfl | rfl <;> cases hk
  · rw [htagged c hc] at huntagged
    cases huntagged
  · obtain ⟨inner, ⟨c, hc, huntagged, -⟩, -⟩ := Relation.TransGen.head'_iff.1 hcycle
    rw [htagged c hc] at huntagged
    cases huntagged
  · have hfield : id = some 2 := by
      have hfields : ∀ t, id ∈ ((alignedUnit "8").type t).fields → id = some 2
        | none, h => absurd h List.not_mem_nil
        | some 0, h => List.mem_singleton.1 h
        | some 1, h => absurd h List.not_mem_nil
        | some (n + 2), h => absurd h List.not_mem_nil
      exact hfields _ hid
    rw [hfield]
    exact ⟨some 8, rfl⟩

theorem alignedTree_stageable : Stageable alignedRequest.settings (.ofText "h") alignedTree := by
  have hfound : Discovery.headers alignedTree.prepared (.ofText "h") ["nrf_nvic.h"] = .ok ["a.h"] := by cbv
  have hreached : alignedTree.prepared.locate .target (.ofText "h") =
      .ok (.occupied ["w", "h"] .directory) := by cbv
  have hscratch : alignedTree.HasScratch := by
    refine ⟨by decide, fun front hfront => ?_, fun rest => rfl⟩
    have hparts : front <+: [] ++ [("t" : Text)] := hfront
    rcases List.prefix_concat_iff.1 hparts with rfl | hfront
    · exact Or.inr rfl
    · rw [List.prefix_nil.1 hfront]
      exact Or.inl rfl
  refine ⟨FileTree.proper_of_entries (by decide), hscratch, ⟨_, rfl⟩, ?_, by decide, fun found h => ?_⟩
  · rw [hreached]
    intro h
    cases h
  · cases hfound.symm.trans h
    refine ⟨by decide, fun value hvalue => ?_⟩
    rw [List.mem_singleton.1 hvalue]
    exact ⟨"nrf.h", rfl, rfl, by decide, by decide, Or.inl rfl⟩

theorem alignedWorld_reports : Request.ofArguments ["h", "o.h"] = .ok alignedRequest ∧
    InOrder alignedRequest (alignedParser "8") alignedWorld.tree "h" "o.h" ∧
    (∃ status after, run ["h", "o.h"] (alignedParser "8") alignedWorld = (.ok status, after) ∧
      IsStatus alignedRequest (alignedParser "8") "h" "o.h" alignedWorld status after) ∧
    ∀ fault after,
      readHeaders alignedRequest.settings (alignedParser "8") (.ofText "h") alignedWorld = (.error fault, after) →
      fault.IsWorded (alignedParser "8") := by
  have hrequest : Request.ofArguments ["h", "o.h"] = .ok alignedRequest := by cbv
  have horder : InOrder alignedRequest (alignedParser "8") alignedWorld.tree "h" "o.h" := by
    refine ⟨rfl, rfl, rfl, fun file hfile => ?_, alignedTree_stageable, fun staged after unit _ hunit => ?_⟩
    · cases hfile
    · cases hunit
      exact alignedUnit_finite staged
  exact ⟨hrequest, horder, run_reports hrequest horder⟩

section Leaks

variable {staged : Staged} {copy : FileTree} {unit : ParsedUnit} {fault : Fault}

/-- Where the copy is made and the parser answers, a fault of the walk is that of reading. -/
theorem readStaged_fails (hstage : stage settings directory world.tree = (.ok staged, copy))
    (hunit : parser.answer = .parsed unit) (hclean : refuseErrors staged unit.diagnostics = .ok ())
    (hfault : Source.interface ⟨staged, unit⟩ = .error fault) :
    Ends (readStaged settings parser directory) world (fun _ _ => False) fun f _ => f = fault := by
  have hstaged : Ends (Run.ofAction (stage settings directory)) world (fun s _ => s = staged) fun _ _ => False :=
    .ofAction (ends_of_ok hstage rfl)
  have hparse : ∀ before, Ends (parse settings parser staged) before (fun u _ => u = unit) fun _ _ => False := by
    intro before
    unfold parse
    rw [hunit]
    exact (ends_modify (R := fun _ _ => True) trivial).bind fun _ _ _ => ends_pure rfl
  unfold readStaged
  refine (hstaged.imp (fun _ _ => id) fun _ _ => False.elim).bind fun s after hs => ?_
  subst hs
  refine .printed (goesThrough_modify _) fun after => .printed (goesThrough_modify _) fun after => ?_
  refine ((hparse after).imp (fun _ _ => id) fun _ _ => False.elim).bind fun u after hu => ?_
  subst hu
  rw [hclean]
  refine Ends.runOfExcept_bind (fun _ _ => ?_) nofun
  rw [hfault]
  refine Ends.runOfExcept_bind nofun fun f hf => ?_
  cases hf
  rfl

theorem generate_fails (h : Ends (readStaged settings parser directory) world (fun _ _ => False) fun f _ => f = fault) :
    Ends (generate settings parser directory output dumpPlan) world (fun _ _ => False) fun f _ => f = fault := by
  have hheaders : Ends (Run.withScratch (readStaged settings parser directory)) world (fun _ _ => False)
      fun f _ => f = fault := .withScratch h
  unfold generate readHeaders
  exact (hheaders.bind fun _ _ => False.elim).bind fun _ _ => False.elim

/-- **A fault of the walk that has no wording ends the call without a status.** -/
theorem run_fails {arguments : List Text} {request : Request} {source target : Text}
    (hrequest : Request.ofArguments arguments = .ok request) (hpreamble : request.preamble = none)
    (hsource : request.source = .text source) (houtput : request.output = .text target)
    (hread : Ends (readStaged request.settings parser (.ofText source)) world (fun _ _ => False) fun f _ => f = fault)
    (hexplain : explain fault = throw fault) : ∃ after, run arguments parser world = (.error fault, after) := by
  have hrun : Ends (run arguments parser) world (fun _ _ => False) fun f _ => f = fault := by
    unfold run runRequest runGenerate
    rw [hrequest]
    dsimp only
    rw [hpreamble, hsource, houtput]
    refine Ends.runOfExcept_bind (fun _ hs => ?_) nofun
    cases hs
    refine Ends.runOfExcept_bind (fun _ ho => ?_) nofun
    cases ho
    refine ((generate_fails hread).bind fun _ _ => False.elim).tryCatch fun f after hf => ?_
    rw [hf, hexplain]
    exact ends_throw rfl
  rcases hresult : run arguments parser world with ⟨f | status, after⟩
  · exact ⟨after, by rw [hrun.fault hresult]⟩
  · exact (hrun.answer hresult).elim

end Leaks

/-- The alignment is one that the parser reads as 8 and the walk not at all. -/
theorem alignedWorld_leaks : ∃ after,
    run ["h", "o.h"] (alignedParser "010") alignedWorld = (.error (.leadingZeros "010"), after) := by
  have hrequest : Request.ofArguments ["h", "o.h"] = .ok alignedRequest := by cbv
  have hstage : (stage alignedRequest.settings (.ofText "h") alignedTree).1 =
      .ok ⟨["t"], [("a.h", Utf8.encode "#include <s.h>\ntypedef struct s s_t;\n")], []⟩ := by cbv
  have hfault : fault? (Source.interface
      ⟨⟨["t"], [("a.h", Utf8.encode "#include <s.h>\ntypedef struct s s_t;\n")], []⟩, alignedUnit "010"⟩) =
      some (.leadingZeros "010") := by decide
  exact run_fails hrequest rfl rfl rfl (readStaged_fails (Prod.ext hstage rfl) rfl rfl (fault?_eq_some.1 hfault)) rfl

end TrapStub
