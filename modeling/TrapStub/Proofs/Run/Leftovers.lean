import Mathlib
import TrapStub.Proofs.Corpus.Enclosure
import TrapStub.Proofs.Run.Steps

/-!
# What a run leaves behind

A run that fails before the output is written leaves nothing: only staging changes files, and its directory is
removed. The output is written last, after the directories above it are made. If it cannot be written, these
directories stay; they stay only where the path is no ordinary one, such as one that steps up again or ends in a
name that is too long.

* `Confined`: what a run needs so that its copy of the headers stays in its directory.
* `LeftBehind`: what a failure may leave.
* `generate_leaves`: **a run changes nothing but its output and directories above it.**
-/

namespace TrapStub

open FileTree Run

variable {α β : Type} {settings : Settings} {parser : Parser} {directory output : Path} {world : World}
  {dumpPlan : Bool} {tree t : FileTree} {names : List Text} {name : Text}

/-! ## Reading headers -/

/-- What a run needs so that its copy of the headers stays in its directory: a file system in order, a free place
in a directory for the copy, and no empty header that is a way out of it. -/
structure Confined (settings : Settings) (tree : FileTree) : Prop where
  proper : tree.Proper
  grounded : tree.Grounded
  areNames : AreNames tree.scratch
  above : tree.entry? tree.scratch.dropLast = some .directory
  fresh : tree.entry? tree.scratch = none
  inside : ∀ text, .text text ∈ settings.emptyHeaders → StaysInside tree.scratch text

theorem FileTree.Grounded.of_same (h : tree.Grounded) (hsame : tree.Same t) : t.Grounded := by
  intro names name entry hentry
  rw [hsame.entries] at hentry ⊢
  exact h names name entry hentry

theorem Confined.isFree (h : Confined settings tree) : tree.IsFree tree.scratch := by
  refine ⟨h.areNames, h.grounded.through h.above, fun names hnames => ?_⟩
  obtain ⟨rest, rfl⟩ := hnames
  exact h.grounded.all_below h.fresh rest

/-- **Reading headers leaves nothing behind**, whether it ends well or not. -/
theorem readHeaders_same (h : Confined settings world.tree) :
    Ends (readHeaders settings parser directory) world (fun _ after => world.tree.Same after.tree)
      fun _ after => world.tree.Same after.tree := by
  have hfree := h.isFree
  -- behind staging the files stay as they are until the copy is removed
  have hread : Ends (readStaged settings parser directory) world
      (fun _ after => Enclosed world.tree.scratch world.tree after.tree)
      fun _ after => Enclosed world.tree.scratch world.tree after.tree := by
    have hstage : Ends (Run.ofAction (stage settings directory)) world
        (fun _ after => Enclosed world.tree.scratch world.tree after.tree)
        fun _ after => Enclosed world.tree.scratch world.tree after.tree :=
      .ofAction (stage_encloses h.proper hfree h.inside)
    unfold readStaged
    refine hstage.bind fun staged after hafter => Keeps.ends ?_ hafter
    refine keeps_printed (say_sameTree _) (keeps_printed (warn_sameTree _) ?_)
    exact (keeps_parse (fun _ => keeps_modify fun _ => rfl) staged).bind fun unit =>
      (keeps_ofExcept _).bind fun _ => (keeps_ofExcept _).bind fun _ => keeps_pure _
  have hremoved : Ends (Run.withScratch (readStaged settings parser directory)) world
      (fun _ after => world.tree.Same after.tree) fun _ after => world.tree.Same after.tree :=
    .withScratch (hread.imp (fun _ _ hafter => hafter.removeAll hfree) fun _ _ hafter => hafter.removeAll hfree)
  unfold readHeaders
  refine hremoved.bind fun reading after hafter => Keeps.ends ?_ hafter
  exact keeps_printed (say_sameTree _) (keeps_pure _)

/-! ## Whole runs -/

/-- What a failure may leave: new directories above the output, if the output could not be written, and nothing if
its path is an ordinary one. -/
structure LeftBehind (output : Path) (tree : FileTree) (fault : Fault) (t : FileTree) : Prop where
  grown : Grown output tree t
  same : (IsOrdinary output ∨ ∀ problem, fault ≠ unwritable output problem) → tree.Same t

theorem FileTree.Same.leftBehind (h : tree.Same t) (fault : Fault) : LeftBehind output tree fault t :=
  ⟨h.grown, fun _ => h⟩

theorem saveOutput_leaves (h : world.tree.Grounded) (bytes : List UInt8) :
    Ends (saveOutput output bytes) world (fun _ after => Saved output bytes world.tree after.tree)
      fun fault after => LeftBehind output world.tree fault after.tree := by
  refine Ends.ofAction (Ends.ofFile (R := fun _ t => Saved output bytes world.tree t)
    (G := fun _ t => Grown output world.tree t ∧ (IsOrdinary output → t = world.tree)) ?_ fun problem t ht => ?_)
  · by_cases houtput : IsOrdinary output
    · exact ((saving_ends output bytes world.tree).and (saving_whole h houtput bytes)).imp (fun _ _ h => h.1)
        fun _ _ h => ⟨h.1, fun _ => h.2⟩
    · exact (saving_ends output bytes world.tree).imp (fun _ _ => id) fun _ _ h => ⟨h, fun h => absurd h houtput⟩
  · refine ⟨ht.1, fun hcases => ?_⟩
    have hsame := ht.2 (hcases.resolve_right fun hother => hother problem rfl)
    exact hsame ▸ Same.refl _

/-- A step that changes no file, behind others of the kind. -/
theorem Run.Keeps.same {step : Run α} (h : Keeps World.SameTree step) (hsame : tree.Same world.tree) :
    Ends step world (fun _ after => tree.Same after.tree) fun fault after => LeftBehind output tree fault after.tree :=
  (h.ends hsame).imp (fun _ _ => id) fun fault _ hafter => hafter.leftBehind fault

/-- Something may be printed first. -/
theorem Run.Keeps.printed {b : Bool} {step : Run Unit} {rest : Unit → Run β} {Q : β → World → Prop}
    {F : Fault → World → Prop} (hstep : Keeps World.SameTree step) (hsame : tree.Same world.tree)
    (hF : ∀ fault after, tree.Same after.tree → F fault after)
    (h : ∀ after, tree.Same after.tree → Ends (rest ()) after Q F) :
    Ends (if b = true then step >>= rest else rest ()) world Q F := by
  split
  · exact ((hstep.ends hsame).imp (fun _ _ => id) hF).bind fun _ after hafter => h after hafter
  · exact h world hsame

/-- **A run changes nothing but its output and directories above it.** If it ends well, the output holds the text as
bytes. If it fails, nothing is different but for new directories above an output that could not be written, and these
are there only if its path is no ordinary one. -/
theorem generate_leaves (h : Confined settings world.tree) :
    Ends (generate settings parser directory output dumpPlan) world
      (fun made after => Saved output (Utf8.encode made.text) world.tree after.tree)
      fun fault after => LeftBehind output world.tree fault after.tree := by
  have hread : Ends (readHeaders settings parser directory) world (fun _ after => world.tree.Same after.tree)
      fun fault after => LeftBehind output world.tree fault after.tree :=
    (readHeaders_same h).imp (fun _ _ => id) fun fault _ hafter => hafter.leftBehind fault
  unfold generate
  refine hread.bind fun reading after hafter => ?_
  refine Ends.runOfExcept_bind (fun plans _ => ?_) fun fault _ => hafter.leftBehind fault
  refine (keeps_forM (fun _ => say_sameTree _) plans).printed hafter (fun fault _ h => h.leftBehind fault)
    fun after hafter => Ends.get_bind ?_
  refine Ends.runOfExcept_bind (fun name _ => ?_) fun fault _ => hafter.leftBehind fault
  refine Ends.runOfExcept_bind (fun text _ => ?_) fun fault _ => hafter.leftBehind fault
  -- the files are those of the start when the output is written
  have hsaved : Ends (saveOutput output (Utf8.encode text)) after
      (fun _ last => Saved output (Utf8.encode text) world.tree last.tree)
      fun fault last => LeftBehind output world.tree fault last.tree :=
    (saveOutput_leaves (h.grounded.of_same hafter) (Utf8.encode text)).imp (fun _ _ hlast => hlast.of_same hafter)
      fun _ _ hlast => ⟨hlast.grown.of_same hafter, fun hcases => hafter.trans (hlast.same hcases)⟩
  refine hsaved.bind fun _ last hlast => ?_
  have hsay : ∀ line, Ends (say line) last (fun _ printed => Saved output (Utf8.encode text) world.tree printed.tree)
      fun fault printed => LeftBehind output world.tree fault printed.tree := fun line => ends_modify hlast
  split
  · exact (hsay _).bind fun _ _ hprinted => ends_pure hprinted
  · exact ends_pure hlast

/-! A run over an empty directory `h`, with a parser that finds nothing. -/

/-- The directory `h`, in the working directory. -/
def plainTree : FileTree :=
  { entries := [(["w"], .directory), (["w", "h"], .directory)], here := ["w"], scratch := ["t"] }

def plainWorld : World := ⟨plainTree, [], [], none⟩

def emptyParser : Parser := ⟨.parsed ⟨[], #[], #[], []⟩, "/t", "/s"⟩

/-- The default settings with some empty headers, without messages. -/
def quietSettings (emptyHeaders : List Text) : Settings :=
  { Settings.default with emptyHeaders := Value.ofTexts emptyHeaders, verbose := false }

theorem plainTree_confined : Confined (quietSettings ["nrf.h"]) plainTree := by
  refine ⟨proper_of_entries (by decide), grounded_of_entries (by decide), by decide, rfl, rfl, fun text htext => ?_⟩
  cases List.mem_singleton.1 htext
  decide

/-- The output is saved in a new directory. -/
theorem plainWorld_saves : Confined (quietSettings ["nrf.h"]) plainWorld.tree ∧ ∃ made after,
    generate (quietSettings ["nrf.h"]) emptyParser (.ofText "h") (.ofText "n/o.h") false plainWorld = (.ok made, after) ∧
      Saved (.ofText "n/o.h") (Utf8.encode made.text) plainTree after.tree := by
  have hok : (generate (quietSettings ["nrf.h"]) emptyParser (.ofText "h") (.ofText "n/o.h") false
      plainWorld).1.toOption.isSome = true := by cbv
  have hleaves : Ends (generate (quietSettings ["nrf.h"]) emptyParser (.ofText "h") (.ofText "n/o.h") false) plainWorld
      (fun made after => Saved (.ofText "n/o.h") (Utf8.encode made.text) plainTree after.tree)
      fun fault after => LeftBehind (.ofText "n/o.h") plainTree fault after.tree := generate_leaves plainTree_confined
  refine ⟨plainTree_confined, ?_⟩
  rcases hrun : generate (quietSettings ["nrf.h"]) emptyParser (.ofText "h") (.ofText "n/o.h") false plainWorld
    with ⟨fault | made, after⟩
  · rw [hrun] at hok
    cases hok
  · exact ⟨made, after, rfl, hleaves.answer hrun⟩

/-- The fault of a run, and what it leaves under a name in the working directory. -/
def remains (name : Text) (run : Except Fault Generated × World) : Option Fault × Option FileEntry :=
  (fault? run.1, run.2.tree.entry? ["w", name])

theorem exists_of_remains {run : Except Fault Generated × World} {fault : Fault} {entry : FileEntry}
    (h : remains name run = (some fault, some entry)) :
    ∃ after, run = (.error fault, after) ∧ after.tree.entry? ["w", name] = some entry := by
  obtain ⟨hfault, hentry⟩ := Prod.ext_iff.1 h
  exact ⟨run.2, Prod.ext (fault?_eq_some.1 hfault) rfl, hentry⟩

/-- The path of the output steps out of a new directory again, and leads to a directory. -/
theorem steppingPath_remains :
    remains "n" (generate (quietSettings []) emptyParser (.ofText "h") (.ofText "n/../h") false plainWorld) =
      (some (.report ⟨.unwritable .isDirectory, none, some "n/../h"⟩), some .directory) := by
  cbv

/-- An empty header is no file of the copy, and stands where a directory above the output would. -/
theorem outerHeader_remains :
    remains "n" (generate (quietSettings ["/w/n"]) emptyParser (.ofText "h") (.ofText "n/o.h") false plainWorld) =
      (some (.report ⟨.unwritable .alreadyExists, none, some "n/o.h"⟩), some (.file [])) := by
  cbv

/-- **Failed runs that leave something**: a new directory, and an empty header. -/
theorem failedRuns_leave : plainTree.entry? ["w", "n"] = none ∧
    (∃ fault after, generate (quietSettings []) emptyParser (.ofText "h") (.ofText "n/../h") false plainWorld =
      (.error fault, after) ∧ after.tree.entry? ["w", "n"] = some .directory) ∧
    ∃ fault after, generate (quietSettings ["/w/n"]) emptyParser (.ofText "h") (.ofText "n/o.h") false plainWorld =
      (.error fault, after) ∧ after.tree.entry? ["w", "n"] = some (.file []) :=
  ⟨rfl, ⟨_, exists_of_remains steppingPath_remains⟩, _, exists_of_remains outerHeader_remains⟩

end TrapStub
