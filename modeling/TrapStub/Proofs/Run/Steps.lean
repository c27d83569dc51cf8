import Mathlib.Order.Defs.Unbundled
import TrapStub.Proofs.Outcome

/-!
# Steps of a run

What every step of a run does to the world, the whole run does.

* `Run.Keeps`: the step changes the world along a relation, whether it ends well or not.
* `World.SameTree`, `World.Continues`: no file changes; the errors only grow, line by line.
* `generate_continues`: **a run takes no line back** that was printed as an error.
-/

namespace TrapStub

variable {α β : Type} {R : World → World → Prop} {settings : Settings} {parser : Parser}
  {directory output : Path} {world middle after : World} {lines more : List Text}

namespace Run

/-- The world after the step is related to that before it, whether the step ends well or not. -/
def Keeps (R : World → World → Prop) (step : Run α) : Prop :=
  ∀ world, Ends step world (fun _ after => R world after) fun _ after => R world after

theorem keeps_modify {f : World → World} (h : ∀ world, R world (f world)) : Keeps R (modify f : Run Unit) :=
  fun world => ends_modify (h world)

/-- A step on files changes no more than the files. -/
theorem keeps_ofAction (h : ∀ world tree, R world { world with tree }) (step : Action α) : Keeps R (ofAction step) :=
  fun world => .ofAction ((ends_anyhow step world.tree).imp (fun _ _ _ => h _ _) fun _ _ _ => h _ _)

theorem keeps_get_bind {rest : World → Run β} (h : ∀ world, Keeps R (rest world)) : Keeps R (get >>= rest) :=
  fun world => Ends.get_bind (h world world)

section Preorder

variable [IsPreorder World R]

theorem keeps_pure (a : α) : Keeps R (pure a) := fun world => ends_pure (refl_of R world)

theorem keeps_throw (fault : Fault) : Keeps R (throw fault : Run α) := fun world => ends_throw (refl_of R world)

theorem keeps_ofExcept (answer : Except Fault α) : Keeps R (ofExcept answer) := by
  cases answer with
  | ok a => exact keeps_pure a
  | error fault => exact keeps_throw fault

/-- A step goes on from where the steps before it ended. -/
theorem Keeps.onward {step : Run α} (h : Keeps R step) (hR : R world after) :
    Ends step after (fun _ last => R world last) fun _ last => R world last :=
  (h after).imp (fun _ _ hlast => trans_of R hR hlast) fun _ _ hlast => trans_of R hR hlast

theorem Keeps.bind {step : Run α} {rest : α → Run β} (hstep : Keeps R step) (hrest : ∀ a, Keeps R (rest a)) :
    Keeps R (step >>= rest) := fun world =>
  (hstep world).bind fun a _ hafter => (hrest a).onward hafter

theorem keeps_forM {f : α → Run Unit} (h : ∀ a, Keeps R (f a)) (l : List α) : Keeps R (l.forM f) := fun world =>
  Ends.forM (I := R world) l (refl_of R world) fun a _ _ hafter => (h a).onward hafter

/-- Something may be printed first. -/
theorem keeps_printed {b : Bool} {step : Run Unit} {rest : Unit → Run β} (hstep : Keeps R step)
    (hrest : Keeps R (rest ())) : Keeps R (if b = true then step >>= rest else rest ()) := by
  split
  · exact hstep.bind fun _ => hrest
  · exact hrest

theorem keeps_parse (h : ∀ arguments, Keeps R (noteArguments arguments)) (staged : Staged) :
    Keeps R (parse settings parser staged) := by
  unfold parse
  cases parser.answer with
  | unavailable reason => exact keeps_throw _
  | failed reason => exact (h _).bind fun _ => keeps_throw _
  | parsed unit => exact (h _).bind fun _ => keeps_pure _

end Preorder

end Run

open Run

/-! ## Steps that change no file -/

/-- The files are the same. -/
def World.SameTree (world after : World) : Prop := after.tree = world.tree

instance : IsPreorder World World.SameTree where
  refl _ := rfl
  trans _ _ _ h h' := Eq.trans h' h

theorem say_sameTree (line : Text) : Keeps World.SameTree (say line) := keeps_modify fun _ => rfl

theorem warn_sameTree (line : Text) : Keeps World.SameTree (warn line) := keeps_modify fun _ => rfl

/-- What holds of the files holds of them after a step that changes none. -/
theorem Run.Keeps.ends {step : Run α} (h : Keeps World.SameTree step) {I : FileTree → Prop} (hI : I world.tree) :
    Ends step world (fun _ after => I after.tree) fun _ after => I after.tree := by
  have htree : ∀ after, world.SameTree after → I after.tree := fun after hafter => by
    unfold World.SameTree at hafter
    rwa [hafter]
  exact (h world).imp (fun _ => htree) fun _ => htree

/-! ## What is printed as errors -/

/-- The lines stand behind what was printed as errors before. -/
def World.Added (world : World) (lines : List Text) (after : World) : Prop :=
  after.errors = world.errors ++ lines.flatMap (· ++ [Glyph.newline])

theorem World.Added.trans (h : world.Added lines middle) (h' : middle.Added more after) :
    world.Added (lines ++ more) after := by
  unfold World.Added at h h' ⊢
  rw [h', h, List.append_assoc, List.flatMap_append]

/-- Nothing that was printed as an error is taken back: there are only further lines. -/
def World.Continues (world after : World) : Prop := ∃ lines, world.Added lines after

theorem World.continues_of_eq (h : after.errors = world.errors) : world.Continues after :=
  ⟨[], by unfold World.Added; rw [h]; exact (List.append_nil _).symm⟩

instance : IsPreorder World World.Continues where
  refl _ := World.continues_of_eq rfl
  trans _ _ _ := fun ⟨_, h⟩ ⟨_, h'⟩ => ⟨_, h.trans h'⟩

theorem warn_adds (line : Text) : Ends (warn line) world (fun _ after => world.Added [line] after) fun _ _ => False := by
  refine ends_modify ?_
  unfold World.Added
  rw [List.flatMap_singleton, List.append_assoc]

/-- **A run takes no line back** that was printed as an error. -/
theorem generate_continues (dumpPlan : Bool) :
    Keeps World.Continues (generate settings parser directory output dumpPlan) := by
  have hsay : ∀ line, Keeps World.Continues (say line) := fun _ => keeps_modify fun _ => World.continues_of_eq rfl
  have hwarn : ∀ line, Keeps World.Continues (warn line) := fun line world =>
    (warn_adds line).imp (fun _ _ h => ⟨_, h⟩) fun _ _ => False.elim
  have hfiles : ∀ {α : Type} (step : Action α), Keeps World.Continues (ofAction step) :=
    keeps_ofAction fun _ _ => World.continues_of_eq rfl
  have hparse : ∀ staged, Keeps World.Continues (parse settings parser staged) :=
    keeps_parse fun _ => keeps_modify fun _ => World.continues_of_eq rfl
  have hstaged : Keeps World.Continues (readStaged settings parser directory) := by
    unfold readStaged
    refine (hfiles _).bind fun staged => keeps_printed (hsay _) (keeps_printed (hwarn _) ?_)
    exact (hparse staged).bind fun unit => (keeps_ofExcept _).bind fun _ =>
      (keeps_ofExcept _).bind fun _ => keeps_pure _
  have hread : Keeps World.Continues (readHeaders settings parser directory) := by
    have hremoved : Keeps World.Continues (Run.withScratch (readStaged settings parser directory)) := fun world =>
      .withScratch ((hstaged world).imp (fun _ _ => id) fun _ _ => id)
    unfold readHeaders
    exact hremoved.bind fun _ => keeps_printed (hsay _) (keeps_pure _)
  unfold generate
  refine hread.bind fun reading => (keeps_ofExcept _).bind fun plans => ?_
  refine keeps_printed (keeps_forM (fun _ => hsay _) plans) (keeps_get_bind fun world => ?_)
  refine (keeps_ofExcept _).bind fun name => (keeps_ofExcept _).bind fun text => (hfiles _).bind fun _ => ?_
  exact keeps_printed (hsay _) (keeps_pure _)

end TrapStub
