import TrapStub.Proofs.Answer
import TrapStub.Run

/-!
# How a step on a state ends

A step on files, or of a run, changes a state and then answers or fails; a failure keeps what was changed
before it.

* `Ends`: what holds of the answer, and what of a fault, each with the state it comes with.
* `Ends.bind`, `Ends.tryCatch`, `Ends.mapM`, `Ends.forM`: the end of a step from those of its parts.
* `Ends.ofFile`, `Ends.ofAction`, `Ends.withScratch`: steps on files as steps that end the run.
-/

namespace TrapStub

variable {ε σ α β : Type} {s t : σ} {Q : β → σ → Prop} {R : α → σ → Prop} {F G : ε → σ → Prop}

/-- The step answers as said, or fails as said. -/
def Ends (step : ExceptT ε (StateM σ) α) (s : σ) (R : α → σ → Prop) (F : ε → σ → Prop) : Prop :=
  match step s with
  | (.ok a, t) => R a t
  | (.error fault, t) => F fault t

theorem ends_of_ok {step : ExceptT ε (StateM σ) α} {a : α} (h : step s = (.ok a, t)) (ha : R a t) :
    Ends step s R F := by
  unfold Ends
  rw [h]
  exact ha

theorem ends_of_error {step : ExceptT ε (StateM σ) α} {fault : ε} (h : step s = (.error fault, t))
    (hf : F fault t) : Ends step s R F := by
  unfold Ends
  rw [h]
  exact hf

theorem Ends.answer {step : ExceptT ε (StateM σ) α} {a : α} (h : Ends step s R F) (ha : step s = (.ok a, t)) :
    R a t := by
  unfold Ends at h
  rw [ha] at h
  exact h

theorem Ends.fault {step : ExceptT ε (StateM σ) α} {fault : ε} (h : Ends step s R F)
    (hf : step s = (.error fault, t)) : F fault t := by
  unfold Ends at h
  rw [hf] at h
  exact h

/-- What is known of the run of the step itself may be used. -/
theorem Ends.and_run {step : ExceptT ε (StateM σ) α} (h : Ends step s R F) :
    Ends step s (fun a t => R a t ∧ step s = (.ok a, t)) fun fault t => F fault t ∧ step s = (.error fault, t) := by
  rcases hrun : step s with ⟨a | a, t⟩
  · exact ends_of_error hrun ⟨h.fault hrun, rfl⟩
  · exact ends_of_ok hrun ⟨h.answer hrun, rfl⟩

theorem Ends.and {step : ExceptT ε (StateM σ) α} {R' : α → σ → Prop} (h : Ends step s R F) (h' : Ends step s R' G) :
    Ends step s (fun a t => R a t ∧ R' a t) fun fault t => F fault t ∧ G fault t := by
  rcases hrun : step s with ⟨a | a, t⟩
  · exact ends_of_error hrun ⟨h.fault hrun, h'.fault hrun⟩
  · exact ends_of_ok hrun ⟨h.answer hrun, h'.answer hrun⟩

theorem Ends.imp {step : ExceptT ε (StateM σ) α} {R' : α → σ → Prop} (h : Ends step s R F)
    (hR : ∀ a t, R a t → R' a t)
    (hF : ∀ fault t, F fault t → G fault t) : Ends step s R' G := by
  rcases hrun : step s with ⟨a | a, t⟩
  · exact ends_of_error hrun (hF _ _ (h.fault hrun))
  · exact ends_of_ok hrun (hR _ _ (h.answer hrun))

theorem ends_pure {a : α} (h : R a s) : Ends (pure a : ExceptT ε (StateM σ) α) s R F := h

theorem ends_throw {fault : ε} (h : F fault s) : Ends (throw fault : ExceptT ε (StateM σ) α) s R F := h

theorem ends_modify {R : Unit → σ → Prop} {f : σ → σ} (h : R () (f s)) :
    Ends (modify f : ExceptT ε (StateM σ) Unit) s R F := h

theorem ends_set {R : Unit → σ → Prop} (h : R () t) : Ends (set t : ExceptT ε (StateM σ) PUnit) s R F := h

/-- Two steps in turn: the second starts where the first ends. -/
theorem bind_run (x : ExceptT ε (StateM σ) α) (f : α → ExceptT ε (StateM σ) β) (s : σ) :
    (x >>= f) s = match x s with
      | (.ok a, t) => f a t
      | (.error fault, t) => (.error fault, t) := by
  change (match x s with | (a, t) => (ExceptT.bindCont f a) t) = _
  rcases x s with ⟨a | a, t⟩ <;> rfl

theorem tryCatch_run (x : ExceptT ε (StateM σ) α) (handler : ε → ExceptT ε (StateM σ) α) (s : σ) :
    (MonadExcept.tryCatch x handler : ExceptT ε (StateM σ) α) s = match x s with
      | (.ok a, t) => (.ok a, t)
      | (.error fault, t) => handler fault t := by
  change (ExceptT.tryCatch x handler) s = _
  simp only [ExceptT.tryCatch, ExceptT.mk, bind, StateT.bind]
  rcases x s with ⟨a | a, t⟩ <;> rfl

theorem Ends.bind {x : ExceptT ε (StateM σ) α} {f : α → ExceptT ε (StateM σ) β} (hx : Ends x s R F)
    (hf : ∀ a t, R a t → Ends (f a) t Q F) : Ends (x >>= f) s Q F := by
  unfold Ends at hx ⊢
  rw [bind_run]
  revert hx
  rcases x s with ⟨a | a, t⟩
  · exact id
  · exact hf a t

/-- A step that looks at the state first. -/
theorem Ends.get_bind {f : σ → ExceptT ε (StateM σ) β} (h : Ends (f s) s Q F) : Ends (get >>= f) s Q F := h

theorem Ends.tryCatch {x : ExceptT ε (StateM σ) α} {handler : ε → ExceptT ε (StateM σ) α} (hx : Ends x s R G)
    (hh : ∀ fault t, G fault t → Ends (handler fault) t R F) : Ends (tryCatch x handler) s R F := by
  unfold Ends at hx ⊢
  rw [tryCatch_run]
  revert hx
  rcases x s with ⟨a | a, t⟩
  · exact hh a t
  · exact id

/-- Steps in turn, with what holds after some of them. -/
theorem Ends.mapM {f : α → ExceptT ε (StateM σ) β} {I : List α → σ → Prop} (l : List α) (hs : I [] s)
    (h : ∀ done a rest, l = done ++ a :: rest → ∀ t, I done t → Ends (f a) t (fun _ => I (done ++ [a])) F) :
    Ends (l.mapM f) s (fun _ => I l) F := by
  induction l generalizing s I with
  | nil => exact ends_pure hs
  | cons a l ih =>
    rw [List.mapM_cons]
    refine (h [] a l rfl s hs).bind fun b t ht => ?_
    have hrest := ih (I := fun done => I (a :: done)) ht fun done c rest hl u hu =>
      h (a :: done) c rest (congrArg (a :: ·) hl) u hu
    exact hrest.bind fun _ _ hu => ends_pure hu

theorem Ends.forM {f : α → ExceptT ε (StateM σ) Unit} {I : σ → Prop} (l : List α) (hs : I s)
    (h : ∀ a ∈ l, ∀ t, I t → Ends (f a) t (fun _ => I) F) : Ends (l.forM f) s (fun _ => I) F := by
  induction l generalizing s with
  | nil => exact ends_pure hs
  | cons a l ih =>
    rw [List.forM_eq_forM, List.forM_cons]
    exact (h a List.mem_cons_self s hs).bind fun _ t ht => ih ht fun b hb => h b (List.mem_cons_of_mem a hb)

/-- Steps that answer with what they are for keep a list. -/
theorem Ends.mapM_map {f : α → ExceptT ε (StateM σ) β} {g : β → α}
    (h : ∀ a s, Ends (f a) s (fun b _ => g b = a) F) (l : List α) (s : σ) :
    Ends (l.mapM f) s (fun made _ => made.map g = l) F := by
  induction l generalizing s with
  | nil => exact ends_pure rfl
  | cons a l ih =>
    rw [List.mapM_cons]
    refine (h a s).bind fun b t hb => (ih t).bind fun made u hmade => ends_pure ?_
    rw [List.map_cons, hb, hmade]

theorem ends_anyhow (step : ExceptT ε (StateM σ) α) (s : σ) :
    Ends step s (fun _ _ => True) fun _ _ => True := by
  unfold Ends
  split <;> trivial

/-! ## Steps on files as other steps -/

variable {tree : FileTree} {world : World}

theorem Ends.ofExcept_bind {x : Except Fault α} {f : α → Action β} {Q : β → FileTree → Prop}
    {F : Fault → FileTree → Prop}
    (hf : ∀ a, x = .ok a → Ends (f a) tree Q F) (hF : ∀ fault, x = .error fault → F fault tree) :
    Ends (Action.ofExcept x >>= f) tree Q F := by
  cases x with
  | ok a => exact hf a rfl
  | error fault => exact hF fault rfl

theorem Ends.ofFile {step : FileAction α} {fault : FileProblem → Fault} {R : α → FileTree → Prop}
    {G : FileProblem → FileTree → Prop} {F : Fault → FileTree → Prop} (h : Ends step tree R G)
    (hF : ∀ problem t, G problem t → F (fault problem) t) : Ends (Action.ofFile fault step) tree R F := by
  unfold Ends at h
  unfold Ends Action.ofFile
  revert h
  rcases step tree with ⟨a | a, t⟩
  · exact hF a t
  · exact id

theorem Ends.runOfExcept_bind {x : Except Fault α} {f : α → Run β} {Q : β → World → Prop}
    {F : Fault → World → Prop}
    (hf : ∀ a, x = .ok a → Ends (f a) world Q F) (hF : ∀ fault, x = .error fault → F fault world) :
    Ends (Run.ofExcept x >>= f) world Q F := by
  cases x with
  | ok a => exact hf a rfl
  | error fault => exact hF fault rfl

theorem Ends.ofAction {step : Action α} {R : α → World → Prop} {F : Fault → World → Prop}
    (h : Ends step world.tree (fun a tree => R a { world with tree }) fun fault tree => F fault { world with tree }) :
    Ends (Run.ofAction step) world R F := by
  unfold Ends at h
  unfold Ends Run.ofAction
  revert h
  rcases step world.tree with ⟨a | a, t⟩ <;> exact id

/-- The directory for temporary files is removed at the end. -/
theorem Ends.withScratch {step : Run α} {R : α → World → Prop} {F : Fault → World → Prop}
    (h : Ends step world
      (fun a changed => R a { changed with tree := changed.tree.removeAll world.tree.scratch })
      fun fault changed => F fault { changed with tree := changed.tree.removeAll world.tree.scratch }) :
    Ends (Run.withScratch step) world R F := by
  unfold Ends at h
  unfold Ends Run.withScratch
  revert h
  rcases step world with ⟨a | a, changed⟩ <;> exact id

end TrapStub
