import Macc.Proofs.Evaluation
import Macc.World

/-!
# What work leaves behind

Work in a world reports, may fail and changes the world. The reports follow from
what it does and never lead it, so the proofs about worlds look at the other two
only: the outcome and the world that is left. The equations below say what each
building block of work comes to; the chain of two is the one that carries the
world on, also past a failure.
-/

namespace Macc.Work

variable {α β : Type}

/-- The outcome of work and the world that it leaves. -/
def result (m : Work α) (w : World) : Except Failure α × World :=
  (m.perform w).value

@[simp] theorem result_pure (a : α) (w : World) : (pure a : Work α).result w = (.ok a, w) := rfl

@[simp] theorem result_ofExcept (r : Except Failure α) (w : World) :
    (ofExcept r).result w = (r, w) := rfl

@[simp] theorem result_ofAttempt (a : Attempt α) (w : World) :
    (ofAttempt a).result w = (a.outcome, w) := rfl

@[simp] theorem result_tell (n : Notice) (w : World) : (tell n).result w = (.ok (), w) := rfl

@[simp] theorem result_world (w : World) : world.result w = (.ok w, w) := rfl

@[simp] theorem result_change (f : World → World) (w : World) :
    (change f).result w = (.ok (), f w) := rfl

/-- The second part of a chain starts in the world that the first one leaves. -/
theorem result_bind (m : Work α) (f : α → Work β) (w : World) :
    (m >>= f).result w =
      match m.result w with
      | (.ok a, w') => (f a).result w'
      | (.error failure, w') => (.error failure, w') := by
  change ((StateT.bind m.run (ExceptT.bindCont f)) w).value = _
  change ((ExceptT.bindCont f (m.run w).value.1) (m.run w).value.2).value = _
  change _ = match (m.run w).value with | (.ok a, w') => _ | (.error failure, w') => _
  rcases (m.run w).value with ⟨outcome, w'⟩
  cases outcome <;> rfl

theorem result_bind_ok {m : Work α} {f : α → Work β} {w w' : World} {a : α}
    (h : m.result w = (.ok a, w')) : (m >>= f).result w = (f a).result w' := by
  rw [result_bind, h]

theorem result_bind_error {m : Work α} {f : α → Work β} {w w' : World} {failure : Failure}
    (h : m.result w = (.error failure, w')) : (m >>= f).result w = (.error failure, w') := by
  rw [result_bind, h]

/-- What ends in a failure leaves the world that the work before it left. -/
theorem result_bind_throw (work : Work Unit) (failure : Failure) (w : World) :
    ∃ cause, (work >>= fun _ => (throw failure : Work α)).result w =
      (.error cause, (work.result w).2) := by
  rw [result_bind]
  rcases work.result w with ⟨cause | _, left⟩
  · exact ⟨cause, rfl⟩
  · exact ⟨failure, rfl⟩

theorem result_discard (m : Work α) (w : World) :
    (m >>= fun _ => (pure () : Work Unit)).result w =
      ((m.result w).1.map fun _ => (), (m.result w).2) := by
  rw [result_bind]
  rcases m.result w with ⟨_ | _, w'⟩ <;> rfl

/-- Work whose failure is kept as a value. -/
theorem result_attempted (m : Work α) (w : World) :
    result (ExceptT.mk (Except.ok <$> m.run)) w = (.ok (m.result w).1, (m.result w).2) := rfl

/-- What is done in any case starts where the body ended, and only its own failure hides the
outcome of the body. -/
theorem result_always (body : Work α) (after : Work Unit) (w : World) :
    (always body after).result w =
      match after.result (body.result w).2 with
      | (.ok (), w') => ((body.result w).1, w')
      | (.error failure, w') => (.error failure, w') := by
  simp only [result, perform, always, ExceptT.run_mk, StateT.run_bind, Logged.value_bind]
  rcases ((after.run).run (((body.run).run w).value).2).value with ⟨outcome, w'⟩
  cases outcome <;> rfl

theorem world_always (body : Work α) (after : Work Unit) (w : World) :
    ((always body after).result w).2 = (after.result (body.result w).2).2 := by
  rw [result_always]
  rcases after.result (body.result w).2 with ⟨_ | _, w'⟩ <;> rfl

end Macc.Work

namespace Macc

/-- A world of some files, in which nothing is set, selected or resolved yet. -/
def World.ofFiles (files : FileTree) : World where
  files := files
  environment := []
  defaultConfig := ⟨.single, ["run.toml"]⟩
  scope := none
  overrides := none
  sources := []
  constants := Constants.default

end Macc
