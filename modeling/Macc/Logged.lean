import Macc.Notice

/-!
# Computations that report

A computation here has a value and the reports made on the way to it, in order.
A failure does not erase the reports made before it, so failing sits inside
reporting: an `Attempt` always has its log, and has either a value or a failure.
-/

namespace Macc

/-- A value with the reports made while computing it. -/
structure Logged (α : Type) where
  value : α
  log : List Notice

namespace Logged

variable {α β : Type}

instance : Monad Logged where
  pure a := ⟨a, []⟩
  bind m f := ⟨(f m.value).value, m.log ++ (f m.value).log⟩

@[simp] theorem value_pure (a : α) : (pure a : Logged α).value = a := rfl
@[simp] theorem log_pure (a : α) : (pure a : Logged α).log = [] := rfl
@[simp] theorem value_bind (m : Logged α) (f : α → Logged β) :
    (m >>= f).value = (f m.value).value := rfl
@[simp] theorem log_bind (m : Logged α) (f : α → Logged β) :
    (m >>= f).log = m.log ++ (f m.value).log := rfl

instance : LawfulMonad Logged :=
  LawfulMonad.mk' Logged (fun x => by cases x; simp [Functor.map]) (fun _ _ => rfl)
    (fun _ _ _ => by simp [bind, List.append_assoc])

end Logged

def note (n : Notice) : Logged Unit :=
  ⟨(), [n]⟩

/-- A computation that reports and may fail; the reports outlive the failure. -/
abbrev Attempt (α : Type) := ExceptT Failure Logged α

namespace Attempt

variable {α β : Type}

/-- The value or the failure of an attempt. -/
def outcome (a : Attempt α) : Except Failure α :=
  a.run.value

def log (a : Attempt α) : List Notice :=
  a.run.log

/-- An attempt that is settled and reports nothing. -/
def ofExcept (r : Except Failure α) : Attempt α :=
  ExceptT.mk (pure r)

/-- An attempt that cannot fail. -/
def ofLogged (m : Logged α) : Attempt α :=
  ExceptT.mk (Except.ok <$> m)

@[simp] theorem outcome_pure (a : α) : (pure a : Attempt α).outcome = .ok a := rfl
@[simp] theorem outcome_ofExcept (r : Except Failure α) : (ofExcept r).outcome = r := rfl
@[simp] theorem outcome_ofLogged (m : Logged α) : (ofLogged m).outcome = .ok m.value := rfl
@[simp] theorem log_pure (a : α) : (pure a : Attempt α).log = [] := rfl
@[simp] theorem log_ofExcept (r : Except Failure α) : (ofExcept r).log = [] := rfl

theorem outcome_bind (a : Attempt α) (f : α → Attempt β) :
    (a >>= f).outcome = a.outcome >>= fun x => (f x).outcome := by
  cases h : a.outcome <;>
    simp_all [outcome, bind, ExceptT.bind, ExceptT.bindCont, ExceptT.run, ExceptT.mk, Except.bind]

end Attempt

instance : MonadLift (Except Failure) (ExceptT Failure Logged) where
  monadLift := Attempt.ofExcept

def report (n : Notice) : Attempt Unit :=
  Attempt.ofLogged (note n)

end Macc
