import Mathlib.Data.List.Forall2
import Macc.Logged

/-!
# Chains of attempts

An attempt is a chain of steps, each of which may report, fail, or do neither.
Two views of a chain are enough for everything below. Its outcome, which is the
chain of the outcomes and knows nothing of reports. And the chain itself, when
no step reports and none fails: then it is the pure computation of its value,
and an equation between attempts says both that it succeeds and that it is
silent.
-/

namespace Macc

section

variable {ε α β : Type}

theorem ok_bind (a : α) (f : α → Except ε β) : (Except.ok a >>= f) = f a := rfl

theorem error_bind (failure : ε) (f : α → Except ε β) :
    (Except.error failure >>= f) = .error failure := rfl

theorem bind_eq_ok_iff {x : Except ε α} {f : α → Except ε β} {b : β} :
    (x >>= f) = .ok b ↔ ∃ a, x = .ok a ∧ f a = .ok b := by
  cases x with
  | error failure =>
      constructor
      · intro h
        cases h
      · rintro ⟨a, h, -⟩
        cases h
  | ok a =>
      rw [ok_bind]
      constructor
      · intro h
        exact ⟨a, rfl, h⟩
      · rintro ⟨a', h, hf⟩
        cases h
        exact hf

theorem bind_pure_eq_error_iff {x : Except ε α} {f : α → β} {failure : ε} :
    (x >>= fun a => pure (f a)) = .error failure ↔ x = .error failure := by
  cases x with
  | error other => exact ⟨fun h => by cases h; rfl, fun h => by cases h; rfl⟩
  | ok a => exact iff_of_false nofun nofun

theorem map_eq_ok_iff {x : Except ε α} {f : α → β} {b : β} :
    x.map f = .ok b ↔ ∃ a, x = .ok a ∧ f a = b := by
  cases x with
  | error failure => simp [Except.map]
  | ok a => simp [Except.map]

theorem map_eq_error_iff {x : Except ε α} {f : α → β} {failure : ε} :
    x.map f = .error failure ↔ x = .error failure := by
  cases x with
  | error other => simp [Except.map]
  | ok a => simp [Except.map]

theorem toOption_eq_some_iff {x : Except ε α} {a : α} :
    x.toOption = some a ↔ x = .ok a := by
  cases x with
  | error failure =>
      constructor
      · intro h
        cases h
      · intro h
        cases h
  | ok b =>
      constructor
      · intro h
        cases h
        rfl
      · intro h
        cases h
        rfl

theorem exists_ok_of_isOk {x : Except ε α} (h : x.isOk = true) : ∃ a, x = .ok a := by
  cases x with
  | error failure => cases h
  | ok a => exact ⟨a, rfl⟩

theorem exists_error_of_not_isOk {x : Except ε α} (h : x.isOk = false) :
    ∃ failure, x = .error failure := by
  cases x with
  | error failure => exact ⟨failure, rfl⟩
  | ok a => cases h

theorem mapM_eq_ok {f : α → Except ε β} {g : α → β} {items : List α}
    (hf : ∀ a ∈ items, f a = .ok (g a)) : items.mapM f = .ok (items.map g) := by
  induction items with
  | nil => rfl
  | cons a rest ih =>
      rw [List.mapM_cons, hf a List.mem_cons_self, ok_bind,
        ih fun a ha => hf a (List.mem_cons_of_mem _ ha)]
      rfl

theorem forall₂_of_mapM {f : α → Except ε β} {items : List α} {values : List β}
    (h : items.mapM f = .ok values) : List.Forall₂ (fun a b => f a = .ok b) items values := by
  induction items generalizing values with
  | nil =>
      cases h
      exact .nil
  | cons a rest ih =>
      rw [List.mapM_cons] at h
      obtain ⟨b, hb, h⟩ := bind_eq_ok_iff.1 h
      obtain ⟨more, hmore, h⟩ := bind_eq_ok_iff.1 h
      cases h
      exact .cons hb (ih hmore)

end

namespace Attempt

variable {α β : Type}

/-- The reports of a chain are those of its parts, in order. -/
theorem log_bind {a : Attempt α} {x : α} (h : a.outcome = .ok x) (f : α → Attempt β) :
    (a >>= f).log = a.log ++ (f x).log := by
  have hrun : a.run.value = .ok x := h
  change a.run.log ++ (ExceptT.bindCont f a.run.value).log = _
  rw [hrun]
  rfl

/-- A chain that fails at its first part reports nothing after it. -/
theorem log_bind_error {a : Attempt α} {failure : Failure} (h : a.outcome = .error failure)
    (f : α → Attempt β) : (a >>= f).log = a.log := by
  have hrun : a.run.value = .error failure := h
  change a.run.log ++ (ExceptT.bindCont f a.run.value).log = _
  rw [hrun]
  exact List.append_nil _

theorem ofExcept_ok (a : α) : ofExcept (.ok a) = pure a := rfl

theorem ofLogged_pure (a : α) : ofLogged (pure a) = pure a := rfl

theorem log_ofLogged (m : Logged α) : (ofLogged m).log = m.log := List.append_nil m.log

/-- A chain that succeeds has succeeded at every step. -/
theorem outcome_bind_eq_ok_iff {a : Attempt α} {f : α → Attempt β} {b : β} :
    (a >>= f).outcome = .ok b ↔ ∃ x, a.outcome = .ok x ∧ (f x).outcome = .ok b := by
  rw [outcome_bind]
  exact bind_eq_ok_iff

theorem outcome_mapM (f : α → Attempt β) (items : List α) :
    (items.mapM f).outcome = items.mapM fun a => (f a).outcome := by
  induction items with
  | nil => rfl
  | cons a rest ih =>
      rw [List.mapM_cons, List.mapM_cons, outcome_bind]
      congr 1
      funext b
      rw [outcome_bind, ih]
      rfl

theorem outcome_forM_ofLogged (f : α → Logged PUnit) (items : List α) :
    (forIn items PUnit.unit fun a _ => do
      ofLogged (f a)
      pure (ForInStep.yield PUnit.unit) : Attempt PUnit).outcome = .ok PUnit.unit := by
  induction items with
  | nil => rfl
  | cons a rest ih =>
      rw [List.forIn_cons, outcome_bind]
      exact ih

/-- What holds at the start and is kept by every step that succeeds holds at the end. -/
theorem foldlM_invariant {P : β → Prop} {f : β → α → Attempt β}
    (hstep : ∀ b a b', P b → (f b a).outcome = .ok b' → P b') {items : List α} {b b' : β}
    (hb : P b) (h : (items.foldlM f b).outcome = .ok b') : P b' := by
  induction items generalizing b with
  | nil =>
      cases h
      exact hb
  | cons a rest ih =>
      rw [List.foldlM_cons] at h
      obtain ⟨c, hc, hrest⟩ := outcome_bind_eq_ok_iff.1 h
      exact ih (hstep b a c hb hc) hrest

section

variable {f : β → α → Attempt β} {g : β → α → β} {items : List α}

theorem outcome_foldlM (hstep : ∀ b, ∀ a ∈ items, (f b a).outcome = .ok (g b a)) (b : β) :
    (items.foldlM f b).outcome = .ok (items.foldl g b) := by
  induction items generalizing b with
  | nil => rfl
  | cons a rest ih =>
      rw [List.foldlM_cons, outcome_bind, hstep b a List.mem_cons_self, ok_bind, List.foldl_cons]
      exact ih (fun b a ha => hstep b a (List.mem_cons_of_mem _ ha)) (g b a)

/-- What a step of such a loop reports, wherever the loop stands then, the loop reports. -/
theorem mem_log_foldlM {P : β → Prop} (hP : ∀ b a, P b → P (g b a))
    (hstep : ∀ b, ∀ a ∈ items, (f b a).outcome = .ok (g b a)) {b : β} (hb : P b) {a : α}
    (ha : a ∈ items) : ∃ c, P c ∧ ∀ n ∈ (f c a).log, n ∈ (items.foldlM f b).log := by
  induction items generalizing b with
  | nil => cases ha
  | cons first rest ih =>
      rw [List.foldlM_cons, log_bind (hstep b first List.mem_cons_self)]
      rcases List.mem_cons.1 ha with rfl | ha
      · exact ⟨b, hb, fun n hn => List.mem_append_left _ hn⟩
      · obtain ⟨c, hc, hlog⟩ := ih (fun b a ha => hstep b a (List.mem_cons_of_mem _ ha))
          (hP b first hb) ha
        exact ⟨c, hc, fun n hn => List.mem_append_right _ (hlog n hn)⟩

/-- A loop that comes to an end has made every step from somewhere. -/
theorem exists_step_of_foldlM {b c : β} (h : (items.foldlM f b).outcome = .ok c) {a : α}
    (ha : a ∈ items) : ∃ d e, (f d a).outcome = .ok e := by
  induction items generalizing b with
  | nil => cases ha
  | cons first rest ih =>
      rw [List.foldlM_cons] at h
      obtain ⟨d, hd, hrest⟩ := outcome_bind_eq_ok_iff.1 h
      rcases List.mem_cons.1 ha with rfl | ha
      · exact ⟨b, d, hd⟩
      · exact ih hrest ha

end

end Attempt

end Macc
