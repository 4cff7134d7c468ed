import Macc.Constants.Resolution
import Macc.Proofs.Work

/-!
# What a resolution comes to

Resolving the constants reads a table of overrides at most once, remembers it,
and notes the source of each constant as it goes. What comes out does not show
any of this: it is a function of the environment and of the table in force. The
function is `Resolution.constants` below, with neither a memory nor a world in
it.

The invariant is that a remembered table is the table in force. A resolution
establishes it by forgetting first, and looking a constant up keeps it.
-/

namespace Macc

/-- The table of overrides that is in force, or why there is none. -/
def World.table (w : World) : Except Failure (List (String × Value)) :=
  w.activeConfig >>= fun path => (readOverrides w.files path).outcome

/-- A table that is remembered, if there is one, is the one in force. -/
def World.Remembers (w : World) (overrides : Option (List (String × Value))) : Prop :=
  ∀ table, overrides = some table → w.table = .ok table

namespace Resolution

variable {β : Type}

/-- The override of a constant: its variable, else its entry in the table. The table is looked at
only when there is no variable. -/
def override (environment : Entries String String)
    (table : Except Failure (List (String × Value))) (key : String) :
    Except Failure (Option (Value × Source)) :=
  match Entries.get? environment (World.variableOf key) with
  | some text => .ok (some (.text text, .environment))
  | none => table >>= fun entries =>
    match Entries.get? entries key with
    | none | some .null => .ok none
    | some v => .ok (some (v, .runConfig))

def constant (environment : Entries String String)
    (table : Except Failure (List (String × Value))) (name : String) (default : β)
    (convert : Value → Except Failure β) : Except Failure (β × Source) :=
  override environment table (Text.upper name) >>= fun found =>
    match found with
    | none => .ok (default, .default)
    | some (raw, source) =>
      match convert raw with
      | .ok value => .ok (value, source)
      | .error cause => if cause.isBadValue then .ok (default, .default) else .error cause

def constants (environment : Entries String String)
    (table : Except Failure (List (String × Value))) :
    Except Failure (Constants Float × Entries String Source) := do
  let default := Constants.default
  let market ← constant environment table "CARBON_MARKET" default.carbonMarket Value.toText
  let factor ← constant environment table "NORM_FACTOR" default.normFactor Value.toReal
  let base ← constant environment table "FUEL_SHIFT_BASE_PERIOD" default.fuelShiftBasePeriod
    Value.toInteger
  let start ← constant environment table "TECH_CHANGE_START_PERIOD" default.techChangeStartPeriod
    Value.toInteger
  return (⟨market.1, factor.1, base.1, start.1⟩,
    Entries.ofAssignments [(Text.upper "CARBON_MARKET", market.2),
      (Text.upper "NORM_FACTOR", factor.2), (Text.upper "FUEL_SHIFT_BASE_PERIOD", base.2),
      (Text.upper "TECH_CHANGE_START_PERIOD", start.2)])

end Resolution

/-! ## Looking one constant up -/

theorem result_currentOverrides {w : World} (hw : w.Remembers w.overrides) :
    ∃ o, w.Remembers o ∧
      currentOverrides.result w = (w.table, { w with overrides := o }) := by
  rw [currentOverrides, Work.result_bind_ok (Work.result_world w)]
  cases ho : w.overrides with
  | some known =>
      refine ⟨w.overrides, hw, ?_⟩
      rw [hw known ho]
      rfl
  | none =>
      cases hp : w.activeConfig with
      | error failure =>
          refine ⟨w.overrides, hw, ?_⟩
          rw [World.table, hp]
          rfl
      | ok path =>
          have htable : w.table = (readOverrides w.files path).outcome := by
            rw [World.table, hp, ok_bind]
          cases hr : (readOverrides w.files path).outcome with
          | error failure =>
              refine ⟨w.overrides, hw, ?_⟩
              simp only [htable, hr, Work.result_bind, Work.result_ofExcept, Work.result_ofAttempt]
          | ok table =>
              refine ⟨some table, ?_, ?_⟩
              · intro t ht
                cases ht
                exact htable.trans hr
              · simp only [htable, hr, Work.result_bind, Work.result_ofExcept,
                  Work.result_ofAttempt, Work.result_change, Work.result_pure]

theorem result_findOverride {w : World} (hw : w.Remembers w.overrides) (key : String) :
    ∃ o, w.Remembers o ∧
      (findOverride key).result w =
        (Resolution.override w.environment w.table key, { w with overrides := o }) := by
  rw [findOverride, Work.result_bind_ok (Work.result_world w), Resolution.override]
  cases Entries.get? w.environment (World.variableOf key) with
  | some text => exact ⟨w.overrides, hw, rfl⟩
  | none =>
      obtain ⟨o, ho, hread⟩ := result_currentOverrides hw
      refine ⟨o, ho, ?_⟩
      dsimp only
      cases htable : w.table with
      | error failure =>
          rw [htable] at hread
          rw [Work.result_bind_error hread]
          rfl
      | ok table =>
          rw [htable] at hread
          rw [Work.result_bind_ok hread, ok_bind]
          cases Entries.get? table key with
          | none => rfl
          | some v => cases v <;> rfl

theorem result_getConstant {β : Type} {w : World} (hw : w.Remembers w.overrides) (name : String)
    (default : β) (convert : Value → Except Failure β) :
    ∃ o, w.Remembers o ∧
      (getConstant name default convert).result w =
        match Resolution.constant w.environment w.table name default convert with
        | .ok (value, source) =>
          (.ok value, { w with
            overrides := o
            sources := Entries.put w.sources (Text.upper name) source })
        | .error failure => (.error failure, { w with overrides := o }) := by
  obtain ⟨o, ho, hfound⟩ := result_findOverride hw (Text.upper name)
  refine ⟨o, ho, ?_⟩
  rw [getConstant, Resolution.constant]
  cases hoverride : Resolution.override w.environment w.table (Text.upper name) with
  | error failure =>
      rw [hoverride] at hfound
      rw [Work.result_bind_error hfound]
      rfl
  | ok found =>
      rw [hoverride] at hfound
      rw [Work.result_bind_ok hfound, ok_bind]
      cases found with
      | none => rfl
      | some pair =>
          obtain ⟨raw, source⟩ := pair
          cases hconvert : convert raw with
          | ok value =>
              simp only [hconvert]
              rfl
          | error cause =>
              simp only [hconvert]
              split <;> rfl

/-! ## The four constants -/

theorem Entries.ofAssignments_four {κ β : Type} [BEq κ] (a b c d : κ × β) :
    ofAssignments [a, b, c, d] = put (put (put (put [] a.1 a.2) b.1 b.2) c.1 c.2) d.1 d.2 := rfl

/-- Work that starts in `v` comes to `r` and changes in `w` nothing but what a resolution may. -/
def Resolves (m : Work Unit) (w v : World)
    (r : Except Failure (Constants Float × Entries String Source)) : Prop :=
  ∃ o s c, m.result v =
      (r.map fun _ => (), { w with overrides := o, sources := s, constants := c }) ∧
    ∀ x, r = .ok x → c = x.1 ∧ s = x.2

/-- One constant of a resolution, and what follows it. -/
theorem Resolves.step {β : Type} {w : World} {o : Option (List (String × Value))}
    {s : Entries String Source} {c : Constants Float} (ho : w.Remembers o) (name : String)
    (default : β) (convert : Value → Except Failure β) {next : β → Work Unit}
    {r : β × Source → Except Failure (Constants Float × Entries String Source)}
    (hnext : ∀ value source o', w.Remembers o' →
      Resolves (next value) w { w with
        overrides := o', sources := Entries.put s (Text.upper name) source, constants := c }
        (r (value, source))) :
    Resolves (getConstant name default convert >>= next) w
      { w with overrides := o, sources := s, constants := c }
      (Resolution.constant w.environment w.table name default convert >>= r) := by
  have hv : World.Remembers { w with overrides := o, sources := s, constants := c } o := ho
  obtain ⟨o', ho', hget⟩ := result_getConstant hv name default convert
  have hread : Resolution.constant w.environment
      (World.table { w with overrides := o, sources := s, constants := c }) name default convert =
      Resolution.constant w.environment w.table name default convert := rfl
  rw [hread] at hget
  cases hconstant : Resolution.constant w.environment w.table name default convert with
  | error failure =>
      rw [hconstant] at hget
      rw [error_bind]
      refine ⟨o', s, c, Work.result_bind_error hget, ?_⟩
      intro x hx
      cases hx
  | ok pair =>
      obtain ⟨value, source⟩ := pair
      rw [hconstant] at hget
      obtain ⟨o'', s', c', hresult, hvalue⟩ := hnext value source o' ho'
      refine ⟨o'', s', c', ?_, hvalue⟩
      rw [Work.result_bind_ok hget]
      exact hresult

/-- What is changed before is where the rest starts. -/
theorem Resolves.change {w v : World} {f : World → World} {next : Unit → Work Unit}
    {r : Except Failure (Constants Float × Entries String Source)}
    (h : Resolves (next ()) w (f v) r) : Resolves (Work.change f >>= next) w v r := by
  obtain ⟨o, s, c, hresult, hvalue⟩ := h
  refine ⟨o, s, c, ?_, hvalue⟩
  rw [Work.result_bind_ok (Work.result_change f v)]
  exact hresult

/-- A resolution gives the constants and sources that the environment and the table determine, and
fails as they determine. Nothing else of the world changes. -/
theorem resolves_resolveConstants (w : World) :
    Resolves resolveConstants w w (Resolution.constants w.environment w.table) := by
  have hforget : w.Remembers none := by
    intro table htable
    cases htable
  refine Resolves.change ?_
  refine Resolves.step hforget "CARBON_MARKET" _ _ fun market source₁ o₁ h₁ => ?_
  refine Resolves.change ?_
  refine Resolves.step h₁ "NORM_FACTOR" _ _ fun factor source₂ o₂ h₂ => ?_
  refine Resolves.change ?_
  refine Resolves.step h₂ "FUEL_SHIFT_BASE_PERIOD" _ _ fun base source₃ o₃ h₃ => ?_
  refine Resolves.change ?_
  refine Resolves.step h₃ "TECH_CHANGE_START_PERIOD" _ _ fun start source₄ o₄ h₄ => ?_
  refine ⟨o₄, _, _, Work.result_change _ _, fun x hx => ?_⟩
  obtain rfl := Except.ok.inj hx
  refine ⟨rfl, ?_⟩
  dsimp only
  rw [Entries.ofAssignments_four]

theorem result_resolveConstants_ok {w : World} {r : Constants Float × Entries String Source}
    (h : Resolution.constants w.environment w.table = .ok r) :
    ∃ o, resolveConstants.result w =
      (.ok (), { w with overrides := o, sources := r.2, constants := r.1 }) := by
  obtain ⟨o, s, c, hresult, hvalue⟩ := resolves_resolveConstants w
  obtain ⟨rfl, rfl⟩ := hvalue r h
  rw [h] at hresult
  exact ⟨o, hresult⟩

theorem result_resolveConstants_error {w : World} {failure : Failure}
    (h : Resolution.constants w.environment w.table = .error failure) :
    ∃ o s c, resolveConstants.result w =
      (.error failure, { w with overrides := o, sources := s, constants := c }) := by
  obtain ⟨o, s, c, hresult, -⟩ := resolves_resolveConstants w
  rw [h] at hresult
  exact ⟨o, s, c, hresult⟩

/-- The constants and sources of a world are those that a resolution gives in it. -/
def World.Settled (w : World) : Prop :=
  Resolution.constants w.environment w.table = .ok (w.constants, w.sources)

/-- A resolution that succeeds leaves a settled world. -/
theorem settled_of_result {w v : World} (h : resolveConstants.result w = (.ok (), v)) :
    v.Settled := by
  cases hr : Resolution.constants w.environment w.table with
  | error failure =>
      obtain ⟨o, s, c, hresult⟩ := result_resolveConstants_error hr
      rw [hresult] at h
      cases h
  | ok r =>
      obtain ⟨o, hresult⟩ := result_resolveConstants_ok hr
      rw [hresult] at h
      cases h
      exact hr

end Macc
