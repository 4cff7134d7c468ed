import Macc.Proofs.Overrides
import Macc.Proofs.Scopes

/-!
# Nothing of a history survives a resolution

Three things carry something from one lookup to the next: the table of overrides
that was read last, which does not say where it was read; the sources, to which
every lookup adds; and the constants themselves. A resolution forgets the first
two and sets the third, so what it leaves could depend on the history through
the open scopes alone. A session keeps these the way a reader counts them, as a
stack with the selected configuration of each scope on it, while the program
keeps one selected configuration and each scope the one to go back to.

That the two agree is the invariant: what is selected is the configuration of
the innermost scope, and each scope goes back to the one around it. Only entering
and leaving touch it, and both keep it also when the resolution in them fails.
-/

namespace Macc

/-! ## Sessions -/

/-- What can happen to a program and around it. -/
inductive Event where
  | set (name text : String)
  | unset (name : String)
  | write (path : Path) (bytes : ByteArray)
  | makeDirectory (path : Path)
  | remove (path : Path)
  | look (name : String) (default : Value) (convert : Value → Except Failure Value)
  | forget
  | resolve
  | enter (path : Path)
  | leave

/-- A scope that is open: the configuration it selects, and the selection to go back to. -/
structure OpenScope where
  config : Path
  before : Option Path

/-- A program and its open scopes, the innermost first. -/
structure Session where
  world : World
  scopes : List OpenScope

namespace Session

/-- A session in any world, before the first scope. -/
def start (w : World) : Session where
  world := { w with scope := none }
  scopes := []

/-- Changes something outside the program. -/
def outside (s : Session) (environment : Entries String String) (files : FileTree) : Session :=
  { s with world := { s.world with environment := environment, files := files } }

/-- Does work that opens and closes no scope. -/
def inside {α : Type} (s : Session) (work : Work α) : Session :=
  { s with world := (work.result s.world).2 }

def next (s : Session) : Event → Session
  | .set name text => s.outside (Entries.put s.world.environment name text) s.world.files
  | .unset name => s.outside (s.world.environment.filter fun e => e.1 != name) s.world.files
  | .write path bytes => s.outside s.world.environment (s.world.files.withFile path bytes).1
  | .makeDirectory path => s.outside s.world.environment (s.world.files.withDirectory path).1
  | .remove path => s.outside s.world.environment (s.world.files.remove path)
  | .look name default convert => s.inside (getConstant name default convert)
  | .forget => s.inside forgetOverrides
  | .resolve => s.inside resolveConstants
  | .enter path =>
    match path.expandHome s.world.home, (openScope path).result s.world with
    | .ok config, (.ok before, entered) => ⟨entered, ⟨config, before⟩ :: s.scopes⟩
    | _, (_, left) => ⟨left, s.scopes⟩
  | .leave =>
    match s.scopes with
    | [] => s
    | scope :: around => ⟨((closeScope scope.before).result s.world).2, around⟩

/-- A session after some events. -/
def run (s : Session) (events : List Event) : Session :=
  events.foldl next s

/-- The active run configuration: that of the innermost open scope, else the one that the
environment names, else the default one. -/
def activePath (s : Session) : Except Failure Path :=
  match s.scopes with
  | scope :: _ => .ok scope.config
  | [] =>
    match (Entries.get? s.world.environment "GHGMAC_RUN_CONFIG").filter (!·.isEmpty) with
    | some named => (Path.parse named).expandHome s.world.home
    | none => .ok s.world.defaultConfig

/-! ## The selected configuration -/

/-- The innermost of some scopes is selected, and each goes back to the one around it. -/
def Selects : List OpenScope → Option Path → Prop
  | [], selected => selected = none
  | scope :: around, selected => selected = some scope.config ∧ Selects around scope.before

/-- The selected configuration is that of the innermost open scope, now and after each leaving. -/
def Consistent (s : Session) : Prop :=
  Selects s.scopes s.world.scope

end Session

section

open Work

theorem keeps_scope_resolveConstants : resolveConstants.Keeps World.scope := by
  intro w
  obtain ⟨o, s, c, hresult, -⟩ := resolves_resolveConstants w
  rw [hresult]

theorem keeps_scope_currentOverrides : currentOverrides.Keeps World.scope := by
  refine keeps_world.bind fun w => ?_
  split
  · exact keeps_pure _
  · refine (keeps_ofExcept _).bind fun path => ?_
    refine (keeps_ofAttempt _).bind fun read => ?_
    have hchange : (change fun w => { w with overrides := some read }).Keeps World.scope :=
      fun _ => rfl
    exact hchange.bind fun _ => keeps_pure _

theorem keeps_scope_recordSource (key : String) (source : Source) :
    (recordSource key source).Keeps World.scope := fun _ => rfl

/-- Looking a constant up selects no configuration, whatever is remembered. -/
theorem keeps_scope_getConstant {β : Type} (name : String) (default : β)
    (convert : Value → Except Failure β) :
    (getConstant name default convert).Keeps World.scope := by
  have hfind : (findOverride (Text.upper name)).Keeps World.scope := by
    refine keeps_world.bind fun w => ?_
    split
    · exact keeps_pure _
    · refine keeps_scope_currentOverrides.bind fun table => ?_
      split <;> exact keeps_pure _
  refine hfind.bind fun found => ?_
  split
  · exact (keeps_scope_recordSource _ _).bind fun _ => keeps_pure _
  · split
    · exact (keeps_scope_recordSource _ _).bind fun _ => keeps_pure _
    · split
      · refine (keeps_tell _).bind fun _ => ?_
        exact (keeps_scope_recordSource _ _).bind fun _ => keeps_pure _
      · exact keeps_throw _

end

theorem scope_closeScope (before : Option Path) (w : World) :
    ((closeScope before).result w).2.scope = before := by
  rw [closeScope, Work.result_bind_ok (Work.result_change _ w)]
  exact keeps_scope_resolveConstants _

/-- A scope that is entered selects its configuration and knows the one selected before; one that
cannot be entered leaves that one selected. -/
theorem scope_openScope (path : Path) (w : World) :
    match (openScope path).result w with
    | (.ok before, entered) =>
      before = w.scope ∧ ∃ config, path.expandHome w.home = .ok config ∧ entered.scope = some config
    | (.error _, left) => left.scope = w.scope := by
  rw [openScope, Work.result_bind_ok (Work.result_world w),
    Work.result_bind_ok (Work.result_world w)]
  cases hconfig : path.expandHome w.home with
  | error failure => rfl
  | ok config =>
      rw [Work.result_bind_ok (Work.result_ofExcept _ w),
        Work.result_bind_ok (Work.result_change _ w),
        Work.result_bind_ok (Work.result_attempted _ _)]
      have hscope := keeps_scope_resolveConstants { w with scope := some config }
      rcases hresolve : resolveConstants.result { w with scope := some config } with
        ⟨failure | _, v⟩
      · -- the scope is closed again, and the resolution in this may fail too
        obtain ⟨cause, hclosed⟩ := Work.result_bind_throw (closeScope w.scope) failure v
        exact hclosed ▸ scope_closeScope w.scope v
      · rw [hresolve] at hscope
        exact ⟨rfl, config, rfl, hscope⟩

namespace Session

variable {s : Session}

theorem Consistent.start (w : World) : (start w).Consistent := rfl

/-- Work that selects no configuration keeps a session consistent. -/
theorem Consistent.inside {α : Type} {work : Work α} (h : s.Consistent)
    (hwork : work.Keeps World.scope) : (s.inside work).Consistent := by
  rw [Consistent, Session.inside, hwork]
  exact h

theorem Consistent.enter (h : s.Consistent) (path : Path) : (s.next (.enter path)).Consistent := by
  have hscope := scope_openScope path s.world
  rw [next]
  rcases hopen : (openScope path).result s.world with ⟨failure | before, w⟩ <;>
    rw [hopen] at hscope
  · have hleft : Selects s.scopes w.scope := hscope.symm ▸ h
    cases path.expandHome s.world.home <;> exact hleft
  · obtain ⟨rfl, config, hconfig, hselected⟩ := hscope
    rw [hconfig]
    exact ⟨hselected, h⟩

theorem Consistent.leave (h : s.Consistent) : (s.next .leave).Consistent := by
  rw [next]
  cases hscopes : s.scopes with
  | nil => exact h
  | cons scope around =>
      rw [Consistent, hscopes] at h
      rw [Consistent, scope_closeScope]
      exact h.2

theorem Consistent.next (h : s.Consistent) (event : Event) : (s.next event).Consistent := by
  cases event with
  | set name text => exact h
  | unset name => exact h
  | write path bytes => exact h
  | makeDirectory path => exact h
  | remove path => exact h
  | look name default convert => exact h.inside (keeps_scope_getConstant name default convert)
  | forget => exact h.inside fun _ => rfl
  | resolve => exact h.inside keeps_scope_resolveConstants
  | enter path => exact h.enter path
  | leave => exact h.leave

theorem Consistent.run (h : s.Consistent) (events : List Event) : (s.run events).Consistent := by
  induction events generalizing s with
  | nil => exact h
  | cons event events ih => exact ih (h.next event)

/-- In a consistent session the program reads the run configuration that is active. -/
theorem Consistent.activeConfig_eq (h : s.Consistent) : s.world.activeConfig = s.activePath := by
  rw [Consistent] at h
  rw [World.activeConfig, activePath, World.configVariable]
  cases hscopes : s.scopes with
  | cons scope around =>
      rw [hscopes] at h
      rw [h.1]
  | nil =>
      rw [hscopes] at h
      rw [show s.world.scope = none from h]
      cases Entries.get? s.world.environment "GHGMAC_RUN_CONFIG" with
      | none => rfl
      | some named =>
          dsimp only
          cases hempty : named.isEmpty with
          | true => simp [Option.filter, hempty]
          | false => simp [Option.filter, hempty]

/-- Whatever happened before, a resolution that succeeds leaves the constants and the sources that
follow from the environment and from what stands in the active run configuration. -/
theorem resolution_forgets_history (w : World) (events : List Event) {after : World}
    (h : resolveConstants.result ((start w).run events).world = (.ok (), after)) :
    let s := (start w).run events
    let overrides := overridesIn (s.activePath >>= s.world.files.read)
    after.constants = settledConstants s.world.environment overrides ∧
      after.sortedSources = settledSources s.world.environment overrides := by
  intro s overrides
  have hactive : s.world.activeConfig = s.activePath :=
    ((Consistent.start w).run events).activeConfig_eq
  have hsettled := settled_of_resolved h
  rw [World.contents, hactive] at hsettled
  exact hsettled

/-- A scope that cannot be entered, a lookup, variables, and a configuration that changes while it is
active. -/
def eventful : List Event :=
  [.enter ⟨.single, ["broken.toml"]⟩,
    .enter ⟨.single, ["half.toml"]⟩,
    .look "norm_factor" (.int 5) fun raw => raw.toInteger.map .int,
    .set "GHGMAC_TECH_CHANGE_START_PERIOD" "soon",
    .set "GHGMAC_FUEL_SHIFT_BASE_PERIOD" " 4 ",
    .unset "GHGMAC_CARBON_MARKET",
    .write ⟨.single, ["half.toml"]⟩ ("[abatement.constants]\nNORM_FACTOR = 0.1\n" ++
      "norm_factor = 0.2\nTECH_CHANGE_START_PERIOD = 7\nFUEL_SHIFT_BASE_PERIOD = 8\n").toUTF8]

/-- The factor is the last one written, the period of the fuel shift that of its variable. What the
other variable says is no integer, and then neither it counts nor the configuration. -/
theorem resolution_forgets_eventful :
    ∃ after, resolveConstants.result ((start freshWorld).run eventful).world = (.ok (), after) ∧
      after.constants = ⟨"CO2", 0.2, 4, 2⟩ ∧
      after.sortedSources = [("CARBON_MARKET", "default"), ("FUEL_SHIFT_BASE_PERIOD", "env"),
        ("NORM_FACTOR", "run_config"), ("TECH_CHANGE_START_PERIOD", "default")] := by
  have hresolves :
      (resolveConstants.result ((start freshWorld).run eventful).world).1.isOk = true := by
    decide +kernel
  rcases hr : resolveConstants.result ((start freshWorld).run eventful).world with
    ⟨failure | _, after⟩
  · rw [hr] at hresolves
    cases hresolves
  · obtain ⟨hconstants, hsources⟩ := resolution_forgets_history freshWorld eventful hr
    refine ⟨after, rfl, hconstants.trans ?_, hsources.trans ?_⟩
    · decide +kernel
    · decide +kernel

end Session

end Macc
