import Macc.Proofs.Resolution
import Macc.Run.Evaluation

/-!
# Scopes leave no trace

A scope does not keep the constants that it hides. It closes by selecting the
configuration before it again and resolving anew, and that this gives back what
was there is a fact about resolutions: they are a function of the environment
and of the table in force, so in a settled world resolving again changes
nothing. What a scope needs for this is only that its body leaves the
environment and the configuration file alone; the constants, the sources and the
open scope may be anything when it ends.

A course is any nesting and sequence of scopes and evaluations of runs, with
failures that are caught or not. Its passages are the moments at which one of
them is left, each with the world before and after it.
-/

namespace Macc

/-! ## What work keeps -/

/-- Something about a world that shows neither the open scope nor what was resolved. -/
def World.Outer {γ : Type} (f : World → γ) : Prop :=
  ∀ w scope o s c, f { w with scope := scope, overrides := o, sources := s, constants := c } = f w

/-- What decides, with the open scope, which configuration is active. -/
def World.ground (w : World) : Entries String String × Path :=
  (w.environment, w.defaultConfig)

theorem outer_ground : World.Outer World.ground := fun _ _ _ _ _ => rfl

theorem outer_files : World.Outer World.files := fun _ _ _ _ _ => rfl

namespace Work

variable {α β γ : Type} {f : World → γ}

/-- Work that does not change what `f` shows of the world. -/
def Keeps (f : World → γ) (m : Work α) : Prop :=
  ∀ w, f (m.result w).2 = f w

theorem Keeps.bind {m : Work α} {next : α → Work β} (hm : m.Keeps f)
    (hnext : ∀ a, (next a).Keeps f) : (m >>= next).Keeps f := by
  intro w
  have hw := hm w
  rw [result_bind]
  rcases hr : m.result w with ⟨_ | a, w'⟩
  · rw [hr] at hw
    exact hw
  · rw [hr] at hw
    exact (hnext a w').trans hw

theorem Keeps.always {body : Work α} {after : Work Unit} (hbody : body.Keeps f)
    (hafter : after.Keeps f) : (always body after).Keeps f := by
  intro w
  rw [world_always]
  exact (hafter _).trans (hbody w)

theorem Keeps.attempted {m : Work α} (hm : m.Keeps f) :
    Keeps f (ExceptT.mk (Except.ok <$> m.run)) := hm

theorem keeps_pure (a : α) : Keeps f (pure a) := fun _ => rfl

theorem keeps_throw (failure : Failure) : Keeps f (throw failure : Work α) := fun _ => rfl

theorem keeps_world : Keeps f world := fun _ => rfl

theorem keeps_tell (n : Notice) : Keeps f (tell n) := fun _ => rfl

theorem keeps_ofExcept (r : Except Failure α) : Keeps f (ofExcept r) := fun _ => rfl

theorem keeps_ofAttempt (a : Attempt α) : Keeps f (ofAttempt a) := fun _ => rfl

theorem keeps_scope (hf : World.Outer f) (scope : Option Path) :
    Keeps f (change fun w => { w with scope := scope }) :=
  fun w => hf w scope w.overrides w.sources w.constants

end Work

section

variable {γ : Type} {f : World → γ} (hf : World.Outer f)
include hf

theorem keeps_resolveConstants : resolveConstants.Keeps f := by
  intro w
  obtain ⟨o, s, c, hresult, -⟩ := resolves_resolveConstants w
  rw [hresult]
  exact hf w w.scope o s c

theorem keeps_closeScope (before : Option Path) : (closeScope before).Keeps f :=
  (Work.keeps_scope hf before).bind fun _ => keeps_resolveConstants hf

theorem keeps_openScope (path : Path) : (openScope path).Keeps f := by
  refine Work.keeps_world.bind fun w => ?_
  refine Work.keeps_world.bind fun w' => ?_
  refine (Work.keeps_ofExcept _).bind fun target => ?_
  refine (Work.keeps_scope hf _).bind fun _ => ?_
  refine (keeps_resolveConstants hf).attempted.bind fun outcome => ?_
  cases outcome with
  | ok _ => exact Work.keeps_pure _
  | error failure => exact (keeps_closeScope hf w.scope).bind fun _ => Work.keeps_throw _

theorem keeps_withScope {α : Type} (path : Path) {body : Work α} (hbody : body.Keeps f) :
    (withScope path body).Keeps f :=
  (keeps_openScope hf path).bind fun before => hbody.always (keeps_closeScope hf before)

end

theorem keeps_ground_writeReport (s : RunSettings) (text : String) :
    (s.writeReport text).Keeps World.ground := by
  refine Work.keeps_world.bind fun w => ?_
  split
  · have hfiles : ∀ g, Work.Keeps World.ground (Work.onFiles g) := fun _ _ => rfl
    exact (hfiles _).bind fun _ => Work.keeps_pure _
  · exact Work.keeps_throw _

/-- A run changes files and nothing else. -/
theorem keeps_ground_evaluateHere (s : RunSettings) (catalogueFile priceFile : Path) :
    (s.evaluateHere catalogueFile priceFile).Keeps World.ground := by
  have hrest : ∀ found : List (ReductionRow Float), Work.Keeps World.ground do
      let path ← s.writeReport (reportText found)
      Work.tell (.wroteReductions found.length path.text)
      return path := fun found =>
    (keeps_ground_writeReport s _).bind fun path =>
      (Work.keeps_tell _).bind fun _ => Work.keeps_pure path
  refine Work.keeps_world.bind fun w => ?_
  refine (Work.keeps_tell _).bind fun _ => ?_
  split
  · exact (Work.keeps_tell _).bind fun _ => (Work.keeps_ofAttempt _).bind hrest
  · exact (Work.keeps_ofAttempt _).bind hrest

/-! ## One scope -/

/-- The world inside a scope, or why it cannot be entered. -/
def World.entered (w : World) (path : Path) : Except Failure World :=
  path.expandHome w.home >>= fun target =>
    match resolveConstants.result { w with scope := some target } with
    | (.ok (), inside) => .ok inside
    | (.error failure, _) => .error failure

theorem result_openScope_ok {w inside : World} {path : Path}
    (h : w.entered path = .ok inside) : (openScope path).result w = (.ok w.scope, inside) := by
  obtain ⟨target, htarget, hinside⟩ := bind_eq_ok_iff.1 h
  rw [openScope, Work.result_bind_ok (Work.result_world w),
    Work.result_bind_ok (Work.result_world w), htarget,
    Work.result_bind_ok (Work.result_ofExcept _ w), Work.result_bind_ok (Work.result_change _ w),
    Work.result_bind_ok (Work.result_attempted _ _)]
  rcases hr : resolveConstants.result { w with scope := some target } with ⟨failure | _, v⟩
  · rw [hr] at hinside
    cases hinside
  · rw [hr] at hinside
    cases hinside
    rfl

/-- Resolving again in a settled world gives what is there, whatever was resolved in between. -/
theorem result_resolve_settled {w v : World} (hw : w.Settled)
    (henv : v.environment = w.environment) (htable : v.table = w.table) :
    ∃ o, resolveConstants.result v =
      (.ok (), { v with overrides := o, sources := w.sources, constants := w.constants }) := by
  refine result_resolveConstants_ok (r := (w.constants, w.sources)) ?_
  rw [henv, htable]
  exact hw

/-- What cannot be entered leaves a settled world as it was. -/
theorem result_openScope_error {w : World} (hw : w.Settled) {path : Path} {failure : Failure}
    (h : w.entered path = .error failure) :
    ∃ o, (openScope path).result w = (.error failure, { w with overrides := o }) := by
  rw [openScope, Work.result_bind_ok (Work.result_world w),
    Work.result_bind_ok (Work.result_world w)]
  rw [World.entered] at h
  cases htarget : path.expandHome w.home with
  | error cause =>
      rw [htarget] at h
      cases h
      exact ⟨w.overrides, Work.result_bind_error (Work.result_ofExcept _ w)⟩
  | ok target =>
      rw [htarget, ok_bind] at h
      obtain ⟨o, s, c, hresolve, -⟩ := resolves_resolveConstants { w with scope := some target }
      rw [hresolve] at h
      rw [Work.result_bind_ok (Work.result_ofExcept _ w),
        Work.result_bind_ok (Work.result_change _ w),
        Work.result_bind_ok (Work.result_attempted _ _), hresolve]
      generalize (Resolution.constants _ (World.table { w with scope := some target })).map
        (fun _ => ()) = outcome at h ⊢
      cases outcome with
      | ok _ => cases h
      | error cause =>
          cases h
          obtain ⟨o', hresolve⟩ := result_resolve_settled hw
            (v := { w with overrides := o, sources := s, constants := c }) rfl rfl
          have hclose : (closeScope w.scope).result { w with
                scope := some target, overrides := o, sources := s, constants := c } =
              (.ok (), { w with overrides := o' }) := hresolve
          exact ⟨o', Work.result_bind_ok hclose⟩

/-- The configuration file in force in a world holds the same in other files. -/
def World.SameConfig (w : World) (files : FileTree) : Prop :=
  ∀ path, w.activeConfig = .ok path →
    files.pathExists path = w.files.pathExists path ∧ files.read path = w.files.read path

theorem table_eq_of_sameConfig {w v : World} (hactive : v.activeConfig = w.activeConfig)
    (hsame : w.SameConfig v.files) : v.table = w.table := by
  rw [World.table, World.table, hactive]
  cases hp : w.activeConfig with
  | error failure => rfl
  | ok path =>
      obtain ⟨hexists, hread⟩ := hsame path hp
      rw [ok_bind, ok_bind, readOverrides, readOverrides, hexists, hread]

/-- What a scope comes to: the outcome of its body inside, or the failure to enter it. -/
def World.through {α : Type} (w : World) (path : Path) (body : Work α) : Except Failure α :=
  w.entered path >>= fun inside => (body.result inside).1

/-- The world after something is the world before it, except for files and for what was read. -/
structure World.Restored (before after : World) : Prop where
  environment : after.environment = before.environment
  defaultConfig : after.defaultConfig = before.defaultConfig
  scope : after.scope = before.scope
  sources : after.sources = before.sources
  constants : after.constants = before.constants

theorem activeConfig_congr {w v : World} (hscope : v.scope = w.scope)
    (henv : v.environment = w.environment) (hdefault : v.defaultConfig = w.defaultConfig) :
    v.activeConfig = w.activeConfig := by
  rw [World.activeConfig, World.activeConfig, hscope, henv, hdefault, World.home, World.home, henv]

theorem World.Restored.activeConfig {before after : World} (h : before.Restored after) :
    after.activeConfig = before.activeConfig :=
  activeConfig_congr h.scope h.environment h.defaultConfig

theorem World.Restored.settled {before after : World} (h : before.Restored after)
    (hbefore : before.Settled) (hsame : before.SameConfig after.files) : after.Settled := by
  rw [World.Settled, h.environment, h.constants, h.sources,
    table_eq_of_sameConfig h.activeConfig hsame]
  exact hbefore

/-- A scope passes on what its body came to, and restores the world around it. -/
theorem withScope_restores {α : Type} {w : World} (hw : w.Settled) (path : Path) {body : Work α}
    (hbody : body.Keeps World.ground)
    (hsame : w.SameConfig ((withScope path body).result w).2.files) :
    ((withScope path body).result w).1 = w.through path body ∧
      w.Restored ((withScope path body).result w).2 := by
  rw [World.through]
  cases hentered : w.entered path with
  | error failure =>
      obtain ⟨o, hopen⟩ := result_openScope_error hw hentered
      rw [withScope, Work.result_bind_error hopen]
      exact ⟨rfl, rfl, rfl, rfl, rfl, rfl⟩
  | ok inside =>
      have hopen := result_openScope_ok hentered
      have hinside := keeps_openScope outer_ground path w
      rw [hopen] at hinside
      have hground := (hbody inside).trans hinside
      rw [withScope, Work.result_bind_ok hopen] at hsame ⊢
      rw [Work.world_always, keeps_closeScope outer_files] at hsame
      rw [Work.world_always, Work.result_always]
      generalize (body.result inside).2 = left at hground hsame ⊢
      -- leaving resolves in the world before, as far as a resolution can see
      obtain ⟨henv, hdefault⟩ := Prod.mk.inj hground
      have hactive : World.activeConfig { left with scope := w.scope } = w.activeConfig :=
        activeConfig_congr rfl henv hdefault
      obtain ⟨o, hresolve⟩ := result_resolve_settled hw (v := { left with scope := w.scope })
        henv (table_eq_of_sameConfig hactive hsame)
      have hclose : (closeScope w.scope).result left = _ := hresolve
      rw [hclose]
      exact ⟨rfl, henv, hdefault, rfl, rfl, rfl⟩

/-! ## Courses

What follows a scope or a run is done when it succeeded or when its failure is
caught; otherwise the failure ends the course. -/

/-- Scopes and runs, nested and one after the other. -/
inductive Course where
  | stop
  | fail (failure : Failure)
  | scope (path : Path) (body : Course) (caught : Bool) (next : Course)
  | run (settings : RunSettings) (caught : Bool) (next : Course)

/-- Work, and more work behind it unless a failure that is not caught ends it. -/
def Work.followedBy (first : Work Unit) (caught : Bool) (next : Work Unit) : Work Unit := do
  match ← ExceptT.mk (Except.ok <$> first.run) with
  | .ok () => next
  | .error failure => if caught then next else throw failure

/-- The evaluation of a run, without the path of its report. -/
def RunSettings.evaluated (s : RunSettings) : Work Unit :=
  s.evaluate >>= fun _ => pure ()

def Course.work : Course → Work Unit
  | .stop => pure ()
  | .fail failure => throw failure
  | .scope path body caught next => (withScope path body.work).followedBy caught next.work
  | .run settings caught next => settings.evaluated.followedBy caught next.work

def Course.runs : Course → List RunSettings
  | .stop | .fail _ => []
  | .scope _ body _ next => body.runs ++ next.runs
  | .run settings _ next => settings :: next.runs

/-- The moment at which a scope or a run is left. -/
structure Passage where
  before : World
  after : World
  /-- What it came to inside. -/
  ended : Except Failure Unit
  /-- What it passes on. -/
  outcome : Except Failure Unit

/-- What a run comes to inside its own scope, or why it does not open one. -/
def RunSettings.ended (s : RunSettings) (w : World) : Except Failure Unit :=
  match s.catalogueFile, s.priceFile with
  | none, _ => .error .catalogueUnset
  | _, none => .error .pricesUnset
  | some catalogueFile, some priceFile =>
    (w.through s.configPath (s.evaluateHere catalogueFile priceFile)).map fun _ => ()

/-- Whether what stands behind work is reached. -/
def goesOn (outcome : Except Failure Unit) (caught : Bool) : Bool :=
  match outcome with
  | .ok () => true
  | .error _ => caught

/-- The moments at which the scopes and runs of a course are left, in their order. -/
def Course.passages : Course → World → List Passage
  | .stop, _ => []
  | .fail _, _ => []
  | .scope path body caught next, w =>
    let left := (withScope path body.work).result w
    let inner :=
      match w.entered path with
      | .ok inside => body.passages inside
      | .error _ => []
    inner ++ ⟨w, left.2, w.through path body.work, left.1⟩ ::
      (if goesOn left.1 caught then next.passages left.2 else [])
  | .run settings caught next, w =>
    let left := settings.evaluated.result w
    ⟨w, left.2, settings.ended w, left.1⟩ ::
      (if goesOn left.1 caught then next.passages left.2 else [])

section

variable {γ : Type} {f : World → γ}

theorem Work.Keeps.followedBy {first next : Work Unit} (hfirst : first.Keeps f)
    (hnext : next.Keeps f) (caught : Bool) : (first.followedBy caught next).Keeps f := by
  refine hfirst.attempted.bind fun outcome => ?_
  cases outcome with
  | ok _ => exact hnext
  | error failure =>
      cases caught with
      | true => exact hnext
      | false => exact keeps_throw failure

theorem keeps_evaluated (hf : World.Outer f) {s : RunSettings}
    (hs : ∀ catalogueFile priceFile, s.catalogueFile = some catalogueFile →
      s.priceFile = some priceFile → (s.evaluateHere catalogueFile priceFile).Keeps f) :
    s.evaluated.Keeps f := by
  refine Work.Keeps.bind ?_ fun _ => Work.keeps_pure ()
  rw [RunSettings.evaluate]
  split
  · exact Work.keeps_throw _
  · exact Work.keeps_throw _
  · next catalogueFile priceFile hcatalogue hprice =>
      exact keeps_withScope hf s.configPath (hs catalogueFile priceFile hcatalogue hprice)

/-- What its runs keep, a course keeps. -/
theorem Course.keeps_work (hf : World.Outer f) (c : Course)
    (hc : ∀ s ∈ c.runs, s.evaluated.Keeps f) : c.work.Keeps f := by
  induction c with
  | stop => exact Work.keeps_pure ()
  | fail failure => exact Work.keeps_throw failure
  | scope path body caught next ihbody ihnext =>
      have hbody := ihbody fun s hs => hc s (List.mem_append_left _ hs)
      have hnext := ihnext fun s hs => hc s (List.mem_append_right _ hs)
      exact (keeps_withScope hf path hbody).followedBy hnext caught
  | run settings caught next ihnext =>
      have hnext := ihnext fun s hs => hc s (List.mem_cons_of_mem _ hs)
      exact (hc settings List.mem_cons_self).followedBy hnext caught

end

theorem Course.keeps_ground_work (c : Course) : c.work.Keeps World.ground :=
  c.keeps_work outer_ground fun s _ =>
    keeps_evaluated outer_ground fun catalogueFile priceFile _ _ =>
      keeps_ground_evaluateHere s catalogueFile priceFile

/-- A run passes on what it came to, and restores the world around it. -/
theorem evaluated_restores {w : World} (hw : w.Settled) (s : RunSettings)
    (hsame : w.SameConfig (s.evaluated.result w).2.files) :
    (s.evaluated.result w).1 = s.ended w ∧ w.Restored (s.evaluated.result w).2 := by
  rw [RunSettings.evaluated, Work.result_discard] at hsame ⊢
  rw [RunSettings.evaluate] at hsame ⊢
  rw [RunSettings.ended]
  cases hcatalogue : s.catalogueFile with
  | none => exact ⟨rfl, rfl, rfl, rfl, rfl, rfl⟩
  | some catalogueFile =>
      cases hprice : s.priceFile with
      | none => exact ⟨rfl, rfl, rfl, rfl, rfl, rfl⟩
      | some priceFile =>
          rw [hcatalogue, hprice] at hsame
          obtain ⟨hout, hrestored⟩ := withScope_restores hw s.configPath
            (keeps_ground_evaluateHere s catalogueFile priceFile) hsame
          refine ⟨?_, hrestored⟩
          dsimp only
          rw [hout]

theorem World.settled_of_entered {w inside : World} {path : Path}
    (h : w.entered path = .ok inside) : inside.Settled := by
  obtain ⟨target, -, hinside⟩ := bind_eq_ok_iff.1 h
  rcases hr : resolveConstants.result { w with scope := some target } with ⟨failure | _, v⟩
  · rw [hr] at hinside
    cases hinside
  · rw [hr] at hinside
    cases hinside
    exact settled_of_result hr

/-- In a settled world every scope and run of a course is left as it was entered. -/
theorem Course.restored_of_settled (c : Course) {w : World} (hw : w.Settled)
    (hfiles : ∀ p ∈ c.passages w, p.before.SameConfig p.after.files) :
    ∀ p ∈ c.passages w, p.before.Restored p.after ∧ p.outcome = p.ended := by
  induction c generalizing w with
  | stop =>
      intro p hp
      cases hp
  | fail failure =>
      intro p hp
      cases hp
  | scope path body caught next ihbody ihnext =>
      have hout := withScope_restores hw path body.keeps_ground_work
      rw [Course.passages] at hfiles ⊢
      generalize (withScope path body.work).result w = left at hfiles hout ⊢
      have hsame := hfiles _ (List.mem_append_right _ List.mem_cons_self)
      obtain ⟨hended, hrestored⟩ := hout hsame
      intro p hp
      rcases List.mem_append.1 hp with hinner | hp
      · cases hentered : w.entered path with
        | error failure =>
            simp only [hentered] at hinner
            cases hinner
        | ok inside =>
            simp only [hentered] at hinner hfiles
            exact ihbody (World.settled_of_entered hentered)
              (fun q hq => hfiles q (List.mem_append_left _ hq)) p hinner
      · rcases List.mem_cons.1 hp with rfl | hnext
        · exact ⟨hrestored, hended⟩
        · split at hnext
          · next hgoes =>
              simp only [if_pos hgoes] at hfiles
              exact ihnext (hrestored.settled hw hsame)
                (fun q hq => hfiles q (List.mem_append_right _ (List.mem_cons_of_mem _ hq))) p hnext
          · cases hnext
  | run settings caught next ihnext =>
      have hout := evaluated_restores hw settings
      rw [Course.passages] at hfiles ⊢
      generalize settings.evaluated.result w = left at hfiles hout ⊢
      have hsame := hfiles _ List.mem_cons_self
      obtain ⟨hended, hrestored⟩ := hout hsame
      intro p hp
      rcases List.mem_cons.1 hp with rfl | hnext
      · exact ⟨hrestored, hended⟩
      · split at hnext
        · next hgoes =>
            simp only [if_pos hgoes] at hfiles
            exact ihnext (hrestored.settled hw hsame)
              (fun q hq => hfiles q (List.mem_cons_of_mem _ hq)) p hnext
        · cases hnext

/-- From a world that a resolution left, every scope and run of a course is left with the
configuration, the constants, the sources and the environment with which it was entered, and passes
on what ended it. -/
theorem course_leaves_no_trace (c : Course) {start w : World}
    (hstart : resolveConstants.result start = (.ok (), w))
    (hfiles : ∀ p ∈ c.passages w, p.before.SameConfig p.after.files) :
    ∀ p ∈ c.passages w,
      p.after.activeConfig = p.before.activeConfig ∧
      p.after.constants = p.before.constants ∧
      p.after.sources = p.before.sources ∧
      p.after.environment = p.before.environment ∧
      p.outcome = p.ended := by
  intro p hp
  obtain ⟨hrestored, hended⟩ := c.restored_of_settled (settled_of_result hstart) hfiles p hp
  exact ⟨hrestored.activeConfig, hrestored.constants, hrestored.sources, hrestored.environment,
    hended⟩

/-- Where no run writes a file, the files are the same at every passage. -/
theorem Course.files_of_passages (c : Course)
    (hc : ∀ s ∈ c.runs, s.evaluated.Keeps World.files) {w : World} :
    ∀ p ∈ c.passages w, p.after.files = p.before.files := by
  induction c generalizing w with
  | stop =>
      intro p hp
      cases hp
  | fail failure =>
      intro p hp
      cases hp
  | scope path body caught next ihbody ihnext =>
      have hbody : ∀ s ∈ body.runs, s.evaluated.Keeps World.files :=
        fun s hs => hc s (List.mem_append_left _ hs)
      have hnext : ∀ s ∈ next.runs, s.evaluated.Keeps World.files :=
        fun s hs => hc s (List.mem_append_right _ hs)
      intro p hp
      rw [Course.passages] at hp
      rcases List.mem_append.1 hp with hinner | hp
      · cases hentered : w.entered path with
        | error failure =>
            simp only [hentered] at hinner
            cases hinner
        | ok inside =>
            simp only [hentered] at hinner
            exact ihbody hbody p hinner
      · rcases List.mem_cons.1 hp with rfl | hp
        · exact keeps_withScope outer_files path (body.keeps_work outer_files hbody) w
        · split at hp
          · exact ihnext hnext p hp
          · cases hp
  | run settings caught next ihnext =>
      intro p hp
      rw [Course.passages] at hp
      rcases List.mem_cons.1 hp with rfl | hp
      · exact hc settings List.mem_cons_self w
      · split at hp
        · exact ihnext (fun s hs => hc s (List.mem_cons_of_mem _ hs)) p hp
        · cases hp

/-- Two configurations, of which the second cannot be resolved. -/
def twoConfigs : FileTree where
  nodes :=
    [(["half.toml"], .file "[abatement.constants]\nNORM_FACTOR = 0.3\n".toUTF8),
      (["broken.toml"], .file "[abatement.constants]\nTECH_CHANGE_START_PERIOD = inf\n".toUTF8)]
  here := []

/-- A world in which nothing is resolved yet. -/
def freshWorld : World where
  files := twoConfigs
  environment := [("GHGMAC_CARBON_MARKET", "CH4")]
  defaultConfig := ⟨.single, ["run.toml"]⟩
  scope := none
  overrides := none
  sources := []
  constants := Constants.default

/-- A scope that fails on entering stands in one that a failure ends. -/
def nestedCourse : Course :=
  .scope ⟨.single, ["half.toml"]⟩
    (.scope ⟨.single, ["broken.toml"]⟩ .stop true (.fail .noHorizon)) true .stop

theorem nestedCourse_leaves_no_trace :
    ∃ w, resolveConstants.result freshWorld = (.ok (), w) ∧
      (∀ p ∈ nestedCourse.passages w, p.before.SameConfig p.after.files) ∧
      ∀ p ∈ nestedCourse.passages w,
        p.after.activeConfig = p.before.activeConfig ∧
        p.after.constants = p.before.constants ∧
        p.after.sources = p.before.sources ∧
        p.after.environment = p.before.environment ∧
        p.outcome = p.ended := by
  have hresolves : (resolveConstants.result freshWorld).1.isOk = true := by decide +kernel
  rcases hr : resolveConstants.result freshWorld with ⟨failure | _, w⟩
  · rw [hr] at hresolves
    cases hresolves
  · have hfiles : ∀ p ∈ nestedCourse.passages w, p.before.SameConfig p.after.files := by
      intro p hp path _
      rw [nestedCourse.files_of_passages (by simp [nestedCourse, Course.runs]) p hp]
      exact ⟨rfl, rfl⟩
    exact ⟨w, rfl, hfiles, course_leaves_no_trace nestedCourse hr hfiles⟩

end Macc
